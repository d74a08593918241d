import SyntaxTree.Report.Figures

/-
# Figures by their names

The names of figures stand in ascending order, so that a name has at most one count, and the figures
are a map from names to counts.  Setting a count and adding to it keep the order and change the map
at one name.
-/

namespace SyntaxTree.Figures

/-- The names stand in ascending order, each of them once. -/
def IsOrdered (f : Figures) : Prop := f.names.Pairwise (· < ·)

variable {f : Figures} {entries : List (Bytes × UInt64)} {name key : Bytes} {n : UInt64}
  {change : UInt64 → UInt64}

/-! ## Entries -/

theorem mem_alterEntries_names :
    key ∈ (alterEntries name change entries).map (·.1) → key = name ∨ key ∈ entries.map (·.1) := by
  fun_induction alterEntries name change entries with grind

theorem pairwise_alterEntries (h : (entries.map (·.1)).Pairwise (· < ·)) :
    ((alterEntries name change entries).map (·.1)).Pairwise (· < ·) := by
  fun_induction alterEntries name change entries with
  | case1 => exact List.pairwise_singleton _ _
  | case2 => exact h
  | case3 key count rest hne hlt =>
    obtain ⟨hfirst, -⟩ := List.pairwise_cons.mp h
    exact List.pairwise_cons.mpr ⟨List.forall_mem_cons.mpr
      ⟨hlt, fun other hother => List.lt_trans hlt (hfirst other hother)⟩, h⟩
  | case4 key count rest hne hlt ih =>
    obtain ⟨hfirst, hrest⟩ := List.pairwise_cons.mp h
    refine List.pairwise_cons.mpr ⟨fun other hother => ?_, ih hrest⟩
    rcases mem_alterEntries_names hother with rfl | hother
    · exact ((Std.lt_trichotomy other key).resolve_left hlt).resolve_left hne
    · exact hfirst other hother

/-- In front of all names there is no count. -/
theorem lookup_eq_none (h : ∀ other ∈ entries.map (·.1), name < other) :
    entries.lookup name = none := by
  refine List.lookup_eq_none_iff.mpr fun entry hentry => ?_
  have hlt := h entry.1 (List.mem_map_of_mem hentry)
  exact bne_iff_ne.mpr fun heq => List.lt_irrefl _ (heq ▸ hlt)

theorem lookup_entry (first : Bytes) (count : UInt64) (name : Bytes) :
    ((first, count) :: entries).lookup name =
      if name = first then some count else entries.lookup name := by
  rw [List.lookup_cons]
  split
  · next h => rw [if_pos (beq_iff_eq.mp h)]
  · next h => rw [if_neg (beq_eq_false_iff_ne.mp h)]

/-- The count under the name is changed and no other. -/
theorem lookup_alterEntries (h : (entries.map (·.1)).Pairwise (· < ·)) (key : Bytes) :
    (alterEntries name change entries).lookup key =
      if key = name then some (change ((entries.lookup name).getD 0)) else entries.lookup key := by
  induction entries with
  | nil => rw [alterEntries, lookup_entry]; rfl
  | cons entry rest ih =>
    obtain ⟨first, count⟩ := entry
    obtain ⟨hfirst, hrest⟩ := List.pairwise_cons.mp h
    rw [alterEntries]
    by_cases hname : name = first
    · subst hname
      rw [if_pos rfl]
      simp only [lookup_entry, if_true, Option.getD_some]
      split <;> rfl
    rw [if_neg hname]
    by_cases hlt : name < first
    · have hnone : ((first, count) :: rest).lookup name = none :=
        lookup_eq_none (List.forall_mem_cons.mpr
          ⟨hlt, fun other hother => List.lt_trans hlt (hfirst other hother)⟩)
      rw [if_pos hlt, hnone, lookup_entry]
      rfl
    · rw [if_neg hlt, lookup_entry, lookup_entry, lookup_entry, if_neg hname, ih hrest]
      by_cases hkey : key = first
      · rw [if_pos hkey, if_pos hkey, if_neg (hkey ▸ Ne.symm hname)]
      · rw [if_neg hkey, if_neg hkey]

/-! ## The map -/

theorem isOrdered_empty : empty.IsOrdered := List.Pairwise.nil

theorem IsOrdered.set (h : f.IsOrdered) (name : Bytes) (n : UInt64) : (f.set name n).IsOrdered :=
  pairwise_alterEntries h

theorem IsOrdered.add (h : f.IsOrdered) (name : Bytes) (n : UInt64) : (f.add name n).IsOrdered :=
  pairwise_alterEntries h

theorem IsOrdered.get?_set (h : f.IsOrdered) (name key : Bytes) (n : UInt64) :
    (f.set name n).get? key = if key = name then some n else f.get? key :=
  lookup_alterEntries h key

theorem IsOrdered.get?_add (h : f.IsOrdered) (name key : Bytes) (n : UInt64) :
    (f.add name n).get? key =
      if key = name then some ((f.get? name).getD 0 + n) else f.get? key :=
  lookup_alterEntries h key

theorem mem_names_set (h : key ∈ (f.set name n).names) : key = name ∨ key ∈ f.names :=
  mem_alterEntries_names h

theorem mem_names_add (h : key ∈ (f.add name n).names) : key = name ∨ key ∈ f.names :=
  mem_alterEntries_names h

/-- Figures under other names stand under those names only. -/
theorem mem_names_rename {newName : Bytes → Bytes} (h : key ∈ (f.rename newName).names) :
    ∃ name ∈ f.names, key = newName name := by
  have hfold : ∀ (entries : List (Bytes × UInt64)) (start : Figures),
      key ∈ (entries.foldl (fun result entry => result.add (newName entry.1) entry.2) start).names →
        key ∈ start.names ∨ ∃ name ∈ entries.map (·.1), key = newName name := by
    intro entries
    induction entries with
    | nil => exact fun start => .inl
    | cons entry entries ih =>
      intro start hkey
      rcases ih _ hkey with hkey | ⟨name, hname, heq⟩
      · rcases mem_names_add hkey with heq | hkey
        · exact .inr ⟨entry.1, List.mem_cons_self, heq⟩
        · exact .inl hkey
      · exact .inr ⟨name, List.mem_cons_of_mem _ hname, heq⟩
  exact (hfold f.entries empty h).resolve_left List.not_mem_nil

end SyntaxTree.Figures
