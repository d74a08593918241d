import Mathlib.Data.List.Basic
import SyntaxTree.Tree.Dump

/-
# Indented lines

A dump is the preorder walk of a tree of lines: under a node's label stand the names of its fields,
and under each name the entries of the field.  The indentation of the lines gives the tree back, so
two dumps of clean lines are equal only if their trees of lines are.
-/

namespace SyntaxTree

/-- A line of a dump and the branches under it. -/
inductive Branch where
  | node (content : Bytes) (parts : List Branch)

namespace Branch

/-! ## The walk of a branch -/

mutual

/-- The lines of a branch whose first line has a depth. -/
def lines (depth : Nat) : Branch → List DumpLine
  | .node content parts => ⟨depth, content⟩ :: linesAll (depth + 1) parts

/-- The lines of branches one after the other. -/
def linesAll (depth : Nat) : List Branch → List DumpLine
  | [] => []
  | b :: rest => b.lines depth ++ linesAll depth rest

end

/-- The branches under the line of a field with the given name. -/
def under (name : Bytes) : List Branch → List Branch
  | [] => []
  | .node content parts :: rest =>
    (if content = name ++ text ":" then parts else []) ++ under name rest

/-- Lines that begin above a depth, so that they belong to no branch at that depth. -/
def EndsBelow (depth : Nat) (ls : List DumpLine) : Prop := ∀ l ∈ ls.head?, l.depth < depth

/-- No lines belong to no branch. -/
theorem endsBelow_nil (depth : Nat) : EndsBelow depth [] := by
  intro l hl
  simp at hl

/-- Lines that end a depth end every greater one. -/
theorem EndsBelow.succ {depth : Nat} {ls : List DumpLine} (h : EndsBelow depth ls) :
    EndsBelow (depth + 1) ls := by
  intro l hl
  exact Nat.lt_succ_of_lt (h l hl)

/-- Further branches at a depth end the branches one deeper. -/
theorem endsBelow_linesAll (depth : Nat) (bs : List Branch) {ls : List DumpLine}
    (h : EndsBelow depth ls) : EndsBelow (depth + 1) (linesAll depth bs ++ ls) := by
  cases bs with
  | nil => exact h.succ
  | cons b rest =>
    obtain ⟨content, parts⟩ := b
    intro l hl
    have : l = ⟨depth, content⟩ := by simpa [linesAll, lines, eq_comm] using hl
    rw [this]
    exact Nat.lt_succ_self depth

/-- Lines that end a depth do not begin with a branch at that depth. -/
theorem ne_linesAll_cons {depth : Nat} {ls : List DumpLine} (h : EndsBelow depth ls) (b : Branch)
    (rest : List Branch) (more : List DumpLine) : ls ≠ linesAll depth (b :: rest) ++ more := by
  obtain ⟨content, parts⟩ := b
  intro heq
  have := h ⟨depth, content⟩ (by simp [heq, linesAll, lines])
  exact Nat.lt_irrefl depth this

/-! ## The indentation gives the tree back -/

mutual

/-- The lines of a branch determine it, and what follows them. -/
theorem lines_append_inj (depth : Nat) : ∀ (b c : Branch) {r s : List DumpLine},
    EndsBelow (depth + 1) r → EndsBelow (depth + 1) s →
    b.lines depth ++ r = c.lines depth ++ s → b = c ∧ r = s
  | .node x ps, .node y qs, r, s, hr, hs, h => by
    simp only [lines, List.cons_append, List.cons.injEq, DumpLine.mk.injEq, true_and] at h
    obtain ⟨rfl, h⟩ := h
    obtain ⟨rfl, hrest⟩ := linesAll_append_inj (depth + 1) ps qs hr hs h
    exact ⟨rfl, hrest⟩

/-- The lines of branches determine them, and what follows them. -/
theorem linesAll_append_inj (depth : Nat) : ∀ (bs cs : List Branch) {r s : List DumpLine},
    EndsBelow depth r → EndsBelow depth s →
    linesAll depth bs ++ r = linesAll depth cs ++ s → bs = cs ∧ r = s
  | [], [], r, s, _, _, h => ⟨rfl, by simpa [linesAll] using h⟩
  | [], c :: cs, r, s, hr, _, h => absurd (by simpa [linesAll] using h) (ne_linesAll_cons hr c cs s)
  | b :: bs, [], r, s, _, hs, h =>
    absurd (by simpa [linesAll] using h.symm) (ne_linesAll_cons hs b bs r)
  | b :: bs, c :: cs, r, s, hr, hs, h => by
    simp only [linesAll, List.append_assoc] at h
    obtain ⟨rfl, hmore⟩ := lines_append_inj depth b c (endsBelow_linesAll depth bs hr)
      (endsBelow_linesAll depth cs hs) h
    obtain ⟨rfl, hrest⟩ := linesAll_append_inj depth bs cs hr hs hmore
    exact ⟨rfl, hrest⟩

end

/-- Branches with equal lines are equal. -/
theorem eq_of_lines_eq {depth : Nat} {b c : Branch} (h : b.lines depth = c.lines depth) : b = c :=
  (lines_append_inj depth b c (endsBelow_nil _) (endsBelow_nil _) (by rw [h])).1

end Branch

/-! ## Lines as text -/

/-- A line whose text shows where its indentation ends and where the line ends. -/
def DumpLine.IsClean (l : DumpLine) : Prop :=
  Byte.lineFeed ∉ l.content ∧ l.content.head? ≠ some Byte.space

/-- Texts without a byte are separated from what follows that byte. -/
theorem append_cons_inj {b : Byte} {s t r u : Bytes} (hs : b ∉ s) (ht : b ∉ t)
    (h : s ++ b :: r = t ++ b :: u) : s = t ∧ r = u := by
  have hsplit : ∀ {v w : Bytes}, b ∉ v → (v ++ b :: w).takeWhile (· ≠ b) = v := by
    intro v w hv
    rw [List.takeWhile_append_of_pos]
    · simp
    · intro a ha
      simpa using fun hab : a = b => hv (hab ▸ ha)
  have hst : s = t := by
    rw [← hsplit hs (w := r), h, hsplit ht]
  subst hst
  simpa using h

/-- Indentations in front of texts that do not begin with a space are told apart. -/
theorem spaces_append_inj {m n : Nat} {s t : Bytes} (hs : s.head? ≠ some Byte.space)
    (ht : t.head? ≠ some Byte.space) (h : Bytes.spaces m ++ s = Bytes.spaces n ++ t) :
    m = n ∧ s = t := by
  have hcount : ∀ {k : Nat} {v : Bytes}, v.head? ≠ some Byte.space →
      (Bytes.spaces k ++ v).takeWhile (· = Byte.space) = Bytes.spaces k := by
    intro k v hv
    rw [List.takeWhile_append_of_pos (by simp [Bytes.spaces])]
    cases v with
    | nil => simp
    | cons b v =>
      have hb : b ≠ Byte.space := by simpa using hv
      simp [hb]
  have hspaces : Bytes.spaces m = Bytes.spaces n := by
    rw [← hcount hs, h, hcount ht]
  have hmn : m = n := by simpa [Bytes.spaces] using congrArg List.length hspaces
  subst hmn
  exact ⟨rfl, List.append_cancel_left h⟩

/-- Clean lines are told apart by their texts. -/
theorem flatMap_render_inj : ∀ {ls ms : List DumpLine}, (∀ l ∈ ls, l.IsClean) →
    (∀ m ∈ ms, m.IsClean) → ls.flatMap DumpLine.render = ms.flatMap DumpLine.render → ls = ms
  | [], [], _, _, _ => rfl
  | [], m :: ms, _, _, h => by simp [DumpLine.render, text] at h
  | l :: ls, [], _, _, h => by simp [DumpLine.render, text] at h
  | l :: ls, m :: ms, hl, hm, h => by
    obtain ⟨hlfeed, hlspace⟩ := hl l (by simp)
    obtain ⟨hmfeed, hmspace⟩ := hm m (by simp)
    have hindent : ∀ {n : Nat} {s : Bytes}, Byte.lineFeed ∉ s →
        Byte.lineFeed ∉ Bytes.spaces n ++ s := by
      intro n s hs
      simp [Bytes.spaces, hs, show Byte.lineFeed ≠ Byte.space by decide]
    simp only [List.flatMap_cons, DumpLine.render, List.append_assoc,
      show text "\n" = [Byte.lineFeed] from rfl, List.singleton_append] at h
    rw [← List.append_assoc, ← List.append_assoc (Bytes.spaces (2 * m.depth))] at h
    obtain ⟨hline, hrest⟩ := append_cons_inj (hindent hlfeed) (hindent hmfeed) h
    obtain ⟨hdepth, hcontent⟩ := spaces_append_inj hlspace hmspace hline
    have hfirst : l = m := by
      obtain ⟨depth, content⟩ := l
      obtain ⟨depth', content'⟩ := m
      simp only [DumpLine.mk.injEq]
      exact ⟨Nat.eq_of_mul_eq_mul_left Nat.two_pos hdepth, hcontent⟩
    have hlater : ls = ms :=
      flatMap_render_inj (fun l' hl' => hl l' (List.mem_cons_of_mem l hl'))
        (fun m' hm' => hm m' (List.mem_cons_of_mem m hm')) hrest
    rw [hfirst, hlater]

/-! ## Documents as branches -/

mutual

/-- The branch of a document. -/
def Doc.branch : Doc → Branch
  | .node label fields => .node label (Doc.fieldBranches fields)

/-- The branches of fields; an empty field has none. -/
def Doc.fieldBranches : List Doc.Field → List Branch
  | [] => []
  | .mk _ [] :: fields => Doc.fieldBranches fields
  | .mk name (e :: entries) :: fields =>
    .node (name ++ text ":") (Doc.entryBranches (e :: entries)) :: Doc.fieldBranches fields

/-- The branches of the entries of a field. -/
def Doc.entryBranches : List Doc.Entry → List Branch
  | [] => []
  | .absent :: entries => .node (text "-") [] :: Doc.entryBranches entries
  | .present doc :: entries => doc.branch :: Doc.entryBranches entries

end

/-- Every entry has a line. -/
theorem Doc.entryLines_cons_ne_nil (depth : Nat) (e : Doc.Entry) (entries : List Doc.Entry) :
    Doc.entryLines depth (e :: entries) ≠ [] := by
  cases e with
  | absent => simp [Doc.entryLines]
  | present doc =>
    obtain ⟨label, fields⟩ := doc
    simp [Doc.entryLines, Doc.lines]

mutual

/-- The lines of a document are those of its branch. -/
theorem Doc.lines_eq (depth : Nat) : ∀ doc : Doc, doc.lines depth = doc.branch.lines depth
  | .node label fields => by
    rw [Doc.lines, Doc.branch, Branch.lines, Doc.fieldLines_eq (depth + 1) fields]

/-- The lines of fields are those of their branches. -/
theorem Doc.fieldLines_eq (depth : Nat) : ∀ fields : List Doc.Field,
    Doc.fieldLines depth fields = Branch.linesAll depth (Doc.fieldBranches fields)
  | [] => rfl
  | .mk name [] :: fields => by
    rw [Doc.fieldBranches, ← Doc.fieldLines_eq depth fields]
    rfl
  | .mk name (e :: entries) :: fields => by
    rw [Doc.fieldLines, if_neg (Doc.entryLines_cons_ne_nil (depth + 1) e entries),
      Doc.fieldBranches, Branch.linesAll, Branch.lines,
      Doc.entryLines_eq (depth + 1) (e :: entries), Doc.fieldLines_eq depth fields]

/-- The lines of entries are those of their branches. -/
theorem Doc.entryLines_eq (depth : Nat) : ∀ entries : List Doc.Entry,
    Doc.entryLines depth entries = Branch.linesAll depth (Doc.entryBranches entries)
  | [] => rfl
  | .absent :: entries => by
    rw [Doc.entryLines, Doc.entryBranches, Branch.linesAll, Doc.entryLines_eq depth entries]
    rfl
  | .present doc :: entries => by
    rw [Doc.entryLines, Doc.entryBranches, Branch.linesAll, Doc.lines_eq depth doc,
      Doc.entryLines_eq depth entries]

end

/-- Documents of clean lines with equal texts have equal branches. -/
theorem Doc.branch_eq_of_render_eq {doc doc' : Doc} (h : ∀ l ∈ doc.lines 0, l.IsClean)
    (h' : ∀ l ∈ doc'.lines 0, l.IsClean) (heq : doc.render = doc'.render) :
    doc.branch = doc'.branch := by
  have hlines := flatMap_render_inj h h' heq
  rw [Doc.lines_eq, Doc.lines_eq] at hlines
  exact Branch.eq_of_lines_eq hlines

/-! ## Fields of equal branches -/

/-- The name of a field. -/
def Doc.Field.name : Doc.Field → Bytes
  | .mk name _ => name

/-- The branches of the entries of a field. -/
def Doc.Field.branches : Doc.Field → List Branch
  | .mk _ entries => Doc.entryBranches entries

/-- The entries of a field stand under its name. -/
theorem Branch.under_fieldBranches_cons (name : Bytes) (field : Doc.Field)
    (fields : List Doc.Field) :
    Branch.under name (Doc.fieldBranches (field :: fields)) =
      (if field.name = name then field.branches else []) ++
        Branch.under name (Doc.fieldBranches fields) := by
  obtain ⟨m, entries⟩ := field
  cases entries with
  | nil => simp [Doc.fieldBranches, Doc.Field.branches, Doc.entryBranches]
  | cons e entries =>
    rw [Doc.fieldBranches, Branch.under]
    have hline : m ++ text ":" = name ++ text ":" ↔ (Doc.Field.mk m (e :: entries)).name = name :=
      ⟨List.append_cancel_right, congrArg (· ++ text ":")⟩
    by_cases h : (Doc.Field.mk m (e :: entries)).name = name
    · rw [if_pos (hline.mpr h), if_pos h]
      rfl
    · rw [if_neg (mt hline.mp h), if_neg h]

/-- Nothing stands under a name that no field has. -/
theorem Branch.under_fieldBranches_eq_nil {name : Bytes} : ∀ {fields : List Doc.Field},
    name ∉ fields.map Doc.Field.name → Branch.under name (Doc.fieldBranches fields) = []
  | [], _ => rfl
  | field :: fields, h => by
    rw [List.map_cons, List.mem_cons, not_or] at h
    rw [Branch.under_fieldBranches_cons, if_neg (Ne.symm h.1),
      Branch.under_fieldBranches_eq_nil h.2]
    rfl

/-- Fields of the same different names have the same entries if they have the same branches. -/
theorem Doc.branches_eq_of_fieldBranches_eq : ∀ {names : List Bytes}
    {fields fields' : List Doc.Field}, names.Nodup → fields.map Doc.Field.name = names →
    fields'.map Doc.Field.name = names →
    (∀ name, Branch.under name (Doc.fieldBranches fields) =
      Branch.under name (Doc.fieldBranches fields')) →
    fields.map Doc.Field.branches = fields'.map Doc.Field.branches
  | [], fields, fields', _, hf, hf', _ => by
    rw [List.map_eq_nil_iff.mp hf, List.map_eq_nil_iff.mp hf']
  | name :: names, fields, fields', hnames, hf, hf', h => by
    obtain ⟨field, rest, rfl, hname, hrest⟩ := List.map_eq_cons_iff.mp hf
    obtain ⟨field', rest', rfl, hname', hrest'⟩ := List.map_eq_cons_iff.mp hf'
    obtain ⟨hnew, hnames⟩ := List.nodup_cons.mp hnames
    have hempty : ∀ {fs : List Doc.Field}, fs.map Doc.Field.name = names →
        Branch.under name (Doc.fieldBranches fs) = [] := by
      intro fs hfs
      exact Branch.under_fieldBranches_eq_nil (hfs ▸ hnew)
    have hfirst : field.branches = field'.branches := by
      have := h name
      rw [Branch.under_fieldBranches_cons, Branch.under_fieldBranches_cons, if_pos hname,
        if_pos hname', hempty hrest, hempty hrest'] at this
      simpa using this
    have hlater := Doc.branches_eq_of_fieldBranches_eq hnames hrest hrest' fun other => by
      have := h other
      rw [Branch.under_fieldBranches_cons, Branch.under_fieldBranches_cons, hname, hname',
        hfirst] at this
      exact List.append_cancel_left this
    rw [List.map_cons, List.map_cons, hfirst, hlater]

/-- Nodes whose fields have the same different names and whose branches are equal have equal labels
and fields. -/
theorem Doc.parts_of_branch_eq {label label' : Bytes} {fields fields' : List Doc.Field}
    (names : List String) (hnames : (names.map text).Nodup)
    (hf : fields.map Doc.Field.name = names.map text)
    (hf' : fields'.map Doc.Field.name = names.map text)
    (h : (Doc.node label fields).branch = (Doc.node label' fields').branch) :
    label = label' ∧ fields.map Doc.Field.branches = fields'.map Doc.Field.branches := by
  simp only [Doc.branch, Branch.node.injEq] at h
  refine ⟨h.1, Doc.branches_eq_of_fieldBranches_eq hnames hf hf' fun name => ?_⟩
  rw [h.2]

end SyntaxTree
