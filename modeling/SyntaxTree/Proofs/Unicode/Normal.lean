import Mathlib.Data.List.Chain
import SyntaxTree.Proofs.Unicode.Identifier

/-
# Normal forms are stable

Decomposing what has been composed, and ordering its marks, leads back to the ordered decomposition
it was composed from: a mark that was composed past others has a higher class than all of them.  So
the normal form of an identifier is its own normal form, and an identifier again.
-/

namespace SyntaxTree.Unicode

/-! ## The order of marks -/

/-- Whether a code point may stand in front of another one: a mark follows no mark of higher
class. -/
def InOrder (code next : Nat) : Prop :=
  combiningClass next = 0 ∨ combiningClass code ≤ combiningClass next

/-- A text whose marks are in the order of their classes. -/
def IsOrdered (codes : List Nat) : Prop := codes.IsChain InOrder

variable {code next : Nat} {codes rest : List Nat}

theorem isOrdered_cons :
    IsOrdered (code :: codes) ↔ (∀ next ∈ codes.head?, InOrder code next) ∧ IsOrdered codes :=
  List.isChain_cons

theorem insertOrdered_pass
    (h : 0 < combiningClass next ∧ combiningClass next < combiningClass code) :
    insertOrdered code (next :: rest) = next :: insertOrdered code rest := if_pos h

theorem insertOrdered_stop
    (h : ¬ (0 < combiningClass next ∧ combiningClass next < combiningClass code)) :
    insertOrdered code (next :: rest) = code :: next :: rest := if_neg h

theorem insertOrdered_of_isOrdered (h : IsOrdered (code :: codes)) :
    insertOrdered code codes = code :: codes := by
  cases codes with
  | nil => rfl
  | cons next rest =>
    have hnext : InOrder code next := (isOrdered_cons.mp h).1 next rfl
    unfold InOrder at hnext
    exact insertOrdered_stop (by omega)

/-- A starter stays where it is. -/
theorem insertOrdered_starter (h : combiningClass code = 0) (codes : List Nat) :
    insertOrdered code codes = code :: codes := by
  cases codes with
  | nil => rfl
  | cons next rest => exact insertOrdered_stop (by omega)

theorem head?_insertOrdered (code : Nat) (codes : List Nat) :
    ∀ c ∈ (insertOrdered code codes).head?, c = code ∨ c ∈ codes.head? := by
  cases codes with
  | nil => exact fun c hc => .inl (Option.some.inj hc).symm
  | cons next rest =>
    unfold insertOrdered
    split
    · exact fun c hc => .inr hc
    · exact fun c hc => .inl (Option.some.inj hc).symm

theorem isOrdered_insertOrdered (code : Nat) (h : IsOrdered codes) :
    IsOrdered (insertOrdered code codes) := by
  induction codes with
  | nil => exact .singleton code
  | cons next rest ih =>
    obtain ⟨hhead, hrest⟩ := isOrdered_cons.mp h
    by_cases hpass : 0 < combiningClass next ∧ combiningClass next < combiningClass code
    · rw [insertOrdered_pass hpass]
      refine isOrdered_cons.mpr ⟨fun c hc => ?_, ih hrest⟩
      rcases head?_insertOrdered code rest c hc with rfl | hc
      · exact .inr (Nat.le_of_lt hpass.2)
      · exact hhead c hc
    · rw [insertOrdered_stop hpass]
      refine isOrdered_cons.mpr ⟨fun c hc => ?_, h⟩
      obtain rfl := Option.some.inj hc
      unfold InOrder
      omega

theorem isOrdered_orderMarks (codes : List Nat) : IsOrdered (orderMarks codes) := by
  induction codes with
  | nil => exact .nil
  | cons code codes ih => exact isOrdered_insertOrdered code ih

theorem orderMarks_of_isOrdered (h : IsOrdered codes) : orderMarks codes = codes := by
  induction codes with
  | nil => rfl
  | cons code codes ih =>
    rw [orderMarks, List.foldr_cons, ← orderMarks, ih (isOrdered_cons.mp h).2,
      insertOrdered_of_isOrdered h]

theorem mem_of_mem_insertOrdered {c : Nat} (h : c ∈ insertOrdered code codes) :
    c = code ∨ c ∈ codes := by
  induction codes with
  | nil => exact .inl (List.mem_singleton.mp h)
  | cons next codes ih =>
    unfold insertOrdered at h
    split at h
    · rcases List.mem_cons.mp h with rfl | h
      · exact .inr List.mem_cons_self
      · exact (ih h).imp_right (List.mem_cons_of_mem _)
    · exact List.mem_cons.mp h

theorem mem_of_mem_orderMarks {c : Nat} (h : c ∈ orderMarks codes) : c ∈ codes := by
  induction codes with
  | nil => exact h
  | cons code codes ih =>
    rcases mem_of_mem_insertOrdered h with rfl | h
    · exact List.mem_cons_self
    · exact List.mem_cons_of_mem _ (ih h)

theorem orderMarks_append (codes rest : List Nat) :
    orderMarks (codes ++ rest) = orderMarks (codes ++ orderMarks rest) := by
  rw [orderMarks, orderMarks, List.foldr_append, List.foldr_append, ← orderMarks, ← orderMarks,
    orderMarks_of_isOrdered (isOrdered_orderMarks rest)]

/-- What is ordered alike is ordered alike behind the same text. -/
theorem orderMarks_append_congr {rest rest' : List Nat} (h : orderMarks rest = orderMarks rest')
    (codes : List Nat) : orderMarks (codes ++ rest) = orderMarks (codes ++ rest') := by
  rw [orderMarks_append, h, ← orderMarks_append]

/-- Marks of different classes may be inserted in either order. -/
theorem insertOrdered_comm {low high : Nat} (hlow : 0 < combiningClass low)
    (hhigh : combiningClass low < combiningClass high) (codes : List Nat) :
    insertOrdered low (insertOrdered high codes) =
      insertOrdered high (insertOrdered low codes) := by
  have hstopHigh : ¬ (0 < combiningClass high ∧ combiningClass high < combiningClass low) :=
    by omega
  induction codes with
  | nil =>
    rw [insertOrdered, insertOrdered, insertOrdered_stop hstopHigh,
      insertOrdered_pass ⟨hlow, hhigh⟩, insertOrdered]
  | cons next rest ih =>
    by_cases hpassHigh : 0 < combiningClass next ∧ combiningClass next < combiningClass high
    · by_cases hpassLow : 0 < combiningClass next ∧ combiningClass next < combiningClass low
      · rw [insertOrdered_pass hpassHigh, insertOrdered_pass hpassLow, ih,
          insertOrdered_pass hpassLow, insertOrdered_pass hpassHigh]
      · rw [insertOrdered_pass hpassHigh, insertOrdered_stop hpassLow, insertOrdered_stop hpassLow,
          insertOrdered_pass ⟨hlow, hhigh⟩, insertOrdered_pass hpassHigh]
    · have hstopLow : ¬ (0 < combiningClass next ∧ combiningClass next < combiningClass low) := by
        omega
      rw [insertOrdered_stop hpassHigh, insertOrdered_stop hstopHigh, insertOrdered_stop hstopLow,
        insertOrdered_pass ⟨hlow, hhigh⟩, insertOrdered_stop hpassHigh]

/-- A mark may stand in front of marks of lower class just as well as behind them. -/
theorem orderMarks_move {mark : Nat} {passed : List Nat}
    (hpassed : ∀ p ∈ passed, 0 < combiningClass p ∧ combiningClass p < combiningClass mark)
    (codes : List Nat) :
    orderMarks (passed ++ mark :: codes) = orderMarks (mark :: (passed ++ codes)) := by
  induction passed with
  | nil => rfl
  | cons p passed ih =>
    obtain ⟨⟨hpositive, hlower⟩, hpassed⟩ := List.forall_mem_cons.mp hpassed
    calc orderMarks (p :: passed ++ mark :: codes)
        = insertOrdered p (orderMarks (passed ++ mark :: codes)) := rfl
      _ = insertOrdered p (insertOrdered mark (orderMarks (passed ++ codes))) := by
          rw [ih hpassed]
          rfl
      _ = insertOrdered mark (insertOrdered p (orderMarks (passed ++ codes))) :=
          insertOrdered_comm hpositive hlower _
      _ = orderMarks (mark :: (p :: passed ++ codes)) := rfl

/-! ## Decomposing what has been composed -/

/-- What decomposes into itself. -/
def IsFinal (codes : List Nat) : Prop := ∀ c ∈ codes, decompose c = [c]

theorem IsFinal.flatMap_decompose (h : IsFinal codes) : codes.flatMap decompose = codes := by
  induction codes with
  | nil => rfl
  | cons code codes ih =>
    obtain ⟨hcode, hcodes⟩ := List.forall_mem_cons.mp h
    rw [List.flatMap_cons, hcode, ih hcodes]
    rfl

/-- The marks that a starter has been composed past: none is a starter, none has a class above the
present one, and the next code point stands in order behind them. -/
structure IsPassed (level : Nat) (passed codes : List Nat) : Prop where
  final : IsFinal passed
  positive : ∀ p ∈ passed, 0 < combiningClass p
  le_level : ∀ p ∈ passed, combiningClass p ≤ level
  ordered : ∀ p ∈ passed, ∀ c ∈ codes.head?, InOrder p c

theorem isPassed_nil (level : Nat) (codes : List Nat) : IsPassed level [] codes :=
  ⟨nofun, nofun, nofun, nofun⟩

/-- A code point that composes has a higher class than all marks it has been composed past. -/
theorem IsPassed.behind_composed {level : Nat} {passed : List Nat}
    (h : IsPassed level passed (code :: codes))
    (hreach : passed = [] ∨ level < combiningClass code) (hcodes : IsOrdered (code :: codes)) :
    IsPassed level passed codes := by
  rcases hreach with rfl | hlevel
  · exact isPassed_nil level codes
  · refine ⟨h.final, h.positive, h.le_level, fun p hp c hc => ?_⟩
    have hnext := (isOrdered_cons.mp hcodes).1 c hc
    have hp := h.le_level p hp
    unfold InOrder at hnext ⊢
    omega

theorem IsPassed.behind_mark {level : Nat} {passed : List Nat}
    (h : IsPassed level passed (code :: codes)) (hmark : combiningClass code ≠ 0)
    (hfinal : decompose code = [code]) (hcodes : IsOrdered (code :: codes)) :
    IsPassed (combiningClass code) (code :: passed) codes := by
  have hle : ∀ p ∈ code :: passed, combiningClass p ≤ combiningClass code := by
    refine List.forall_mem_cons.mpr ⟨Nat.le_refl _, fun p hp => ?_⟩
    exact (h.ordered p hp code rfl).resolve_left hmark
  refine ⟨List.forall_mem_cons.mpr ⟨hfinal, h.final⟩,
    List.forall_mem_cons.mpr ⟨Nat.pos_of_ne_zero hmark, h.positive⟩, hle, fun p hp c hc => ?_⟩
  have hnext := (isOrdered_cons.mp hcodes).1 c hc
  have hp := hle p hp
  unfold InOrder at hnext ⊢
  omega

/-- The step of `composeFrom`, along its recursion: what has been composed so far decomposes into
the starter, and the marks that were passed stand behind it. -/
theorem orderMarks_decompose_composeFrom {starter level : Nat} {passed codes : List Nat}
    (hstarter : isIdentifierContinue starter) (hpassed : IsPassed level passed codes)
    (hcodes : IsOrdered codes) (hfinal : IsFinal codes)
    (hcontinue : ∀ c ∈ codes, isIdentifierContinue c) :
    orderMarks ((composeFrom starter passed level codes).flatMap decompose) =
      orderMarks (decompose starter ++ (passed.reverse ++ codes)) := by
  fun_induction composeFrom starter passed level codes with
  | case1 starter passed level =>
    have hreverse : IsFinal passed.reverse := fun c hc => hpassed.final c (List.mem_reverse.mp hc)
    rw [List.flatMap_cons, hreverse.flatMap_decompose, List.append_nil]
  | case2 starter passed level code rest own composed hcomposed ih =>
    obtain ⟨-, hordered⟩ := isOrdered_cons.mp hcodes
    obtain ⟨hcode, hrest⟩ := List.forall_mem_cons.mp hfinal
    obtain ⟨hcodeContinue, hrestContinue⟩ := List.forall_mem_cons.mp hcontinue
    obtain ⟨hreach, hcomposed⟩ := Option.ite_none_right_eq_some.mp hcomposed
    have hcomposite := isComposite_of_composite? hcomposed hstarter
    -- All marks that were passed have a lower class than the one that composes, so it may stand in
    -- front of them just as well.
    have hmove : orderMarks (code :: (passed.reverse ++ rest)) =
        orderMarks (passed.reverse ++ code :: rest) := by
      refine (orderMarks_move (fun p hp => ?_) rest).symm
      have hp := List.mem_reverse.mp hp
      refine ⟨hpassed.positive p hp, ?_⟩
      rcases hreach with rfl | hlevel
      · cases hp
      · exact Nat.lt_of_le_of_lt (hpassed.le_level p hp) hlevel
    calc orderMarks ((composeFrom composed passed level rest).flatMap decompose)
        = orderMarks (decompose composed ++ (passed.reverse ++ rest)) :=
          ih hcomposite.continues (hpassed.behind_composed hreach hcodes) hordered hrest
            hrestContinue
      _ = orderMarks (decompose starter ++ code :: (passed.reverse ++ rest)) := by
          rw [hcomposite.decompose, List.append_assoc]
          rfl
      _ = orderMarks (decompose starter ++ (passed.reverse ++ code :: rest)) :=
          orderMarks_append_congr hmove _
  | case3 starter passed level code rest own hnone hown ih =>
    obtain ⟨-, hordered⟩ := isOrdered_cons.mp hcodes
    obtain ⟨hcode, hrest⟩ := List.forall_mem_cons.mp hfinal
    obtain ⟨hcodeContinue, hrestContinue⟩ := List.forall_mem_cons.mp hcontinue
    -- A code of class zero is the next starter; what was passed is final and stays as it is.
    have hbehind := ih hcodeContinue (isPassed_nil 0 rest) hordered hrest hrestContinue
    rw [hcode] at hbehind
    have hreverse : IsFinal passed.reverse := fun c hc => hpassed.final c (List.mem_reverse.mp hc)
    rw [List.cons_append, List.flatMap_cons, List.flatMap_append, hreverse.flatMap_decompose,
      ← List.append_assoc, ← List.append_assoc]
    exact orderMarks_append_congr hbehind _
  | case4 starter passed level code rest own hnone hown ih =>
    obtain ⟨-, hordered⟩ := isOrdered_cons.mp hcodes
    obtain ⟨hcode, hrest⟩ := List.forall_mem_cons.mp hfinal
    obtain ⟨hcodeContinue, hrestContinue⟩ := List.forall_mem_cons.mp hcontinue
    rw [ih hstarter (hpassed.behind_mark hown hcode hcodes) hordered hrest hrestContinue,
      List.reverse_cons, List.append_assoc]
    rfl

/-- Decomposing and ordering undoes the composition of an ordered text. -/
theorem orderMarks_decompose_compose (hcodes : IsOrdered codes) (hfinal : IsFinal codes)
    (hcontinue : ∀ c ∈ codes, isIdentifierContinue c) :
    orderMarks ((compose codes).flatMap decompose) = codes := by
  have hboth : orderMarks ((compose codes).flatMap decompose) = orderMarks codes := by
    induction codes with
    | nil => rfl
    | cons code rest ih =>
      obtain ⟨-, hordered⟩ := isOrdered_cons.mp hcodes
      obtain ⟨hcode, hrest⟩ := List.forall_mem_cons.mp hfinal
      obtain ⟨hcodeContinue, hrestContinue⟩ := List.forall_mem_cons.mp hcontinue
      unfold compose
      split
      · rw [orderMarks_decompose_composeFrom hcodeContinue (isPassed_nil 0 rest) hordered hrest
          hrestContinue, hcode]
        rfl
      · rw [List.flatMap_cons, hcode]
        exact orderMarks_append_congr (ih hordered hrest hrestContinue) [code]
  rw [hboth, orderMarks_of_isOrdered hcodes]

/-! ## What composition keeps -/

section Closed

variable {P : Nat → Prop}
  (hP : ∀ {first second composed}, composite? first second = some composed → P first → P composed)

include hP

theorem forall_mem_composeFrom {starter level : Nat} {passed : List Nat} (hstarter : P starter)
    (hpassed : ∀ c ∈ passed, P c) (hcodes : ∀ c ∈ codes, P c) :
    ∀ c ∈ composeFrom starter passed level codes, P c := by
  fun_induction composeFrom starter passed level codes with
  | case1 starter passed level => simpa [hstarter] using hpassed
  | case2 starter passed level code rest own composed hcomposed ih =>
    obtain ⟨-, hrest⟩ := List.forall_mem_cons.mp hcodes
    obtain ⟨-, hcomposed⟩ := Option.ite_none_right_eq_some.mp hcomposed
    exact ih (hP hcomposed hstarter) hpassed hrest
  | case3 starter passed level code rest own hnone hown ih =>
    obtain ⟨hcode, hrest⟩ := List.forall_mem_cons.mp hcodes
    have hbehind := ih hcode nofun hrest
    simpa [hstarter, or_imp, forall_and] using ⟨hpassed, hbehind⟩
  | case4 starter passed level code rest own hnone hown ih =>
    obtain ⟨hcode, hrest⟩ := List.forall_mem_cons.mp hcodes
    exact ih hstarter (List.forall_mem_cons.mpr ⟨hcode, hpassed⟩) hrest

/-- What holds of composites holds of all that a text composes to. -/
theorem forall_mem_compose (h : ∀ c ∈ codes, P c) : ∀ c ∈ compose codes, P c := by
  induction codes with
  | nil => exact h
  | cons code rest ih =>
    obtain ⟨hcode, hrest⟩ := List.forall_mem_cons.mp h
    unfold compose
    split
    · exact forall_mem_composeFrom hP hcode nofun hrest
    · exact List.forall_mem_cons.mpr ⟨hcode, ih hrest⟩

end Closed

theorem exists_start_of_composeFrom {starter level : Nat} {passed : List Nat}
    (hstarter : isIdentifierStart starter) :
    ∃ first rest, composeFrom starter passed level codes = first :: rest ∧
      isIdentifierStart first := by
  fun_induction composeFrom starter passed level codes with
  | case1 starter passed level => exact ⟨starter, _, rfl, hstarter⟩
  | case2 starter passed level code rest own composed hcomposed ih =>
    obtain ⟨-, hcomposed⟩ := Option.ite_none_right_eq_some.mp hcomposed
    have hcomposite :=
      isComposite_of_composite? hcomposed (isIdentifierContinue_of_start hstarter)
    exact ih (hcomposite.starts hstarter)
  | case3 starter passed level code rest own hnone hown ih => exact ⟨starter, _, rfl, hstarter⟩
  | case4 starter passed level code rest own hnone hown ih => exact ih hstarter

/-! ## Names -/

/-- Code points that spell a name. -/
structure SpellsName (codes : List Nat) : Prop where
  starts : ∃ first rest, codes = first :: rest ∧ isIdentifierStart first
  continues : ∀ c ∈ codes, isIdentifierContinue c

/-- The ordered decomposition of a text. -/
def expand (codes : List Nat) : List Nat := orderMarks (codes.flatMap decompose)

theorem normalizeCodes_eq (codes : List Nat) : normalizeCodes codes = compose (expand codes) := rfl

theorem isOrdered_expand (codes : List Nat) : IsOrdered (expand codes) := isOrdered_orderMarks _

theorem isFinal_expand (codes : List Nat) : IsFinal (expand codes) := fun c hc => by
  obtain ⟨code, -, hc⟩ := List.mem_flatMap.mp (mem_of_mem_orderMarks hc)
  exact decompose_of_mem_decompose hc

theorem continues_expand (h : ∀ c ∈ codes, isIdentifierContinue c) :
    ∀ c ∈ expand codes, isIdentifierContinue c := fun c hc => by
  obtain ⟨code, hcode, hc⟩ := List.mem_flatMap.mp (mem_of_mem_orderMarks hc)
  exact isIdentifierContinue_of_mem_decompose (h code hcode) hc

theorem SpellsName.expand (h : SpellsName codes) : SpellsName (expand codes) := by
  obtain ⟨⟨code, rest, rfl, hcode⟩, hcontinues⟩ := h
  obtain ⟨first, parts, hparts, hfirst⟩ := exists_start_of_decompose hcode
  refine ⟨⟨first, orderMarks (parts ++ rest.flatMap decompose), ?_, hfirst⟩,
    continues_expand hcontinues⟩
  rw [Unicode.expand, List.flatMap_cons, hparts]
  exact insertOrdered_starter (combiningClass_of_start hfirst) _

/-- The normal form of a name is a name. -/
theorem SpellsName.normalizeCodes (h : SpellsName codes) : SpellsName (normalizeCodes codes) := by
  obtain ⟨⟨first, rest, hexpand, hfirst⟩, hcontinues⟩ := h.expand
  refine ⟨?_, ?_⟩
  · rw [normalizeCodes_eq, hexpand, compose, if_pos (combiningClass_of_start hfirst)]
    exact exists_start_of_composeFrom hfirst
  · exact forall_mem_compose (fun hcomposed hfirst =>
      (isComposite_of_composite? hcomposed hfirst).continues) hcontinues

/-- A text of characters of identifiers that is in normal form stays as it is. -/
theorem normalizeCodes_normalizeCodes (h : ∀ c ∈ codes, isIdentifierContinue c) :
    normalizeCodes (normalizeCodes codes) = normalizeCodes codes := by
  rw [normalizeCodes_eq codes, normalizeCodes_eq, expand, orderMarks_decompose_compose
    (isOrdered_expand codes) (isFinal_expand codes) (continues_expand h)]

end SyntaxTree.Unicode
