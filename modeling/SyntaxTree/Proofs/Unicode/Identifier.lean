import SyntaxTree.Proofs.Unicode.Table
import SyntaxTree.Unicode.Normal

/-
# Decomposition and composition of identifiers

What the characters of identifiers decompose into may stand in an identifier and does not decompose
any further.  What they compose to may stand there, too, and decomposes into what it was composed
of.
-/

namespace SyntaxTree.Unicode

/-! ## The characters as sets -/

/-- What may begin an identifier. -/
def starts : List (Nat × Nat) := (0x5F, 0x5F) :: startRanges

/-- What may stand in an identifier. -/
def continuations : List (Nat × Nat) := startRanges ++ continueRanges

variable {code c : Nat}

theorem isIdentifierStart_eq (code : Nat) : isIdentifierStart code = inRanges starts code := by
  have hunderscore : (code == 0x5F) = (decide (0x5F ≤ code) && decide (code ≤ 0x5F)) := by
    rw [Bool.eq_iff_iff, beq_iff_eq, Bool.and_eq_true, decide_eq_true_eq, decide_eq_true_eq]
    omega
  rw [isIdentifierStart, hunderscore]
  rfl

theorem isIdentifierContinue_eq (code : Nat) :
    isIdentifierContinue code = inRanges continuations code := by
  rw [continuations, inRanges, List.any_append]
  rfl

/-! ## Decomposition -/

/-- The jamo that syllables decompose into. -/
def jamo : List (Nat × Nat) := [(0x1100, 0x1112), (0x1161, 0x1175), (0x11A8, 0x11C2)]

/-- Hangul syllables. -/
def syllables : List (Nat × Nat) := [(0xAC00, 0xD7A3)]

/-- The code points that those of a run decompose into. -/
def Run.targets (run : Run) : List (Nat × Nat) :=
  match run.2.2 with
  | [] => []
  | first :: rest => (first, first + (run.2.1 - run.1)) :: rest.map fun c => (c, c)

/-- What code points other than themselves decompose into. -/
def parts : List (Nat × Nat) := jamo ++ decompositions.flatMap Run.targets

/-- What decomposes into something else. -/
def decomposables : List (Nat × Nat) :=
  syllables ++ decompositions.map fun run => (run.1, run.2.1)

/-- Marks, which have a combining class. -/
def marks : List (Nat × Nat) := combiningClasses.map fun range => (range.1, range.2.1)

/-- What a run decomposes into does not decompose any further and may stand in an identifier.  The
first parts begin identifiers, if the code points of the run do. -/
def Run.settles (run : Run) : Bool :=
  isDisjoint run.targets decomposables && isSubset run.targets continuations &&
    match run.2.2 with
    | [] => false
    | first :: _ =>
      isSubset [(first, first + (run.2.1 - run.1))] starts || isDisjoint [(run.1, run.2.1)] starts

/-- The decompositions agree with the sets.  They are taken a few at a time, so that what is found
for some of them is given up before the next. -/
theorem settles_of_mem {run : Run} (hrun : run ∈ decompositions) : run.settles := by
  have hletters : (latinDecompositions ++ brahmicDecompositions ++ phoneticDecompositions).all
      Run.settles := by decide +kernel
  have hideographs : (symbolDecompositions ++ ideographDecompositions).all Run.settles := by
    decide +kernel
  have harabic : arabicDecompositions.all Run.settles := by decide +kernel
  have hrest : (mathematicalDecompositions ++ ideographSupplement).all Run.settles := by
    decide +kernel
  rw [List.all_append, Bool.and_eq_true] at hideographs hrest
  have hall : decompositions.all Run.settles := by
    simp only [decompositions, List.all_append, hideographs, harabic, hrest, Bool.and_true]
    simpa only [List.all_append] using hletters
  exact List.all_eq_true.mp hall run hrun

/-- The sets agree with each other. -/
theorem sets_agree :
    (isDisjoint jamo decomposables ∧ isSubset jamo starts ∧ isSubset syllables starts) ∧
      isSubset starts continuations ∧ isDisjoint starts marks := by
  decide +kernel

theorem isIdentifierContinue_of_start (h : isIdentifierStart code) : isIdentifierContinue code := by
  obtain ⟨-, hsubset, -⟩ := sets_agree
  rw [isIdentifierStart_eq] at h
  rw [isIdentifierContinue_eq]
  exact inRanges_of_subset hsubset h

/-- What begins an identifier is no mark. -/
theorem combiningClass_of_start (h : isIdentifierStart code) : combiningClass code = 0 := by
  obtain ⟨-, -, hdisjoint⟩ := sets_agree
  rw [isIdentifierStart_eq] at h
  have hout := not_inRanges_of_disjoint hdisjoint h
  have hnone : combiningClasses.find? (fun r => decide (r.1 ≤ code) && decide (code ≤ r.2.1)) =
      none := by
    refine List.find?_eq_none.mpr fun r hr hcovers => hout (inRanges_iff.mpr ?_)
    rw [Bool.and_eq_true, decide_eq_true_eq, decide_eq_true_eq] at hcovers
    exact ⟨_, List.mem_map_of_mem hr, hcovers⟩
  rw [combiningClass, hnone]
  rfl

theorem inRanges_targets {run : Run} (hrun : run.covers code) (hc : c ∈ run.target code) :
    inRanges run.targets c := by
  obtain ⟨first, last, target⟩ := run
  obtain ⟨hfirst, hlast⟩ := Run.covers_eq_true.mp hrun
  cases target with
  | nil => cases hc
  | cons head rest =>
    rw [inRanges_iff]
    rcases List.mem_cons.mp hc with rfl | hc
    · refine ⟨_, List.mem_cons_self, ?_⟩
      dsimp only at hfirst hlast ⊢
      omega
    · exact ⟨(c, c), List.mem_cons_of_mem _ (List.mem_map_of_mem hc), Nat.le_refl c, Nat.le_refl c⟩

theorem inRanges_parts_of_table {codes : List Nat} (h : tableDecomposition? code = some codes)
    (hc : c ∈ codes) : inRanges parts c := by
  rw [tableDecomposition?_eq] at h
  obtain ⟨run, hfind, rfl⟩ := Option.map_eq_some_iff.mp h
  obtain ⟨range, hrange, hin⟩ :=
    inRanges_iff.mp (inRanges_targets (List.find?_some hfind) hc)
  exact inRanges_iff.mpr ⟨range, List.mem_append_right _
    (List.mem_flatMap.mpr ⟨run, List.mem_of_find?_eq_some hfind, hrange⟩), hin⟩

theorem inRanges_parts_of_jamo (h : inRanges jamo c) : inRanges parts c := by
  rw [parts, inRanges, List.any_append, Bool.or_eq_true]
  exact .inl h

theorem inRanges_jamo_of_hangul {codes : List Nat} (h : hangulDecomposition? code = some codes)
    (hc : c ∈ codes) : inRanges jamo c := by
  simp only [hangulDecomposition?, Option.ite_none_right_eq_some, Option.some.injEq] at h
  obtain ⟨hrange, rfl⟩ := h
  have hindex : code - 0xAC00 < 11172 := by omega
  generalize code - 0xAC00 = index at hindex hc
  have hjamo : c = 0x1100 + index / 588 ∨ c = 0x1161 + index % 588 / 28 ∨
      index % 28 ≠ 0 ∧ c = 0x11A7 + index % 28 := by
    split at hc
    · simp only [List.mem_cons, List.not_mem_nil, or_false] at hc
      exact hc.imp_right .inl
    · next hfinal => simpa [or_assoc, hfinal] using hc
  simp only [inRanges, jamo, List.any_cons, List.any_nil, Bool.or_false, Bool.or_eq_true,
    Bool.and_eq_true, decide_eq_true_eq]
  omega

theorem decompose_eq_self_or (code : Nat) :
    decompose code = [code] ∨ ∀ c ∈ decompose code, inRanges parts c := by
  unfold decompose
  cases hhangul : hangulDecomposition? code with
  | some codes => exact .inr fun c hc => inRanges_parts_of_jamo (inRanges_jamo_of_hangul hhangul hc)
  | none =>
    cases htable : tableDecomposition? code with
    | some codes => exact .inr fun c hc => inRanges_parts_of_table htable hc
    | none => exact .inl rfl

/-- What something decomposes into does not decompose any further and may stand in an identifier. -/
theorem inRanges_of_parts (h : inRanges parts code) :
    ¬ inRanges decomposables code ∧ inRanges continuations code := by
  obtain ⟨⟨hdisjoint, hjamo, -⟩, hstarts, -⟩ := sets_agree
  obtain ⟨range, hrange, hin⟩ := inRanges_iff.mp h
  rcases List.mem_append.mp hrange with hrange | hrange
  · have hpart : inRanges jamo code := inRanges_iff.mpr ⟨range, hrange, hin⟩
    exact ⟨not_inRanges_of_disjoint hdisjoint hpart,
      inRanges_of_subset hstarts (inRanges_of_subset hjamo hpart)⟩
  · obtain ⟨run, hrun, hrange⟩ := List.mem_flatMap.mp hrange
    have hpart : inRanges run.targets code := inRanges_iff.mpr ⟨range, hrange, hin⟩
    have hsettles := settles_of_mem hrun
    rw [Run.settles, Bool.and_eq_true, Bool.and_eq_true] at hsettles
    exact ⟨not_inRanges_of_disjoint hsettles.1.1 hpart, inRanges_of_subset hsettles.1.2 hpart⟩

theorem decompose_of_inRanges_parts (h : inRanges parts code) : decompose code = [code] := by
  have hout := (inRanges_of_parts h).1
  rw [inRanges_iff] at hout
  have hhangul : hangulDecomposition? code = none := by
    rw [hangulDecomposition?, if_neg]
    intro hin
    exact hout ⟨_, List.mem_append_left _ (List.mem_singleton_self _), hin.1,
      Nat.le_of_lt_succ hin.2⟩
  have htable : tableDecomposition? code = none := by
    rw [tableDecomposition?_eq, List.find?_eq_none.mpr]
    · rfl
    · intro run hrun hcovers
      exact hout ⟨_, List.mem_append_right _ (List.mem_map_of_mem hrun),
        Run.covers_eq_true.mp hcovers⟩
  rw [decompose, hhangul, htable]
  rfl

theorem decompose_of_mem_decompose (hc : c ∈ decompose code) : decompose c = [c] := by
  rcases decompose_eq_self_or code with hself | hparts
  · rw [hself, List.mem_singleton] at hc
    rw [hc, hself]
  · exact decompose_of_inRanges_parts (hparts c hc)

theorem isIdentifierContinue_of_mem_decompose (h : isIdentifierContinue code)
    (hc : c ∈ decompose code) : isIdentifierContinue c := by
  rcases decompose_eq_self_or code with hself | hparts
  · rw [hself, List.mem_singleton] at hc
    rwa [hc]
  · rw [isIdentifierContinue_eq]
    exact (inRanges_of_parts (hparts c hc)).2

theorem Run.exists_start_of_target {run : Run} (hsettles : run.settles) (hrun : run.covers code)
    (h : isIdentifierStart code) :
    ∃ first rest, run.target code = first :: rest ∧ isIdentifierStart first := by
  obtain ⟨low, high, target⟩ := run
  obtain ⟨hlow, hhigh⟩ := Run.covers_eq_true.mp hrun
  rw [settles, Bool.and_eq_true] at hsettles
  cases target with
  | nil => cases hsettles.2
  | cons first rest =>
    refine ⟨first + (code - low), rest, rfl, ?_⟩
    rw [isIdentifierStart_eq] at h ⊢
    rcases Bool.or_eq_true_iff.mp hsettles.2 with hsubset | hdisjoint
    · refine inRanges_of_subset hsubset (inRanges_iff.mpr ⟨_, List.mem_singleton_self _, ?_⟩)
      dsimp only at hlow hhigh ⊢
      omega
    · exact absurd h (not_inRanges_of_disjoint hdisjoint
        (inRanges_iff.mpr ⟨_, List.mem_singleton_self _, hlow, hhigh⟩))

/-- The first part of what begins an identifier begins one, too. -/
theorem exists_start_of_decompose (h : isIdentifierStart code) :
    ∃ first rest, decompose code = first :: rest ∧ isIdentifierStart first := by
  obtain ⟨⟨-, hjamo, -⟩, -⟩ := sets_agree
  unfold decompose
  cases hhangul : hangulDecomposition? code with
  | some codes =>
    have hfirst : ∃ first rest, codes = first :: rest := by
      simp only [hangulDecomposition?, Option.ite_none_right_eq_some, Option.some.injEq] at hhangul
      obtain ⟨-, rfl⟩ := hhangul
      split
      · exact ⟨_, _, rfl⟩
      · exact ⟨_, _, rfl⟩
    obtain ⟨first, rest, rfl⟩ := hfirst
    refine ⟨first, rest, rfl, ?_⟩
    rw [isIdentifierStart_eq]
    exact inRanges_of_subset hjamo (inRanges_jamo_of_hangul hhangul List.mem_cons_self)
  | none =>
    rw [tableDecomposition?_eq]
    cases hfind : decompositions.find? (Run.covers code) with
    | some run =>
      exact Run.exists_start_of_target (settles_of_mem (List.mem_of_find?_eq_some hfind))
        (List.find?_some hfind) h
    | none => exact ⟨code, [], rfl, h⟩

/-! ## Composition -/

/-- The decomposition of a code point, by the search tree. -/
def found (code : Nat) : List Nat :=
  (hangulDecomposition? code <|> (decompositionTree.find? code).map (Run.target code)).getD [code]

theorem decompose_eq_found (code : Nat) : decompose code = found code := by
  rw [decompose, tableDecomposition?_eq_find?, found]

/-- What a composite is to the code points that form it. -/
structure IsComposite (first second composed : Nat) : Prop where
  decompose : decompose composed = decompose first ++ [second]
  continues : isIdentifierContinue composed
  starts : isIdentifierStart first → isIdentifierStart composed

/-- Whether an entry of the table is as `IsComposite` says. -/
def isCompositeEntry (entry : Nat × Nat × Nat) : Bool :=
  let first := [(entry.1, entry.1)]
  let composed := [(entry.2.2, entry.2.2)]
  isDisjoint first continuations ||
    (found entry.2.2 == found entry.1 ++ [entry.2.1] && isSubset composed continuations &&
      (isDisjoint first starts || isSubset composed starts))

theorem isCompositeEntry_of_mem {entry : Nat × Nat × Nat} (hentry : entry ∈ composites) :
    isCompositeEntry entry := by
  have hfront : (composites.take 320).all isCompositeEntry := by decide +kernel
  have hmiddle : ((composites.drop 320).take 320).all isCompositeEntry := by decide +kernel
  have hback : ((composites.drop 320).drop 320).all isCompositeEntry := by decide +kernel
  rw [← List.take_append_drop 320 composites, List.mem_append,
    ← List.take_append_drop 320 (composites.drop 320), List.mem_append] at hentry
  rcases hentry with hentry | hentry | hentry
  · exact List.all_eq_true.mp hfront entry hentry
  · exact List.all_eq_true.mp hmiddle entry hentry
  · exact List.all_eq_true.mp hback entry hentry

theorem isComposite_of_table {first second composed : Nat}
    (h : tableComposite? first second = some composed) (hfirst : isIdentifierContinue first) :
    IsComposite first second composed := by
  obtain ⟨⟨a, b, composed⟩, hfind, rfl⟩ := Option.map_eq_some_iff.mp h
  have hentry := isCompositeEntry_of_mem (List.mem_of_find?_eq_some hfind)
  have hkeys := List.find?_some hfind
  simp only [Bool.and_eq_true, beq_iff_eq] at hkeys
  obtain ⟨rfl, rfl⟩ := hkeys
  have hself (code : Nat) : inRanges [(code, code)] code :=
    inRanges_iff.mpr ⟨_, List.mem_singleton_self _, Nat.le_refl code, Nat.le_refl code⟩
  rw [isIdentifierContinue_eq] at hfirst
  simp only [isCompositeEntry, Bool.or_eq_true, Bool.and_eq_true, beq_iff_eq] at hentry
  obtain ⟨⟨hfound, hcontinues⟩, hstarts⟩ := hentry.resolve_left fun hdisjoint =>
    not_inRanges_of_disjoint hdisjoint (hself a) hfirst
  refine ⟨?_, ?_, fun hstart => ?_⟩
  · rw [decompose_eq_found, decompose_eq_found, hfound]
  · rw [isIdentifierContinue_eq]
    exact inRanges_of_subset hcontinues (hself _)
  · rw [isIdentifierStart_eq] at hstart ⊢
    exact inRanges_of_subset (hstarts.resolve_left fun hdisjoint =>
      not_inRanges_of_disjoint hdisjoint (hself a) hstart) (hself _)

theorem isIdentifierStart_of_syllable (hlow : 0xAC00 ≤ code) (hhigh : code < 0xAC00 + 11172) :
    isIdentifierStart code := by
  obtain ⟨⟨-, -, hsubset⟩, -⟩ := sets_agree
  rw [isIdentifierStart_eq]
  exact inRanges_of_subset hsubset
    (inRanges_iff.mpr ⟨_, List.mem_singleton_self _, hlow, Nat.le_of_lt_succ hhigh⟩)

/-- A leading consonant and a vowel are the parts of a syllable without a final consonant. -/
theorem decompose_syllable {lead vowel : Nat} (hlead : lead < 19) (hvowel : vowel < 21) :
    decompose (0xAC00 + (lead * 21 + vowel) * 28) = [0x1100 + lead, 0x1161 + vowel] := by
  have hindex : 0xAC00 + (lead * 21 + vowel) * 28 - 0xAC00 = (lead * 21 + vowel) * 28 := by omega
  rw [decompose, hangulDecomposition?, if_pos (by omega), hindex]
  simp only [if_pos (show (lead * 21 + vowel) * 28 % 28 = 0 by omega),
    show (lead * 21 + vowel) * 28 / 588 = lead by omega,
    show (lead * 21 + vowel) * 28 % 588 / 28 = vowel by omega]
  rfl

/-- A final consonant is the last part of its syllable. -/
theorem decompose_syllable_final {lead vowel final : Nat} (hlead : lead < 19) (hvowel : vowel < 21)
    (hfinal : 0 < final) (hmax : final < 28) :
    decompose (0xAC00 + (lead * 21 + vowel) * 28 + final) =
      [0x1100 + lead, 0x1161 + vowel] ++ [0x11A7 + final] := by
  have hindex : 0xAC00 + (lead * 21 + vowel) * 28 + final - 0xAC00 =
      (lead * 21 + vowel) * 28 + final := by omega
  rw [decompose, hangulDecomposition?, if_pos (by omega), hindex]
  simp only [show ((lead * 21 + vowel) * 28 + final) % 28 = final by omega,
    if_neg (show final ≠ 0 by omega),
    show ((lead * 21 + vowel) * 28 + final) / 588 = lead by omega,
    show ((lead * 21 + vowel) * 28 + final) % 588 / 28 = vowel by omega]
  rfl

theorem isComposite_of_hangul {first second composed : Nat}
    (h : hangulComposite? first second = some composed) : IsComposite first second composed := by
  have hsyllable (hin : 0xAC00 ≤ composed ∧ composed < 0xAC00 + 11172)
      (hdecompose : decompose composed = decompose first ++ [second]) :
      IsComposite first second composed := by
    have hstart := isIdentifierStart_of_syllable hin.1 hin.2
    exact ⟨hdecompose, isIdentifierContinue_of_start hstart, fun _ => hstart⟩
  unfold hangulComposite? at h
  split at h
  · next hrange =>
    obtain rfl := Option.some.inj h
    refine hsyllable (by omega) ?_
    have hfirst : decompose first = [first] := by
      refine decompose_of_inRanges_parts (inRanges_parts_of_jamo (inRanges_iff.mpr ?_))
      exact ⟨_, List.mem_cons_self, hrange.1, Nat.le_of_lt_succ hrange.2.1⟩
    rw [decompose_syllable (by omega) (by omega), hfirst, Nat.add_sub_cancel' hrange.1,
      Nat.add_sub_cancel' hrange.2.2.1]
    rfl
  split at h
  · next hrange =>
    obtain rfl := Option.some.inj h
    refine hsyllable (by omega) ?_
    obtain ⟨lead, vowel, hlead, hvowel, rfl⟩ : ∃ lead vowel, lead < 19 ∧ vowel < 21 ∧
        first = 0xAC00 + (lead * 21 + vowel) * 28 :=
      ⟨(first - 0xAC00) / 588, (first - 0xAC00) % 588 / 28, by omega, by omega, by omega⟩
    rw [decompose_syllable_final hlead hvowel (by omega) (by omega),
      decompose_syllable hlead hvowel, Nat.add_sub_cancel' (Nat.le_of_lt hrange.2.2.2.1)]
  · cases h

theorem isComposite_of_composite? {first second composed : Nat}
    (h : composite? first second = some composed) (hfirst : isIdentifierContinue first) :
    IsComposite first second composed := by
  unfold composite? at h
  cases hhangul : hangulComposite? first second with
  | some code =>
    rw [hhangul] at h
    obtain rfl : code = composed := Option.some.inj h
    exact isComposite_of_hangul hhangul
  | none =>
    rw [hhangul] at h
    exact isComposite_of_table h hfirst

end SyntaxTree.Unicode
