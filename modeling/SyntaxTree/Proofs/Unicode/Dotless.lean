import SyntaxTree.Proofs.Text.Utf8
import SyntaxTree.Proofs.Unicode.Normal

/-
# Normal forms without dots

No character of an identifier has a dot in its decomposition, and no two characters form one.  So
the normal form of a text without dots has none.
-/

namespace SyntaxTree

/-! ## Code points and their bytes -/

/-- A code point other than the dot. -/
structure IsDotless (code : Nat) : Prop where
  ne : code ≠ 0x2E
  lt : code < 0x110000

instance (code : Nat) : Decidable (IsDotless code) :=
  decidable_of_iff (code ≠ 0x2E ∧ code < 0x110000) ⟨fun h => ⟨h.1, h.2⟩, fun h => ⟨h.ne, h.lt⟩⟩

namespace Utf8

theorem dot_notMem_encode {code : Nat} (h : IsDotless code) : ascii '.' ∉ encode code := by
  have hdot : (ascii '.').toNat = 0x2E := by decide
  have hne : ∀ {n : Nat}, n < 0x100 → n ≠ 0x2E → ascii '.' ≠ n.toUInt8 := by
    intro n hn hdotless heq
    have htoNat := congrArg UInt8.toNat heq
    rw [hdot, Nat.toUInt8, UInt8.toNat_ofNat'] at htoNat
    omega
  have hcontinuation : ∀ n, ascii '.' ≠ continuation n := by
    intro n heq
    have htoNat := congrArg UInt8.toNat heq
    rw [hdot, toNat_continuation] at htoNat
    omega
  have hlt := h.lt
  unfold encode
  split
  · exact fun hmem => hne (by omega) h.ne (List.mem_singleton.mp hmem)
  split
  · exact fun hmem =>
      (List.mem_cons.mp hmem).elim (hne (by omega) (by omega)) (by simp [hcontinuation])
  split
  · exact fun hmem =>
      (List.mem_cons.mp hmem).elim (hne (by omega) (by omega)) (by simp [hcontinuation])
  · exact fun hmem =>
      (List.mem_cons.mp hmem).elim (hne (by omega) (by omega)) (by simp [hcontinuation])

theorem isDotless_of_decode? {b : Byte} {s rest : Bytes} {code : Nat} (hb : b ≠ ascii '.')
    (h : decode? (b :: s) = some (code, rest)) : IsDotless code := by
  obtain ⟨hs, hscalar⟩ := eq_encode_of_decode? h
  refine ⟨?_, Nat.lt_succ_of_le hscalar.le⟩
  rintro rfl
  rw [encode_ascii (by decide)] at hs
  exact hb (List.cons.inj hs).1

theorem isDotless_of_mem_decodeAll? {s : Bytes} {codes : List Nat} {code : Nat}
    (hs : ascii '.' ∉ s) (h : decodeAll? s = some codes) (hcode : code ∈ codes) :
    IsDotless code := by
  fun_induction decodeAll? s generalizing codes with
  | case1 =>
    obtain rfl := Option.some.inj h
    cases hcode
  | case2 => cases h
  | case3 b tail first rest hdecode _ ih =>
    obtain ⟨more, hmore, rfl⟩ := Option.map_eq_some_iff.mp h
    obtain ⟨hb, htail⟩ := not_or.mp (List.mem_cons.not.mp hs)
    rcases List.mem_cons.mp hcode with rfl | hcode
    · exact isDotless_of_decode? (Ne.symm hb) hdecode
    · exact ih (fun hdot => htail ((suffix_of_decode? hdecode).subset hdot)) hmore hcode

end Utf8

/-! ## The three steps -/

namespace Unicode

/-- The code points of a run of the tables, and those of its decomposition. -/
def runIsDotless (run : Nat × Nat × List Nat) : Bool :=
  match run.2.2 with
  | [] => true
  | first :: rest =>
    (0x2E < first || first + (run.2.1 - run.1) < 0x2E) && first + (run.2.1 - run.1) < 0x110000 &&
      rest.all fun c => decide (IsDotless c)

theorem isDotless_of_mem_table {code c : Nat} {codes : List Nat}
    (h : tableDecomposition? code = some codes) (hc : c ∈ codes) : IsDotless c := by
  have htable : ∀ run ∈ decompositions, runIsDotless run = true := by decide +kernel
  obtain ⟨⟨start, last, target⟩, hfind, rfl⟩ := Option.map_eq_some_iff.mp h
  have hrun := htable _ (List.mem_of_find?_eq_some hfind)
  have hrange := List.find?_some hfind
  simp only [Bool.and_eq_true, decide_eq_true_eq] at hrange
  cases target with
  | nil => cases hc
  | cons first rest =>
    simp only [runIsDotless, Bool.and_eq_true, Bool.or_eq_true, decide_eq_true_eq,
      List.all_eq_true] at hrun
    rcases List.mem_cons.mp hc with rfl | hc
    · exact ⟨by omega, by omega⟩
    · exact hrun.2 c hc

theorem isDotless_of_mem_hangul {code c : Nat} {codes : List Nat}
    (h : hangulDecomposition? code = some codes) (hc : c ∈ codes) : IsDotless c := by
  simp only [hangulDecomposition?, Option.ite_none_right_eq_some, Option.some.injEq] at h
  obtain ⟨hrange, rfl⟩ := h
  have hindex : code - 0xAC00 < 11172 := by omega
  generalize code - 0xAC00 = index at hindex hc
  have hjamo : c = 0x1100 + index / 588 ∨ c = 0x1161 + index % 588 / 28 ∨
      c = 0x11A7 + index % 28 := by
    split at hc
    · simp only [List.mem_cons, List.not_mem_nil, or_false] at hc
      exact hc.imp_right .inl
    · simpa [or_assoc] using hc
  exact ⟨by omega, by omega⟩

theorem isDotless_of_mem_decompose {code c : Nat} (h : IsDotless code) (hc : c ∈ decompose code) :
    IsDotless c := by
  unfold decompose at hc
  cases hhangul : hangulDecomposition? code with
  | some codes =>
    rw [hhangul] at hc
    exact isDotless_of_mem_hangul hhangul hc
  | none =>
    rw [hhangul] at hc
    cases htable : tableDecomposition? code with
    | some codes =>
      rw [htable] at hc
      exact isDotless_of_mem_table htable hc
    | none =>
      rw [htable] at hc
      obtain rfl := List.mem_singleton.mp hc
      exact h

theorem isDotless_of_composite? {first second composed : Nat}
    (h : composite? first second = some composed) : IsDotless composed := by
  have htable : ∀ entry ∈ composites, IsDotless entry.2.2 := by decide +kernel
  unfold composite? at h
  cases hhangul : hangulComposite? first second with
  | some code =>
    rw [hhangul] at h
    obtain rfl : code = composed := Option.some.inj h
    unfold hangulComposite? at hhangul
    split at hhangul
    · obtain rfl := Option.some.inj hhangul
      exact ⟨by omega, by omega⟩
    split at hhangul
    · obtain rfl := Option.some.inj hhangul
      exact ⟨by omega, by omega⟩
    · cases hhangul
  | none =>
    rw [hhangul] at h
    obtain ⟨entry, hfind, rfl⟩ := Option.map_eq_some_iff.mp h
    exact htable entry (List.mem_of_find?_eq_some hfind)

/-- The normal form of a text without dots has none. -/
theorem dot_notMem_normalize {s : Bytes} (h : ascii '.' ∉ s) : ascii '.' ∉ normalize s := by
  unfold normalize
  split
  · next codes hcodes =>
    have hnormal : ∀ c ∈ normalizeCodes codes, IsDotless c := by
      refine forall_mem_compose (fun h _ => isDotless_of_composite? h) fun c hc => ?_
      obtain ⟨code, hcode, hc⟩ := List.mem_flatMap.mp (mem_of_mem_orderMarks hc)
      exact isDotless_of_mem_decompose (Utf8.isDotless_of_mem_decodeAll? h hcodes hcode) hc
    rw [Utf8.encodeAll]
    intro hdot
    obtain ⟨code, hcode, hdot⟩ := List.mem_flatMap.mp hdot
    exact Utf8.dot_notMem_encode (hnormal code hcode) hdot
  · exact h

end Unicode

end SyntaxTree
