import SyntaxTree.Grammar.Literal
import SyntaxTree.Proofs.Token.Place

/-
# The value of an integer literal

The value of an integer literal is a decimal numeral without superfluous zeros, whatever base the
literal is written in.
-/

namespace SyntaxTree

namespace Literal

/-! ## Decimal digits -/

/-- A number below ten. -/
def IsDecimal (d : Int) : Prop := 0 ≤ d ∧ d < 10

theorem isDecimal_of_mem_carryDigits {n : Nat} {d : Int} (h : d ∈ carryDigits n) : IsDecimal d := by
  fun_induction carryDigits n with
  | case1 => simp at h
  | case2 n hn ih =>
    rcases List.mem_cons.mp h with rfl | h
    · exact ⟨by omega, by omega⟩
    · exact ih h

/-- Multiplying decimal digits gives decimal digits. -/
theorem isDecimal_of_mem_multiplyAdd {base carry d : Int} {digits : List Int} (hbase : 0 ≤ base)
    (hcarry : 0 ≤ carry) (hdigits : ∀ d ∈ digits, IsDecimal d)
    (h : d ∈ multiplyAdd base carry digits) : IsDecimal d := by
  induction digits generalizing carry with
  | nil => exact isDecimal_of_mem_carryDigits h
  | cons first digits ih =>
    obtain ⟨hfirst, hdigits⟩ := List.forall_mem_cons.mp hdigits
    have hvalue : 0 ≤ first * base + carry := Int.add_nonneg (Int.mul_nonneg hfirst.1 hbase) hcarry
    rcases List.mem_cons.mp h with rfl | h
    · exact ⟨Int.tmod_nonneg 10 hvalue, Int.tmod_lt_of_pos _ (by decide)⟩
    · exact ih (Int.tdiv_nonneg hvalue (by decide)) hdigits h

theorem digitValue_nonneg {b : Byte} (h : b.isHexDigit) : 0 ≤ digitValue b := by
  unfold digitValue
  split
  · next hdigit =>
    simp only [Byte.isDigit, Bool.and_eq_true, decide_eq_true_eq, UInt8.le_iff_toNat_le,
      UInt8.reduceToNat] at hdigit
    omega
  · next hdigit =>
    simp only [Byte.isHexDigit, Byte.isDigit, Byte.toLower, Byte.isUpper, Bool.or_eq_true,
      Bool.and_eq_true, decide_eq_true_eq, UInt8.le_iff_toNat_le, UInt8.reduceToNat] at h hdigit ⊢
    split
    · rw [UInt8.toNat_add]
      simp only [UInt8.reduceToNat]
      omega
    · omega

theorem isDigit_of_isDecimal {d : Int} (h : IsDecimal d) : Byte.isDigit (48 + d).toNat.toUInt8 := by
  have hdigits : ∀ n : Nat, n < 10 → Byte.isDigit (48 + (n : Int)).toNat.toUInt8 := by decide
  obtain ⟨n, rfl⟩ : ∃ n : Nat, d = n := Int.eq_ofNat_of_zero_le h.1
  exact hdigits n (Int.ofNat_lt.mp h.2)

/-! ## Canonical numerals -/

/-- What is left of digits behind their leading zeros is a canonical numeral. -/
theorem isCanonical_numeralOfDecimal {s : Bytes} (h : ∀ b ∈ s, b.isDigit) :
    Number.IsCanonical (integerNumeral.numeralOfDecimal s) := by
  unfold integerNumeral.numeralOfDecimal
  split
  · exact ⟨rfl, by simp, fun _ => rfl⟩
  · next hne =>
    have hhead := List.head?_dropWhile_not (· = ascii '0') s
    refine ⟨List.all_eq_true.mpr fun b hb => h b ((List.dropWhile_suffix _).mem hb), hne, ?_⟩
    intro hzero
    rw [hzero] at hhead
    exact absurd hhead (by decide)

theorem numeralOfReversed_eq (digits : List Int) :
    numeralOfReversed digits = integerNumeral.numeralOfDecimal
      (digits.reverse.map fun d => (48 + d).toNat.toUInt8) := rfl

theorem isDecimal_zero : ∀ d ∈ [(0 : Int)], IsDecimal d :=
  List.forall_mem_singleton.mpr ⟨by decide, by decide⟩

/-- The conversion of digits into decimal ones keeps these decimal. -/
theorem isDecimal_of_mem_foldl {base : Nat} {digits : Bytes} (h : ∀ b ∈ digits, b.isHexDigit)
    {result : List Int} (hresult : ∀ d ∈ result, IsDecimal d) :
    ∀ d ∈ digits.foldl (fun result b => multiplyAdd base (digitValue b) result) result,
      IsDecimal d := by
  induction digits generalizing result with
  | nil => exact hresult
  | cons b digits ih =>
    obtain ⟨hb, hdigits⟩ := List.forall_mem_cons.mp h
    refine ih hdigits fun d hd => ?_
    exact isDecimal_of_mem_multiplyAdd (Int.natCast_nonneg base) (digitValue_nonneg hb) hresult hd

/-- The decimal numeral of digits in another base is canonical. -/
theorem isCanonical_toDecimal {base : Nat} {digits : Bytes} (h : ∀ b ∈ digits, b.isHexDigit) :
    Number.IsCanonical (toDecimal base digits) := by
  rw [toDecimal, numeralOfReversed_eq]
  refine isCanonical_numeralOfDecimal fun b hb => ?_
  obtain ⟨d, hd, rfl⟩ := List.mem_map.mp hb
  exact isDigit_of_isDecimal
    (isDecimal_of_mem_foldl h isDecimal_zero d (List.mem_reverse.mp hd))

end Literal

/-! ## Integer literals -/

theorem NumberBase.isHexDigit_of_isDigit {base : NumberBase} {b : Byte} (h : base.isDigit b) :
    b.isHexDigit := by
  cases base with
  | binary =>
    rcases Bool.or_eq_true_iff.mp h with h | h <;> rw [eq_of_beq h] <;> rfl
  | octal =>
    simp only [isDigit, Bool.and_eq_true, decide_eq_true_eq, UInt8.le_iff_toNat_le] at h
    simp only [Byte.isHexDigit, Byte.isDigit, Bool.or_eq_true, Bool.and_eq_true,
      decide_eq_true_eq, UInt8.le_iff_toNat_le]
    exact .inl (.inl ⟨h.1, Nat.le_trans h.2 (by decide)⟩)
  | decimal => exact Bool.or_eq_true_iff.mpr (.inl (Bool.or_eq_true_iff.mpr (.inl h)))
  | hexadecimal => exact h

namespace Number

theorem filter_cons_of_ne {d : Byte} (hd : d ≠ Byte.underscore) (t : Bytes) :
    (d :: t).filter (· ≠ Byte.underscore) = d :: t.filter (· ≠ Byte.underscore) :=
  List.filter_cons_of_pos (decide_eq_true hd)

theorem filter_underscore (t : Bytes) :
    (Byte.underscore :: t).filter (· ≠ Byte.underscore) = t.filter (· ≠ Byte.underscore) :=
  List.filter_cons_of_neg (by simp)

/-- A run of digits without its underscores. -/
theorem DigitRun.isDigit_of_mem_filter {base : NumberBase} {t : Bytes} (ht : DigitRun base t) :
    ∀ b ∈ t.filter (· ≠ Byte.underscore), base.isDigit b := by
  induction ht with
  | nil => exact List.forall_mem_nil _
  | @digit d t hd ht ih =>
    rw [filter_cons_of_ne (NumberBase.ne_underscore hd)]
    exact List.forall_mem_cons.mpr ⟨base.isDigit_iff_mem.mpr hd, ih⟩
  | @underscore d t hd ht ih =>
    rw [filter_underscore, filter_cons_of_ne (NumberBase.ne_underscore hd)]
    exact List.forall_mem_cons.mpr ⟨base.isDigit_iff_mem.mpr hd, ih⟩

/-- Digits are left of a run of them without its underscores. -/
theorem DigitRun.filter_ne_nil {base : NumberBase} {t : Bytes} (ht : DigitRun base t)
    (hne : t ≠ []) : t.filter (· ≠ Byte.underscore) ≠ [] := by
  cases ht with
  | nil => exact absurd rfl hne
  | digit hd _ =>
    rw [filter_cons_of_ne (NumberBase.ne_underscore hd)]
    exact List.cons_ne_nil _ _
  | underscore hd _ =>
    rw [filter_underscore, filter_cons_of_ne (NumberBase.ne_underscore hd)]
    exact List.cons_ne_nil _ _

/-- Behind a marker, the value is that of the digits in its base. -/
theorem integerNumeral_marked {base : NumberBase} {marker : Byte} {t : Bytes}
    (hmarker : marker ∈ base.markers) (ht : DigitRun base t) (hne : t ≠ []) :
    Literal.integerNumeral ((ascii '0' :: marker :: t).filter (· ≠ Byte.underscore)) =
      Literal.toDecimal base.radix (t.filter (· ≠ Byte.underscore)) := by
  have hletter : ∀ marker ∈ base.markers, marker ≠ Byte.underscore ∧ marker.isLetter := by
    cases base <;> exact List.forall_iff_forall_mem.mp (by decide)
  obtain ⟨hunderscore, hletter⟩ := hletter marker hmarker
  obtain ⟨d, digits, hdigits⟩ := List.exists_cons_of_ne_nil (ht.filter_ne_nil hne)
  rw [filter_cons_of_ne (by decide), filter_cons_of_ne hunderscore, hdigits,
    Literal.integerNumeral, if_pos ⟨rfl, hletter⟩, base.ofMarker?_eq_some_iff.mpr hmarker]
  rfl

/-- Without a marker, the value is that of the digits without their leading zeros. -/
theorem integerNumeral_digits {t : Bytes} (ht : Digits t) :
    Literal.integerNumeral (t.filter (· ≠ Byte.underscore)) =
      Literal.integerNumeral.numeralOfDecimal (t.filter (· ≠ Byte.underscore)) := by
  obtain ⟨hd, ht⟩ := ht
  have hdigits := (DigitRun.digit hd ht).isDigit_of_mem_filter
  unfold Literal.integerNumeral
  split
  · next zero marker d digits hsplit =>
    have hmarker : marker.isDigit := hdigits marker (by rw [hsplit]; simp)
    refine if_neg ?_
    rintro ⟨-, hletter⟩
    have hstarts : marker.startsWord := by simp [Byte.startsWord, hletter]
    exact absurd hmarker (by simp [Byte.not_isDigit_of_startsWord hstarts])
  · rfl

/-- The value of an integer literal is canonical. -/
theorem IsInteger.isCanonical {t : Bytes} (h : IsInteger t) :
    IsCanonical (Literal.integerNumeral (t.filter (· ≠ Byte.underscore))) := by
  cases h with
  | marked hmarker ht hne =>
    rw [integerNumeral_marked hmarker ht hne]
    exact Literal.isCanonical_toDecimal fun b hb =>
      NumberBase.isHexDigit_of_isDigit (ht.isDigit_of_mem_filter b hb)
  | decimal ht =>
    rw [integerNumeral_digits ht]
    obtain ⟨hd, ht⟩ := ht
    exact Literal.isCanonical_numeralOfDecimal (DigitRun.digit hd ht).isDigit_of_mem_filter

end Number

end SyntaxTree
