import Mathlib.Data.Nat.Digits.Defs
import SyntaxTree.Proofs.Token.Sound

/-
# The number that an integer literal denotes

The value of an integer token is the canonical decimal numeral of the number that the token denotes.
The conversion from another base keeps decimal digits, the last one first; its values and carries
are small whatever the length of the literal is.
-/

namespace SyntaxTree

namespace Number

/-! ## Numbers of literals -/

/-- The value of a digit: its place among the digits, in either case. -/
def place (d : Byte) : Nat := (text "0123456789abcdef").idxOf d.toLower

/-- How much more a digit counts than the same digit behind it. -/
def weight : NumberBase → Nat
  | .binary => 2
  | .octal => 8
  | .decimal => 10
  | .hexadecimal => 16

/-- The conversion multiplies by the weight of a digit. -/
theorem radix_eq_weight (base : NumberBase) : base.radix = weight base := by
  cases base <;> rfl

/-- The number that digits denote in a base.  Underscores do not count. -/
def valueIn (base : NumberBase) (t : Bytes) : Nat :=
  Nat.ofDigits (weight base) ((t.filter (· ≠ Byte.underscore)).reverse.map place)

/-- The number that an integer literal denotes. -/
inductive Denotes : Bytes → Nat → Prop where
  | marked {base : NumberBase} {marker : Byte} {t : Bytes} (hmarker : marker ∈ base.markers)
    (ht : DigitRun base t) (hne : t ≠ []) : Denotes (ascii '0' :: marker :: t) (valueIn base t)
  | decimal {t : Bytes} (ht : Digits t) : Denotes t (valueIn .decimal t)

theorem IsInteger.denotes {t : Bytes} (h : IsInteger t) : ∃ n, Denotes t n := by
  cases h with
  | marked hmarker ht hne => exact ⟨_, .marked hmarker ht hne⟩
  | decimal ht => exact ⟨_, .decimal ht⟩

/-- A letter marks one base. -/
theorem eq_of_mem_markers {base base' : NumberBase} {marker : Byte} (h : marker ∈ base.markers)
    (h' : marker ∈ base'.markers) : base = base' :=
  Option.some.inj
    ((base.ofMarker?_eq_some_iff.mpr h).symm.trans (base'.ofMarker?_eq_some_iff.mpr h'))

/-- What stands behind a marker is none of the digits without one. -/
theorem not_digits_marked {base : NumberBase} {marker : Byte} (hmarker : marker ∈ base.markers)
    (t : Bytes) : ¬ Digits (ascii '0' :: marker :: t) := by
  have hnone : ∀ marker ∈ base.markers, marker ∉ NumberBase.decimal.alphabet ∧
      marker ≠ Byte.underscore := by
    cases base <;> exact List.forall_iff_forall_mem.mp (by decide)
  obtain ⟨hdigit, hunderscore⟩ := hnone marker hmarker
  rintro ⟨-, ht⟩
  cases ht with
  | digit hd _ => exact hdigit hd
  | underscore => exact hunderscore rfl

theorem Denotes.unique {t : Bytes} {m n : Nat} (hm : Denotes t m) (hn : Denotes t n) : m = n := by
  cases hm with
  | marked hmarker ht hne =>
    cases hn with
    | marked hmarker' => rw [eq_of_mem_markers hmarker hmarker']
    | decimal ht' => exact absurd ht' (not_digits_marked hmarker _)
  | decimal ht =>
    cases hn with
    | marked hmarker => exact absurd ht (not_digits_marked hmarker _)
    | decimal => rfl

theorem valueIn_cons (base : NumberBase) {d : Byte} (hd : d ≠ Byte.underscore) (t : Bytes) :
    valueIn base (d :: t) =
      valueIn base t + weight base ^ (t.filter (· ≠ Byte.underscore)).length * place d := by
  rw [valueIn, filter_cons_of_ne hd, List.reverse_cons, List.map_append, Nat.ofDigits_append,
    List.length_map, List.length_reverse]
  simp [valueIn, Nat.ofDigits_singleton]

/-- Leading zeros do not count. -/
theorem valueIn_numeralOfDecimal (t : Bytes) :
    valueIn .decimal (Literal.integerNumeral.numeralOfDecimal t) = valueIn .decimal t := by
  have hdrop : valueIn .decimal (t.dropWhile (· = ascii '0')) = valueIn .decimal t := by
    induction t with
    | nil => rfl
    | cons d t ih =>
      by_cases hd : d = ascii '0'
      · rw [List.dropWhile_cons_of_pos (by simpa using hd), ih, hd, valueIn_cons _ (by decide)]
        rfl
      · rw [List.dropWhile_cons_of_neg (by simpa using hd)]
  unfold Literal.integerNumeral.numeralOfDecimal
  split
  · next hnil =>
    rw [← hdrop, hnil]
    rfl
  · exact hdrop

end Number

namespace Literal

/-! ## The conversion into decimal digits -/

/-- The number of decimal digits, the last one first. -/
def ofReversed : List Int → Int
  | [] => 0
  | d :: digits => d + 10 * ofReversed digits

theorem ofReversed_carryDigits (n : Nat) : ofReversed (carryDigits n) = n := by
  fun_induction carryDigits n with
  | case1 => rfl
  | case2 n hn ih =>
    rw [ofReversed, ih]
    omega

/-- One round of the conversion multiplies by the base and adds the carry. -/
theorem ofReversed_multiplyAdd {base carry : Int} {digits : List Int} (hbase : 0 ≤ base)
    (hcarry : 0 ≤ carry) (hdigits : ∀ d ∈ digits, IsDecimal d) :
    ofReversed (multiplyAdd base carry digits) = base * ofReversed digits + carry := by
  induction digits generalizing carry with
  | nil =>
    rw [multiplyAdd, ofReversed_carryDigits, Int.toNat_of_nonneg hcarry, ofReversed]
    simp
  | cons d digits ih =>
    obtain ⟨hd, hdigits⟩ := List.forall_mem_cons.mp hdigits
    have hvalue : 0 ≤ d * base + carry := Int.add_nonneg (Int.mul_nonneg hd.1 hbase) hcarry
    have hdivision : (d * base + carry).tmod 10 + 10 * (d * base + carry).tdiv 10 =
        d * base + carry := Int.tmod_add_mul_tdiv _ _
    rw [multiplyAdd, ofReversed, ih (Int.tdiv_nonneg hvalue (by decide)) hdigits, ofReversed]
    linarith [mul_add base d (10 * ofReversed digits)]

/-- The value of a digit is the number of its place, one of sixteen. -/
theorem digitValue_place : ∀ b : Byte, b.isHexDigit →
    digitValue b = Number.place b ∧ Number.place b < 16 := by
  refine Byte.forall_of_lt ?_
  decide +kernel

theorem digitValue_eq_place {b : Byte} (h : b.isHexDigit) : digitValue b = Number.place b :=
  (digitValue_place b h).1

/-- The rounds of the conversion, one for each digit, keep the number that the digits denote. -/
theorem ofReversed_foldl {base : Nat} {digits : Bytes} (h : ∀ b ∈ digits, b.isHexDigit) :
    ofReversed (digits.foldl (fun result b => multiplyAdd base (digitValue b) result) [0]) =
      Nat.ofDigits base (digits.reverse.map Number.place) := by
  induction digits using List.reverseRecOn with
  | nil => rfl
  | append_singleton digits b ih =>
    obtain ⟨hdigits, hb⟩ := List.forall_mem_append.mp h
    have hb : b.isHexDigit := hb b (List.mem_singleton_self b)
    rw [List.foldl_concat, ofReversed_multiplyAdd (Int.natCast_nonneg base) (digitValue_nonneg hb)
      (isDecimal_of_mem_foldl hdigits isDecimal_zero), ih hdigits, digitValue_eq_place hb,
      List.reverse_concat, List.map_cons, Nat.ofDigits_cons]
    push_cast
    exact add_comm _ _

theorem place_of_isDecimal {d : Int} (h : IsDecimal d) :
    (Number.place (48 + d).toNat.toUInt8 : Int) = d := by
  have hplace : ∀ n : Nat, n < 10 → Number.place (48 + (n : Int)).toNat.toUInt8 = n := by decide
  obtain ⟨n, rfl⟩ : ∃ n : Nat, d = n := Int.eq_ofNat_of_zero_le h.1
  rw [hplace n (Int.ofNat_lt.mp h.2)]

/-- The numeral of decimal digits denotes their number. -/
theorem valueIn_numeralOfReversed {digits : List Int} (h : ∀ d ∈ digits, IsDecimal d) :
    (Number.valueIn .decimal (numeralOfReversed digits) : Int) = ofReversed digits := by
  have hplain : (digits.reverse.map fun d => (48 + d).toNat.toUInt8).filter (· ≠ Byte.underscore) =
      digits.reverse.map fun d => (48 + d).toNat.toUInt8 := by
    refine List.filter_eq_self.mpr fun b hb => ?_
    obtain ⟨d, hd, rfl⟩ := List.mem_map.mp hb
    exact decide_eq_true
      (Byte.ne_of_class (isDigit_of_isDecimal (h d (List.mem_reverse.mp hd))) rfl)
  rw [numeralOfReversed_eq, Number.valueIn_numeralOfDecimal, Number.valueIn, hplain,
    ← List.map_reverse, List.reverse_reverse, List.map_map]
  clear hplain
  induction digits with
  | nil => rfl
  | cons d digits ih =>
    obtain ⟨hd, hdigits⟩ := List.forall_mem_cons.mp h
    rw [List.map_cons, Nat.ofDigits_cons, ofReversed, ← ih hdigits]
    push_cast
    rw [Function.comp_apply, place_of_isDecimal hd]
    rfl

/-- The decimal numeral of digits in another base denotes the same number. -/
theorem valueIn_toDecimal {base : Nat} {digits : Bytes} (h : ∀ b ∈ digits, b.isHexDigit) :
    Number.valueIn .decimal (toDecimal base digits) =
      Nat.ofDigits base (digits.reverse.map Number.place) := by
  have hvalue : (Number.valueIn .decimal (toDecimal base digits) : Int) =
      ofReversed (digits.foldl (fun result b => multiplyAdd base (digitValue b) result) [0]) :=
    valueIn_numeralOfReversed (isDecimal_of_mem_foldl h isDecimal_zero)
  rw [ofReversed_foldl h] at hvalue
  exact_mod_cast hvalue

/-! ## The numbers on the way -/

/-- The decimal digits of a number, the last one first, and every carry on the way to them. -/
def tracedCarryDigits (n : Nat) : List Int × List Int :=
  if n = 0 then ([], [0])
  else
    let (digits, seen) := tracedCarryDigits (n / 10)
    ((n % 10 : Nat) :: digits, (n : Int) :: seen)

/-- One round of the conversion, and every value and carry on the way. -/
def tracedMultiplyAdd (base : Int) : (carry : Int) → List Int → List Int × List Int
  | carry, [] => tracedCarryDigits carry.toNat
  | carry, d :: digits =>
    let value := d * base + carry
    let (result, seen) := tracedMultiplyAdd base (value.tdiv 10) digits
    (value.tmod 10 :: result, carry :: value :: seen)

/-- The conversion into decimal digits, and every value and carry on the way. -/
def tracedConversion (base : Int) (digits : Bytes) : List Int × List Int :=
  digits.foldl (fun (result, seen) b =>
    let (result, more) := tracedMultiplyAdd base (digitValue b) result
    (result, seen ++ more)) ([0], [])

theorem tracedCarryDigits_fst (n : Nat) : (tracedCarryDigits n).1 = carryDigits n := by
  fun_induction carryDigits n with
  | case1 => rw [tracedCarryDigits, if_pos rfl]
  | case2 n hn ih =>
    rw [tracedCarryDigits, if_neg hn]
    exact congrArg _ ih

theorem tracedMultiplyAdd_fst (base carry : Int) (digits : List Int) :
    (tracedMultiplyAdd base carry digits).1 = multiplyAdd base carry digits := by
  induction digits generalizing carry with
  | nil => exact tracedCarryDigits_fst _
  | cons d digits ih => exact congrArg _ (ih _)

theorem tracedConversion_concat (base : Int) (digits : Bytes) (b : Byte) :
    tracedConversion base (digits ++ [b]) =
      ((tracedMultiplyAdd base (digitValue b) (tracedConversion base digits).1).1,
        (tracedConversion base digits).2 ++
          (tracedMultiplyAdd base (digitValue b) (tracedConversion base digits).1).2) := by
  rw [tracedConversion, List.foldl_concat]
  rfl

/-- The digits that come with the trace are those of the conversion. -/
theorem tracedConversion_fst (base : Int) (digits : Bytes) :
    (tracedConversion base digits).1 =
      digits.foldl (fun result b => multiplyAdd base (digitValue b) result) [0] := by
  induction digits using List.reverseRecOn with
  | nil => rfl
  | append_singleton digits b ih =>
    rw [tracedConversion_concat, List.foldl_concat, tracedMultiplyAdd_fst, ih]

theorem le_of_mem_tracedCarryDigits {n : Nat} {v : Int} (h : v ∈ (tracedCarryDigits n).2) :
    0 ≤ v ∧ v ≤ n := by
  fun_induction tracedCarryDigits n with
  | case1 => simp_all
  | case2 n hn digits seen hseen ih =>
    rcases List.mem_cons.mp h with rfl | h
    · exact ⟨Int.natCast_nonneg n, Int.le_refl _⟩
    · have := ih (by rw [hseen]; exact h)
      omega

/-- In one round, a carry below sixteen keeps the values below 160, and the next carry is again
below sixteen. -/
theorem lt_of_mem_tracedMultiplyAdd {base carry v : Int} {digits : List Int} (hbase : 0 ≤ base)
    (hle : base ≤ 16) (hcarry : 0 ≤ carry) (hlt : carry < 16) (hdigits : ∀ d ∈ digits, IsDecimal d)
    (h : v ∈ (tracedMultiplyAdd base carry digits).2) : 0 ≤ v ∧ v < 160 := by
  induction digits generalizing carry with
  | nil =>
    have := le_of_mem_tracedCarryDigits h
    omega
  | cons d digits ih =>
    obtain ⟨hd, hdigits⟩ := List.forall_mem_cons.mp hdigits
    have hproduct : 0 ≤ d * base := Int.mul_nonneg hd.1 hbase
    have hvalue : d * base + carry < 160 := by nlinarith [hd.1, hd.2]
    simp only [tracedMultiplyAdd, List.mem_cons] at h
    rcases h with rfl | rfl | h
    · omega
    · omega
    · refine ih ?_ ?_ hdigits h
      · exact Int.tdiv_nonneg (by omega) (by decide)
      · rw [Int.tdiv_eq_ediv_of_nonneg (by omega)]
        omega

theorem digitValue_lt {b : Byte} (h : b.isHexDigit) : digitValue b < 16 := by
  rw [digitValue_eq_place h]
  exact_mod_cast (digitValue_place b h).2

/-- All values and carries of the conversion are below 160, whatever the number of digits is. -/
theorem lt_of_mem_tracedConversion {base : Nat} (hle : base ≤ 16) {digits : Bytes}
    (h : ∀ b ∈ digits, b.isHexDigit) : ∀ v ∈ (tracedConversion base digits).2, 0 ≤ v ∧ v < 160 := by
  induction digits using List.reverseRecOn with
  | nil => exact List.forall_mem_nil _
  | append_singleton digits b ih =>
    obtain ⟨hdigits, hb⟩ := List.forall_mem_append.mp h
    have hb : b.isHexDigit := hb b (List.mem_singleton_self b)
    rw [tracedConversion_concat, tracedConversion_fst]
    refine List.forall_mem_append.mpr ⟨ih hdigits, fun v hv => ?_⟩
    exact lt_of_mem_tracedMultiplyAdd (Int.natCast_nonneg base) (by exact_mod_cast hle)
      (digitValue_nonneg hb) (digitValue_lt hb)
      (isDecimal_of_mem_foldl hdigits isDecimal_zero) hv

end Literal

/-! ## Integer tokens -/

namespace Number

theorem DigitRun.isHexDigit_of_mem_filter {base : NumberBase} {t : Bytes} (ht : DigitRun base t) :
    ∀ b ∈ t.filter (· ≠ Byte.underscore), b.isHexDigit :=
  fun b hb => NumberBase.isHexDigit_of_isDigit (ht.isDigit_of_mem_filter b hb)

/-- The numeral of an integer literal denotes the number that the literal denotes. -/
theorem Denotes.valueIn_integerNumeral {t : Bytes} {n : Nat} (h : Denotes t n) :
    valueIn .decimal (Literal.integerNumeral (t.filter (· ≠ Byte.underscore))) = n := by
  cases h with
  | marked hmarker ht hne =>
    rw [integerNumeral_marked hmarker ht hne,
      Literal.valueIn_toDecimal ht.isHexDigit_of_mem_filter, radix_eq_weight]
    rfl
  | decimal ht =>
    rw [integerNumeral_digits ht, valueIn_numeralOfDecimal, valueIn, List.filter_filter]
    simp [valueIn]

/-- A canonical numeral other than zero has the digits of its number. -/
theorem IsCanonical.digits_valueIn {s : Bytes} (h : IsCanonical s) (hzero : s ≠ [ascii '0']) :
    Nat.digits 10 (valueIn .decimal s) = s.reverse.map place := by
  obtain ⟨hdigits, hne, hhead⟩ := h
  have hplace : ∀ b : Byte, b.isDigit → place b < 10 ∧ (place b = 0 → b = ascii '0') :=
    Byte.forall_of_lt (by decide +kernel)
  have hdigit : ∀ b ∈ s, b.isDigit := List.all_eq_true.mp hdigits
  have hplain : s.filter (· ≠ Byte.underscore) = s :=
    List.filter_eq_self.mpr fun b hb => decide_eq_true (Byte.ne_of_class (hdigit b hb) rfl)
  rw [valueIn, hplain]
  refine Nat.digits_ofDigits 10 (by decide) _ (fun d hd => ?_) fun hlast hd => ?_
  · obtain ⟨b, hb, rfl⟩ := List.mem_map.mp hd
    exact (hplace b (hdigit b (List.mem_reverse.mp hb))).1
  · obtain ⟨b, t, rfl⟩ := List.exists_cons_of_ne_nil hne
    have hb : place b = 0 := by simpa using hd
    exact hzero (hhead (congrArg some ((hplace b (hdigit b List.mem_cons_self)).2 hb)))

/-- Only zero has the value zero. -/
theorem IsCanonical.valueIn_ne_zero {s : Bytes} (h : IsCanonical s) (hzero : s ≠ [ascii '0']) :
    valueIn .decimal s ≠ 0 := by
  intro hvalue
  have hdigits := h.digits_valueIn hzero
  rw [hvalue, Nat.digits_zero] at hdigits
  exact h.2.1 (List.reverse_eq_nil_iff.mp (List.map_eq_nil_iff.mp hdigits.symm))

/-- Canonical numerals of one number are the same. -/
theorem IsCanonical.eq_of_valueIn_eq {s t : Bytes} (hs : IsCanonical s) (ht : IsCanonical t)
    (h : valueIn .decimal s = valueIn .decimal t) : s = t := by
  by_cases hs' : s = [ascii '0']
  · subst hs'
    by_contra ht'
    exact ht.valueIn_ne_zero (Ne.symm ht') h.symm
  by_cases ht' : t = [ascii '0']
  · subst ht'
    exact absurd h (hs.valueIn_ne_zero hs')
  have hplace : ∀ b : Byte, b.isDigit → (48 + place b).toUInt8 = b :=
    Byte.forall_of_lt (by decide +kernel)
  have hback {u : Bytes} (hu : IsCanonical u) :
      (u.reverse.map place).map (fun n => (48 + n).toUInt8) = u.reverse := by
    rw [List.map_map]
    refine (List.map_congr_left fun b hb => ?_).trans (List.map_id _)
    exact hplace b (List.all_eq_true.mp hu.1 b (List.mem_reverse.mp hb))
  refine List.reverse_injective ?_
  rw [← hback hs, ← hback ht, ← hs.digits_valueIn hs', h, ht.digits_valueIn ht']

/-- The numeral that a tree has for an integer: the canonical one of the number that its text
denotes.  A text that is no integer literal denotes none, and has the numeral that is read from
it. -/
inductive HasNumeral : Bytes → Bytes → Prop where
  | literal {t numeral : Bytes} (ht : IsInteger t) (hcanonical : IsCanonical numeral)
    (h : Denotes t (valueIn .decimal numeral)) : HasNumeral t numeral
  | other {t : Bytes} (h : ¬ IsInteger t) :
    HasNumeral t (Literal.integerNumeral (t.filter (· ≠ Byte.underscore)))

/-- The numeral of an integer is what its text is read as. -/
theorem hasNumeral_iff {t numeral : Bytes} :
    HasNumeral t numeral ↔ numeral = Literal.integerNumeral (t.filter (· ≠ Byte.underscore)) := by
  constructor
  · intro h
    cases h with
    | literal ht hcanonical h =>
      exact hcanonical.eq_of_valueIn_eq ht.isCanonical h.valueIn_integerNumeral.symm
    | other => rfl
  · rintro rfl
    by_cases ht : IsInteger t
    · obtain ⟨n, hn⟩ := ht.denotes
      refine .literal ht ht.isCanonical ?_
      rw [hn.valueIn_integerNumeral]
      exact hn
    · exact .other ht

/-- **Integer tokens keep their value.**  An integer token of a source denotes one number, and its
value is the canonical decimal numeral of this number.  Behind the marker of a base, the numeral
comes from the conversion into decimal digits, all values and carries of which are below 160. -/
theorem number_denotes_same {source : Bytes} {tokens : List Token} {token : Token}
    (h : tokenize false source = .ok tokens) (htoken : token ∈ tokens)
    (hkind : token.kind = .integer) :
    ∃ numeral n, Literal.number token = .integer numeral ∧ IsCanonical numeral ∧
      valueIn .decimal numeral = n ∧ Denotes token.text n ∧ (∀ m, Denotes token.text m → m = n) ∧
      ∀ (base : NumberBase) (marker : Byte) (t : Bytes), marker ∈ base.markers →
        token.text = ascii '0' :: marker :: t →
        let conversion := Literal.tracedConversion base.radix (t.filter (· ≠ Byte.underscore))
        numeral = Literal.numeralOfReversed conversion.1 ∧
          ∀ v ∈ conversion.2, 0 ≤ v ∧ v < 160 := by
  have hinteger : IsInteger token.text :=
    ((areSound_of_tokenize h).1.isSound token htoken).isInteger hkind
  obtain ⟨n, hn⟩ := hinteger.denotes
  refine ⟨Literal.integerNumeral (token.text.filter (· ≠ Byte.underscore)), n, ?_,
    hinteger.isCanonical, hn.valueIn_integerNumeral, hn, fun m hm => hm.unique hn, ?_⟩
  · rw [Literal.number, hkind]
  · intro base marker t hmarker ht conversion
    rw [ht] at hinteger ⊢
    obtain ⟨hrun, hne⟩ : DigitRun base t ∧ t ≠ [] := by
      cases hinteger with
      | marked hmarker' hrun hne => exact ⟨eq_of_mem_markers hmarker' hmarker ▸ hrun, hne⟩
      | decimal hdigits => exact absurd hdigits (not_digits_marked hmarker t)
    refine ⟨?_, Literal.lt_of_mem_tracedConversion ?_ hrun.isHexDigit_of_mem_filter⟩
    · rw [integerNumeral_marked hmarker hrun hne, Literal.toDecimal, ← Literal.tracedConversion_fst]
    · cases base <;> decide

/-- A hexadecimal literal with a capital marker, an underscore and digits in both cases. -/
theorem number_denotes_same_hexadecimal :
    ∃ tokens token, tokenize false (text "0X_1fF") = .ok tokens ∧ token ∈ tokens ∧
      token.kind = .integer ∧ token.text = text "0X_1fF" ∧ Denotes (text "0X_1fF") 511 ∧
        Literal.number token = .integer (text "511") ∧ IsCanonical (text "511") ∧
        valueIn .decimal (text "511") = 511 := by
  have htokens : tokenize false (text "0X_1fF") =
      .ok [⟨.integer, text "0X_1fF", ⟨1, 1⟩, ⟨1, 7⟩⟩, .empty .newline (text "\n") ⟨1, 7⟩,
        .empty .endOfInput [] ⟨1, 7⟩] := by decide +kernel
  obtain ⟨numeral, n, hnumber, hcanonical, hvalue, hdenotes, hunique, -⟩ :=
    number_denotes_same htokens List.mem_cons_self rfl
  have hmarker : ascii 'X' ∈ NumberBase.hexadecimal.markers := by decide
  have hdigits : DigitRun .hexadecimal (text "_1fF") :=
    .underscore (by decide) (.digit (by decide) (.digit (by decide) .nil))
  have hliteral : Denotes (text "0X_1fF") 511 :=
    have hvalue : valueIn .hexadecimal (text "_1fF") = 511 := by decide +kernel
    hvalue ▸ .marked hmarker hdigits (by decide)
  obtain rfl := hunique 511 hliteral
  obtain rfl : text "511" = numeral := by
    refine Constant.integer.inj (Eq.trans ?_ hnumber)
    decide +kernel
  exact ⟨_, _, htokens, List.mem_cons_self, rfl, rfl, hliteral, hnumber, hcanonical, hvalue⟩

end Number

end SyntaxTree
