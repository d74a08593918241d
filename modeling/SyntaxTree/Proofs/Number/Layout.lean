import Mathlib.Data.Rat.Defs
import Mathlib.Tactic.FieldSimp
import SyntaxTree.Number.Format
import SyntaxTree.Proofs.Dump.Label
import SyntaxTree.Proofs.Number.Value
import SyntaxTree.Proofs.Token.Line

/-
# The layout of written numbers

A floating-point literal denotes a rational number: its digits, with the point taken out, times a
power of ten.  Whatever the layout is that a number is written in, the literal denotes the digits
that were found for the number at the place that was found for the first of them.
-/

namespace SyntaxTree

namespace Number

/-! ## The number that a literal denotes -/

/-- The power of ten that an exponent part denotes; none stands for zero. -/
def powerOf : Bytes → Int
  | [] => 0
  | _ :: s =>
    let magnitude : Int := valueIn .decimal (unsigned s)
    if s.head? = some (ascii '-') then -magnitude else magnitude

/-- The rational number that decimal digits with an optional point and exponent denote. -/
def decimalValue (t : Bytes) : ℚ :=
  let mantissa := t.takeWhile (· ∉ text "eE")
  let whole := mantissa.takeWhile (· ≠ ascii '.')
  let fraction := (mantissa.dropWhile (· ≠ ascii '.')).tail
  valueIn .decimal (whole ++ fraction) *
    10 ^ (powerOf (t.dropWhile (· ∉ text "eE")) -
      (fraction.filter (· ≠ Byte.underscore)).length)

/-- An exponent part, or nothing. -/
def IsPower (power : Bytes) : Prop := ∀ b ∈ power.head?, b ∈ text "eE"

theorem isPower_nil : IsPower [] := nofun

theorem not_mem_of_isDigit {b : Byte} (h : b.isDigit) : b ∉ text "eE" := by
  intro hletter
  have hnot : (text "eE").all fun c => !c.isDigit := rfl
  simpa [h] using List.all_eq_true.mp hnot b hletter

theorem filter_of_digits {t : Bytes} (h : ∀ b ∈ t, b.isDigit) :
    t.filter (· ≠ Byte.underscore) = t :=
  List.filter_eq_self.mpr fun b hb => decide_eq_true (Byte.ne_of_class (h b hb) rfl)

/-- The exponent part of a literal is what its first letter begins. -/
theorem takeWhile_append_power {mantissa power : Bytes} (hmantissa : ∀ b ∈ mantissa, b ∉ text "eE")
    (hpower : IsPower power) :
    (mantissa ++ power).takeWhile (· ∉ text "eE") = mantissa ∧
      (mantissa ++ power).dropWhile (· ∉ text "eE") = power :=
  Bytes.takeWhile_append_stop (fun b hb => decide_eq_true (hmantissa b hb))
    fun b hb => decide_eq_false (not_not.mpr (hpower b hb))

/-- The digits around a point denote what they do without it, each one behind it a tenth. -/
theorem decimalValue_point {whole fraction power : Bytes} (hwhole : ∀ b ∈ whole, b.isDigit)
    (hfraction : ∀ b ∈ fraction, b.isDigit) (hpower : IsPower power) :
    decimalValue (whole ++ ascii '.' :: fraction ++ power) =
      valueIn .decimal (whole ++ fraction) * 10 ^ (powerOf power - fraction.length) := by
  have hmantissa : ∀ b ∈ whole ++ ascii '.' :: fraction, b ∉ text "eE" := by
    refine List.forall_mem_append.mpr ⟨fun b hb => not_mem_of_isDigit (hwhole b hb), ?_⟩
    exact List.forall_mem_cons.mpr ⟨by decide, fun b hb => not_mem_of_isDigit (hfraction b hb)⟩
  obtain ⟨htake, hdrop⟩ := takeWhile_append_power hmantissa hpower
  have hpoint : ∀ b ∈ whole, decide (b ≠ ascii '.') = true :=
    fun b hb => decide_eq_true (Byte.ne_of_class (hwhole b hb) rfl)
  obtain ⟨htakePoint, hdropPoint⟩ :=
    Bytes.takeWhile_append_stop (t := ascii '.' :: fraction) hpoint fun b hb =>
      Option.some.inj hb ▸ rfl
  rw [decimalValue]
  simp only [htake, hdrop, htakePoint, hdropPoint, List.tail_cons, filter_of_digits hfraction]

/-- Digits without a point denote their number times the power of ten. -/
theorem decimalValue_whole {whole power : Bytes} (hwhole : ∀ b ∈ whole, b.isDigit)
    (hpower : IsPower power) :
    decimalValue (whole ++ power) = valueIn .decimal whole * 10 ^ powerOf power := by
  obtain ⟨htake, hdrop⟩ :=
    takeWhile_append_power (fun b hb => not_mem_of_isDigit (hwhole b hb)) hpower
  have hpoint : ∀ b ∈ whole, decide (b ≠ ascii '.') = true :=
    fun b hb => decide_eq_true (Byte.ne_of_class (hwhole b hb) rfl)
  obtain ⟨htakePoint, hdropPoint⟩ :=
    Bytes.takeWhile_append_stop (t := []) hpoint fun b hb => nomatch hb
  rw [List.append_nil] at htakePoint hdropPoint
  rw [decimalValue]
  simp only [htake, hdrop, htakePoint, hdropPoint, List.tail_nil, List.append_nil, List.filter_nil,
    List.length_nil, Nat.cast_zero, sub_zero]

/-! ## Digits and zeros -/

theorem valueIn_append (base : NumberBase) (s t : Bytes) :
    valueIn base (s ++ t) =
      valueIn base t + weight base ^ (t.filter (· ≠ Byte.underscore)).length * valueIn base s := by
  rw [valueIn, List.filter_append, List.reverse_append, List.map_append, Nat.ofDigits_append,
    List.length_map, List.length_reverse]
  rfl

theorem valueIn_zeros (k : Nat) : valueIn .decimal (List.replicate k (ascii '0')) = 0 := by
  induction k with
  | zero => rfl
  | succ k ih =>
    rw [List.replicate_succ, valueIn_cons _ (by decide), ih]
    rfl

theorem isDigit_of_mem_zero : ∀ b ∈ text "0", b.isDigit := List.forall_mem_singleton.mpr rfl

theorem isDigit_of_mem_zeros {k : Nat} : ∀ b ∈ List.replicate k (ascii '0'), b.isDigit := by
  intro b hb
  rw [List.eq_of_mem_replicate hb]
  rfl

/-- Zeros behind digits are powers of ten. -/
theorem valueIn_append_zeros (t : Bytes) (k : Nat) :
    valueIn .decimal (t ++ List.replicate k (ascii '0')) = valueIn .decimal t * 10 ^ k := by
  rw [valueIn_append, valueIn_zeros, filter_of_digits isDigit_of_mem_zeros, List.length_replicate,
    Nat.zero_add, Nat.mul_comm]
  rfl

/-- Zeros in front of digits do not count. -/
theorem valueIn_zeros_append (k : Nat) (t : Bytes) :
    valueIn .decimal (List.replicate k (ascii '0') ++ t) = valueIn .decimal t := by
  rw [valueIn_append, valueIn_zeros, Nat.mul_zero, Nat.add_zero]

/-- A numeral denotes the number it was written for. -/
theorem valueIn_ofNat (n : Nat) : valueIn .decimal (Bytes.ofNat n) = n := by
  have hdigit : ∀ m < 10, valueIn .decimal [Byte.digit m] = m := by decide
  induction n using Nat.strongRecOn with
  | ind n ih =>
    rw [Bytes.ofNat]
    split
    · next hsmall => exact hdigit n hsmall
    · next hlarge =>
      have hlast := hdigit (n % 10) (Nat.mod_lt n (by decide))
      have hcount : ([Byte.digit (n % 10)].filter (· ≠ Byte.underscore)).length = 1 := by
        have hall : ∀ m < 10, ([Byte.digit m].filter (· ≠ Byte.underscore)).length = 1 := by decide
        exact hall _ (Nat.mod_lt n (by decide))
      rw [valueIn_append, hlast, hcount, ih (n / 10) (by omega), Nat.pow_one]
      show n % 10 + 10 * (n / 10) = n
      exact Nat.mod_add_div n 10

theorem ofNat_ne_nil (n : Nat) : Bytes.ofNat n ≠ [] := by
  rw [Bytes.ofNat]
  split
  · exact List.cons_ne_nil _ _
  · exact List.append_ne_nil_of_right_ne_nil _ (List.cons_ne_nil _ _)

theorem digits_of_isDigit {t : Bytes} (hne : t ≠ []) (h : ∀ b ∈ t, b.isDigit) : Digits t := by
  obtain ⟨d, t, rfl⟩ := List.exists_cons_of_ne_nil hne
  obtain ⟨hd, ht⟩ := List.forall_mem_cons.mp h
  exact .mk (NumberBase.decimal.isDigit_iff_mem.mp hd) (digitRun_of_all (List.all_eq_true.mpr ht))

/-! ## Written literals -/

/-- Digits around a point, at least one on either side. -/
structure IsPointed (t whole fraction : Bytes) : Prop where
  eq : t = whole ++ ascii '.' :: fraction
  whole_ne : whole ≠ []
  fraction_ne : fraction ≠ []
  whole : ∀ b ∈ whole, b.isDigit
  fraction : ∀ b ∈ fraction, b.isDigit

namespace IsPointed

variable {t whole fraction : Bytes} (h : IsPointed t whole fraction)

include h

theorem isFloat : IsFloat t := by
  have hfloat : IsFloat (whole ++ ascii '.' :: (fraction ++ [])) :=
    .point (.inr (digits_of_isDigit h.whole_ne h.whole))
      (.inr (digits_of_isDigit h.fraction_ne h.fraction)) (.inl h.whole_ne) (.inl rfl)
  rwa [List.append_nil, ← h.eq] at hfloat

theorem decimalValue_eq :
    decimalValue t = valueIn .decimal (whole ++ fraction) * 10 ^ (-fraction.length : Int) := by
  have hvalue := decimalValue_point h.whole h.fraction isPower_nil
  rwa [List.append_nil, ← h.eq, show powerOf [] = 0 from rfl, zero_sub] at hvalue

/-- Without a point and a zero behind it, a literal denotes the same number. -/
theorem of_suffix (hzero : text ".0" <:+ t) :
    t.dropLast.dropLast = whole ∧ decimalValue whole = decimalValue t := by
  have hfraction : fraction = text "0" := by
    have hlength : (text ".0").length ≤ (ascii '.' :: fraction).length :=
      Nat.succ_le_succ (List.length_pos_iff.mpr h.fraction_ne)
    have hsuffix : ascii '.' :: fraction <:+ t := h.eq ▸ List.suffix_append _ _
    rcases List.suffix_cons_iff.mp (List.suffix_of_suffix_length_le hzero hsuffix hlength) with
      heq | hinner
    · exact (List.cons.inj heq).2.symm
    · -- A point within the fraction would be one of its digits.
      exact absurd (h.fraction _ (hinner.mem List.mem_cons_self)) (by decide)
  have hwhole : decimalValue whole = valueIn .decimal whole := by
    have hvalue := decimalValue_whole h.whole isPower_nil
    rwa [List.append_nil, show powerOf [] = 0 from rfl, zpow_zero, mul_one] at hvalue
  have hten : valueIn .decimal (whole ++ text "0") = valueIn .decimal whole * 10 ^ 1 :=
    valueIn_append_zeros whole 1
  refine ⟨?_, ?_⟩
  · rw [h.eq, hfraction]
    simp [text]
  · rw [hwhole, h.decimalValue_eq, hfraction, hten, show (text "0").length = 1 from rfl]
    push_cast
    field_simp

end IsPointed

end Number

/-! ## Layouts -/

namespace FloatFormat

open Number

/-- The digits of a number and the place of the first of them: zero has a zero in the first place
in front of the point, and other numbers have the fewest digits that read back. -/
def shortestDigits (x : Binary64) : Bytes × Int :=
  match x.magnitude with
  | .finite 0 _ => (text "0", 0)
  | .finite significand exponent =>
    let d := Decimal.shortest ⟨x.bits &&& 0x7FFFFFFFFFFFFFFF⟩ (.ofPower significand 2 exponent)
    let digits := Bytes.ofNat d.digits
    (Decimal.trimZeros digits, d.exponent + digits.length - 1)
  | _ => ([], 0)

/-- The layout of digits in source text. -/
def layout (digits : Bytes) (exponent : Int) : Bytes :=
  if -4 ≤ exponent ∧ exponent < 16 then source.positional digits exponent
  else scientific digits exponent

/-- A finite number without a sign is written as the layout of its digits. -/
theorem write_eq_layout {x : Binary64} (hsign : x.isNegative = false) {significand : Nat}
    {exponent : Int} (hfinite : x.magnitude = .finite significand exponent) :
    source.write x = layout (shortestDigits x).1 (shortestDigits x).2 := by
  cases significand with
  | zero =>
    simp only [write, shortestDigits, hsign, hfinite, Bool.false_eq_true, if_false, List.nil_append]
    rfl
  | succ significand =>
    simp only [write, shortestDigits, hsign, hfinite, Bool.false_eq_true, if_false, List.nil_append]
    rfl

/-- The digits of a number are decimal digits, at least one. -/
theorem shortestDigits_isDigit {x : Binary64} {significand : Nat} {exponent : Int}
    (hfinite : x.magnitude = .finite significand exponent) :
    (shortestDigits x).1 ≠ [] ∧ ∀ b ∈ (shortestDigits x).1, b.isDigit := by
  have htrimmed : ∀ n, Decimal.trimZeros (Bytes.ofNat n) ≠ [] ∧
      ∀ b ∈ Decimal.trimZeros (Bytes.ofNat n), b.isDigit := by
    intro n
    have hdigits := isDigit_of_mem_ofNat n
    obtain ⟨first, rest, hfirst⟩ := List.exists_cons_of_ne_nil (ofNat_ne_nil n)
    rw [hfirst] at hdigits ⊢
    refine ⟨List.cons_ne_nil _ _, fun b hb => ?_⟩
    rcases List.mem_cons.mp hb with rfl | hb
    · exact hdigits b List.mem_cons_self
    · have hrest := (List.dropWhile_suffix _).mem (List.mem_reverse.mp hb)
      exact hdigits b (List.mem_cons_of_mem _ (List.mem_reverse.mp hrest))
  cases significand with
  | zero =>
    simp only [shortestDigits, hfinite]
    exact ⟨List.cons_ne_nil _ _, isDigit_of_mem_zero⟩
  | succ significand =>
    simp only [shortestDigits, hfinite]
    exact htrimmed _

/-- The value of digits of which the first stands at a place. -/
def placed (digits : Bytes) (exponent : Int) : ℚ :=
  valueIn .decimal digits * 10 ^ (exponent - digits.length + 1)

variable {digits : Bytes} {exponent : Int}

/-- A positional layout has a point and denotes the digits at their place. -/
theorem exists_positional (exponent : Int) (hne : digits ≠ []) (hdigits : ∀ b ∈ digits, b.isDigit) :
    ∃ whole fraction, IsPointed (source.positional digits exponent) whole fraction ∧
      decimalValue (source.positional digits exponent) = placed digits exponent := by
  have hzeros : ∀ k, ∀ b ∈ List.replicate k (ascii '0'), b.isDigit := fun _ => isDigit_of_mem_zeros
  rw [positional]
  split
  · next hnegative =>
    -- Zeros behind the point come first.
    have hpointed : IsPointed
        (text "0." ++ List.replicate (-exponent - 1).toNat (ascii '0') ++ digits) (text "0")
        (List.replicate (-exponent - 1).toNat (ascii '0') ++ digits) :=
      ⟨rfl, by decide, by simp [hne], isDigit_of_mem_zero,
        List.forall_mem_append.mpr ⟨hzeros _, hdigits⟩⟩
    refine ⟨_, _, hpointed, ?_⟩
    have hvalue : valueIn .decimal
        (text "0" ++ (List.replicate (-exponent - 1).toNat (ascii '0') ++ digits)) =
          valueIn .decimal digits := by
      rw [show text "0" = List.replicate 1 (ascii '0') from rfl, valueIn_zeros_append,
        valueIn_zeros_append]
    rw [hpointed.decimalValue_eq, hvalue, placed, List.length_append, List.length_replicate]
    congr 2
    omega
  · next hnonnegative =>
    dsimp only
    split
    · next hshort =>
      -- Zeros fill the places in front of the point.
      generalize hk : exponent.toNat + 1 - digits.length = k
      have hpointed : IsPointed (digits ++ List.replicate k (ascii '0') ++ source.integralMark)
          (digits ++ List.replicate k (ascii '0')) (text "0") :=
        ⟨rfl, by simp [hne], by decide, List.forall_mem_append.mpr ⟨hdigits, hzeros k⟩,
          isDigit_of_mem_zero⟩
      refine ⟨_, _, hpointed, ?_⟩
      have hvalue : valueIn .decimal (digits ++ List.replicate k (ascii '0') ++ text "0") =
          valueIn .decimal digits * 10 ^ (k + 1) := by
        rw [show text "0" = List.replicate 1 (ascii '0') from rfl, valueIn_append_zeros,
          valueIn_append_zeros, mul_assoc, ← pow_add]
      have hplace : exponent - digits.length + 1 = k := by omega
      rw [hpointed.decimalValue_eq, hvalue, placed, hplace, show (text "0").length = 1 from rfl]
      push_cast
      rw [zpow_natCast, pow_succ, mul_assoc, mul_assoc]
      norm_num
    · next hlong =>
      -- The point stands within the digits.
      have hpointed : IsPointed (digits.take (exponent.toNat + 1) ++ text "." ++
          digits.drop (exponent.toNat + 1)) (digits.take (exponent.toNat + 1))
          (digits.drop (exponent.toNat + 1)) := by
        refine ⟨by simp [text], by simp [hne], ?_, fun b hb => hdigits b (List.mem_of_mem_take hb),
          fun b hb => hdigits b (List.mem_of_mem_drop hb)⟩
        exact mt List.drop_eq_nil_iff.mp hlong
      refine ⟨_, _, hpointed, ?_⟩
      rw [hpointed.decimalValue_eq, List.take_append_drop, placed, List.length_drop]
      congr 2
      omega

/-- The digits of an exponent, two at least. -/
def exponentDigits (exponent : Int) : Bytes :=
  (if exponent.natAbs < 10 then text "0" else []) ++ Bytes.ofNat exponent.natAbs

theorem isDigit_of_mem_exponentDigits (exponent : Int) :
    ∀ b ∈ exponentDigits exponent, b.isDigit := by
  refine List.forall_mem_append.mpr ⟨?_, isDigit_of_mem_ofNat _⟩
  split
  · exact isDigit_of_mem_zero
  · exact List.forall_mem_nil _

theorem two_le_length_exponentDigits (exponent : Int) : 2 ≤ (exponentDigits exponent).length := by
  have hpos {n : Nat} : 1 ≤ (Bytes.ofNat n).length := List.length_pos_iff.mpr (ofNat_ne_nil n)
  rw [exponentDigits, List.length_append]
  split
  · exact Nat.add_le_add (Nat.le_refl 1) hpos
  · next hlarge =>
    rw [Bytes.ofNat, if_neg hlarge, List.length_append]
    have hfront := @hpos (exponent.natAbs / 10)
    simp only [List.length_nil, List.length_singleton]
    omega

theorem valueIn_exponentDigits (exponent : Int) :
    valueIn .decimal (exponentDigits exponent) = exponent.natAbs := by
  rw [exponentDigits]
  split
  · rw [show text "0" = List.replicate 1 (ascii '0') from rfl, valueIn_zeros_append, valueIn_ofNat]
  · rw [List.nil_append, valueIn_ofNat]

/-- The exponent part of a scientific layout. -/
def exponentPart (exponent : Int) : Bytes :=
  (if exponent < 0 then text "e-" else text "e+") ++ exponentDigits exponent

theorem isExponent_exponentPart (exponent : Int) : IsExponent (exponentPart exponent) := by
  have hne : exponentDigits exponent ≠ [] :=
    List.length_pos_iff.mp (Nat.lt_of_lt_of_le Nat.zero_lt_two (two_le_length_exponentDigits _))
  have hdigits := digits_of_isDigit hne (isDigit_of_mem_exponentDigits exponent)
  rw [exponentPart]
  split
  · exact .mk (by decide) (.inr (.inr rfl) : text "-" = [] ∨ _) hdigits
  · exact .mk (by decide) (.inr (.inl rfl) : text "+" = [] ∨ _) hdigits

/-- The exponent part denotes the exponent. -/
theorem powerOf_exponentPart (exponent : Int) : powerOf (exponentPart exponent) = exponent := by
  have hvalue := valueIn_exponentDigits exponent
  rw [exponentPart]
  split
  · show -(valueIn .decimal (exponentDigits exponent) : Int) = exponent
    omega
  · show (valueIn .decimal (exponentDigits exponent) : Int) = exponent
    omega

theorem isPower_exponentPart (exponent : Int) : IsPower (exponentPart exponent) := by
  intro b hb
  rw [exponentPart] at hb
  split at hb <;> obtain rfl := Option.some.inj hb <;> decide

/-- A scientific layout does not end in a point and a zero: it ends in two digits at least. -/
theorem not_suffix_exponentPart (front : Bytes) (exponent : Int) :
    ¬ text ".0" <:+ front ++ exponentPart exponent := by
  intro hzero
  have hsuffix : exponentDigits exponent <:+ front ++ exponentPart exponent :=
    (List.suffix_append _ _).trans (List.suffix_append _ _)
  have hinner := List.suffix_of_suffix_length_le hzero hsuffix
    (two_le_length_exponentDigits exponent)
  exact absurd (isDigit_of_mem_exponentDigits exponent _ (hinner.mem List.mem_cons_self))
    (by decide)

/-- A scientific layout has an exponent and denotes the digits at their place. -/
theorem scientific_spec (exponent : Int) (hne : digits ≠ []) (hdigits : ∀ b ∈ digits, b.isDigit) :
    IsFloat (scientific digits exponent) ∧
      decimalValue (scientific digits exponent) = placed digits exponent ∧
      ¬ text ".0" <:+ scientific digits exponent := by
  obtain ⟨first, rest, rfl⟩ := List.exists_cons_of_ne_nil hne
  obtain ⟨hfirst, hrest⟩ := List.forall_mem_cons.mp hdigits
  have hwhole : ∀ b ∈ [first], b.isDigit := List.forall_mem_singleton.mpr hfirst
  have hwholeDigits := digits_of_isDigit (List.cons_ne_nil first []) hwhole
  have hpower := isPower_exponentPart exponent
  cases rest with
  | nil =>
    have htext : scientific [first] exponent = [first] ++ exponentPart exponent := by
      simp [scientific, exponentPart, exponentDigits]
    rw [htext]
    refine ⟨.exponent hwholeDigits (isExponent_exponentPart exponent), ?_,
      not_suffix_exponentPart _ _⟩
    rw [decimalValue_whole hwhole hpower, powerOf_exponentPart, placed]
    simp
  | cons second rest =>
    have htext : scientific (first :: second :: rest) exponent =
        [first] ++ ascii '.' :: (second :: rest) ++ exponentPart exponent := by
      simp [scientific, exponentPart, exponentDigits, text]
    have hrestDigits := digits_of_isDigit (List.cons_ne_nil second rest) hrest
    rw [htext]
    refine ⟨?_, ?_, not_suffix_exponentPart _ _⟩
    · have hfloat := IsFloat.point (.inr hwholeDigits) (.inr hrestDigits)
        (.inl (List.cons_ne_nil first [])) (.inr (isExponent_exponentPart exponent))
      simpa using hfloat
    · rw [decimalValue_point hwhole hrest hpower, powerOf_exponentPart, placed]
      congr 2
      simp only [List.length_cons]
      omega

/-- What a layout is with a letter behind it, where a point and a zero at its end are left out. -/
theorem layout_spec (exponent : Int) (hne : digits ≠ []) (hdigits : ∀ b ∈ digits, b.isDigit) :
    IsFloat (layout digits exponent) ∧
      decimalValue (layout digits exponent) = placed digits exponent ∧
      (text ".0" <:+ layout digits exponent →
        Digits (layout digits exponent).dropLast.dropLast ∧
          decimalValue (layout digits exponent).dropLast.dropLast = placed digits exponent) := by
  rw [layout]
  split
  · obtain ⟨whole, fraction, hpointed, hvalue⟩ := exists_positional exponent hne hdigits
    refine ⟨hpointed.isFloat, hvalue, fun hzero => ?_⟩
    obtain ⟨hwhole, hsame⟩ := hpointed.of_suffix hzero
    rw [hwhole, hsame]
    exact ⟨digits_of_isDigit hpointed.whole_ne hpointed.whole, hvalue⟩
  · obtain ⟨hfloat, hvalue, hnot⟩ := scientific_spec exponent hne hdigits
    exact ⟨hfloat, hvalue, fun hzero => absurd hzero hnot⟩

/-- The text of an imaginary number that is a number. -/
theorem writeImaginary_eq {x : Binary64} {significand : Nat} {exponent : Int}
    (hfinite : x.magnitude = .finite significand exponent) :
    writeImaginary x =
      (if (source.write x).length > 2 ∧ text ".0" <:+ source.write x then
        (source.write x).dropLast.dropLast else source.write x) ++ text "j" := by
  rw [writeImaginary, hfinite]

end FloatFormat

/-- A numeric literal is a line of one token. -/
theorem Number.IsLiteral.isLine {kind : TokenKind} {t : Bytes} (h : Number.IsLiteral kind t) :
    IsLine (tokenize false t) [⟨kind, t⟩] := by
  have hkind : kind ≠ .identifier ∧ kind ≠ .comment := by
    cases h <;> exact ⟨nofun, nofun⟩
  obtain ⟨b, s, rfl, hb⟩ := h.begins
  have hafter : Number.after b s = .ok (kind, []) := by
    refine Number.after_literal h (List.append_nil _).symm (fun c hc => nomatch hc) nofun
  have hspelled : Word.IsSpelled ⟨kind, b :: s⟩ := ⟨hkind.2, if_neg fun h => hkind.1 h.1⟩
  obtain ⟨hblank, -, hascii, -, -⟩ := Lexeme.plain_of_begins hb
  have hnext : Lexeme.next b (s ++ []) = .ok (.token kind, []) := by
    rw [List.append_nil]
    exact Lexeme.next_of_number hb hafter
  have hdivides := Divides.of_next hnext hspelled
  rw [List.append_nil] at hdivides
  exact hdivides.tokenize hblank hascii

namespace FloatFormat

open Number

/-- **The layout of numbers is exact.**  The text of a finite number without a sign is one
floating-point literal, whose value is that of the digits that were found for the number with the
first of them at its place; and the text of it as an imaginary number is one imaginary literal of
the same value. -/
theorem layout_exact {x : Binary64} (hsign : x.isNegative = false) {significand : Nat}
    {exponent : Int} (hfinite : x.magnitude = .finite significand exponent) :
    let digits := (shortestDigits x).1
    let value : ℚ := valueIn .decimal digits * 10 ^ ((shortestDigits x).2 - digits.length + 1)
    (digits ≠ [] ∧ ∀ b ∈ digits, b.isDigit) ∧
    IsLine (tokenize false (source.write x)) [⟨.float, source.write x⟩] ∧
    decimalValue (source.write x) = value ∧
    IsLine (tokenize false (writeImaginary x)) [⟨.imaginary, writeImaginary x⟩] ∧
    ∃ t, writeImaginary x = t ++ text "j" ∧ decimalValue t = value := by
  intro digits value
  have hdigits := shortestDigits_isDigit hfinite
  obtain ⟨hfloat, hvalue, hshort⟩ := layout_spec (shortestDigits x).2 hdigits.1 hdigits.2
  rw [← write_eq_layout hsign hfinite] at hfloat hvalue hshort
  refine ⟨hdigits, (IsLiteral.float hfloat).isLine, hvalue, ?_⟩
  rw [writeImaginary_eq hfinite]
  split
  · next hzero =>
    obtain ⟨hwhole, hsame⟩ := hshort hzero.2
    exact ⟨(IsLiteral.imaginary (.inl hwhole) (by decide)).isLine, _, rfl, hsame⟩
  · exact ⟨(IsLiteral.imaginary (.inr hfloat) (by decide)).isLine, _, rfl, hvalue⟩

/-- A number with an exponent of one digit, which is written with two. -/
theorem layout_exact_small :
    let x : Binary64 := ⟨0x3E8421F5F40D8376⟩
    x.isNegative = false ∧ x.magnitude = .finite 5666839779443574 (-75) ∧
      shortestDigits x = (text "15", -7) ∧ source.write x = text "1.5e-07" ∧
      IsLine (tokenize false (source.write x)) [⟨.float, source.write x⟩] ∧
      decimalValue (source.write x) = 15 / 10 ^ 8 ∧
      IsLine (tokenize false (writeImaginary x)) [⟨.imaginary, writeImaginary x⟩] := by
  intro x
  have hfinite : x.magnitude = .finite 5666839779443574 (-75) := by decide +kernel
  have hdigits : shortestDigits x = (text "15", -7) := by decide +kernel
  obtain ⟨-, hfloat, hvalue, himaginary, -⟩ := layout_exact (x := x) (by decide) hfinite
  refine ⟨by decide, hfinite, hdigits, by decide +kernel, hfloat, ?_, himaginary⟩
  rw [hvalue, hdigits, show valueIn .decimal (text "15") = 15 by decide,
    show (text "15").length = 2 from rfl]
  norm_num

end FloatFormat

end SyntaxTree
