import Mathlib.Data.List.Basic
import SyntaxTree.Token.Number

/-
# The grammar of numeric literals

Digits may have single underscores between them, and behind the marker of a base in front of them.
A literal is found exactly if it is one of the grammar, does not run into a name, and does not stop
in front of a point that would carry it on.
-/

namespace SyntaxTree

/-! ## The letters of numerals -/

/-- What holds of all numbers of eight bits holds of all bytes. -/
theorem Byte.forall_of_lt {p : Byte → Prop} (h : ∀ n < 256, p (UInt8.ofNat n)) (b : Byte) :
    p b := by
  simpa using h b.toNat b.toNat_lt

namespace NumberBase

/-- The digits of a base, in either case. -/
def alphabet : NumberBase → Bytes
  | .binary => text "01"
  | .octal => text "01234567"
  | .decimal => text "0123456789"
  | .hexadecimal => text "0123456789abcdefABCDEF"

/-- The letters that announce a base behind a zero. -/
def markers : NumberBase → Bytes
  | .binary => text "bB"
  | .octal => text "oO"
  | .decimal => []
  | .hexadecimal => text "xX"

theorem isDigit_iff_mem (base : NumberBase) :
    ∀ {b : Byte}, base.isDigit b ↔ b ∈ base.alphabet := by
  refine @(Byte.forall_of_lt ?_)
  cases base <;> decide +kernel

theorem ofMarker?_eq_some_iff (base : NumberBase) :
    ∀ {b : Byte}, ofMarker? b = some base ↔ b ∈ base.markers := by
  refine @(Byte.forall_of_lt ?_)
  cases base <;> decide +kernel

/-- The underscore is no digit. -/
theorem ne_underscore {base : NumberBase} {d : Byte} (hd : d ∈ base.alphabet) :
    d ≠ Byte.underscore := by
  rintro rfl
  revert hd
  cases base <;> decide

end NumberBase

namespace Number

/-! ## Literals -/

/-- Digits with or without an underscore in front of each one: `('_'? D)*`. -/
inductive DigitRun (base : NumberBase) : Bytes → Prop where
  | nil : DigitRun base []
  | digit {d : Byte} {t : Bytes} (hd : d ∈ base.alphabet) (ht : DigitRun base t) :
    DigitRun base (d :: t)
  | underscore {d : Byte} {t : Bytes} (hd : d ∈ base.alphabet) (ht : DigitRun base t) :
    DigitRun base (Byte.underscore :: d :: t)

/-- Digits with single underscores between them: `D ('_'? D)*`. -/
inductive Digits : Bytes → Prop where
  | mk {d : Byte} {t : Bytes} (hd : d ∈ NumberBase.decimal.alphabet)
    (ht : DigitRun .decimal t) : Digits (d :: t)

/-- Integers: digits behind a marker, or decimal digits that begin with a zero only if all of them
are zeros. -/
inductive IsInteger : Bytes → Prop where
  | marked {base : NumberBase} {marker : Byte} {t : Bytes} (hmarker : marker ∈ base.markers)
    (ht : DigitRun base t) (hne : t ≠ []) : IsInteger (ascii '0' :: marker :: t)
  | decimal {t : Bytes} (ht : Digits t)
    (hzero : (∀ d ∈ t.filter (· ≠ Byte.underscore), d = ascii '0') ∨
      (t.filter (· ≠ Byte.underscore)).head? ≠ some (ascii '0')) : IsInteger t

/-- The exponent part `[eE] [+-]? digits`. -/
inductive IsExponent : Bytes → Prop where
  | mk {e : Byte} {sign t : Bytes} (he : e ∈ text "eE")
    (hsign : sign = [] ∨ sign = text "+" ∨ sign = text "-") (ht : Digits t) :
    IsExponent (e :: (sign ++ t))

/-- Floating-point literals: `digits? '.' digits? exponent?` with a digit in front of the exponent,
or `digits exponent`. -/
inductive IsFloat : Bytes → Prop where
  | point {whole fraction exponent : Bytes} (hwhole : whole = [] ∨ Digits whole)
    (hfraction : fraction = [] ∨ Digits fraction) (hsome : whole ≠ [] ∨ fraction ≠ [])
    (hexponent : exponent = [] ∨ IsExponent exponent) :
    IsFloat (whole ++ ascii '.' :: (fraction ++ exponent))
  | exponent {whole exponent : Bytes} (hwhole : Digits whole) (hexponent : IsExponent exponent) :
    IsFloat (whole ++ exponent)

/-- The literals of each kind. -/
inductive IsLiteral : TokenKind → Bytes → Prop where
  | integer {t : Bytes} (ht : IsInteger t) : IsLiteral .integer t
  | float {t : Bytes} (ht : IsFloat t) : IsLiteral .float t
  | imaginary {t : Bytes} {j : Byte} (ht : Digits t ∨ IsFloat t) (hj : j ∈ text "jJ") :
    IsLiteral .imaginary (t ++ [j])

/-- A text that does not carry a name or a numeral in front of it on. -/
def Ends (s : Bytes) : Prop :=
  ∀ c ∈ s.head?, ¬ (c.isLetter ∨ c.isDigit ∨ c = Byte.underscore ∨ c.isNonAscii)

theorem runsIntoName_eq_false_iff {s : Bytes} : runsIntoName s = false ↔ Ends s := by
  cases s with
  | nil => simp [runsIntoName, Ends]
  | cons c s => simp [runsIntoName, Ends, and_assoc]

/-! ## Runs of digits -/

/-- A text that does not carry digits in front of it on. -/
def Halts (base : NumberBase) (s : Bytes) : Prop :=
  ∀ c ∈ s.head?, c ≠ Byte.underscore ∧ c ∉ base.alphabet

theorem afterDigits_digit {base : NumberBase} {d : Byte} (hd : d ∈ base.alphabet)
    (underscore : Bool) (s : Bytes) :
    afterDigits base underscore (d :: s) = afterDigits base true s := by
  rw [afterDigits.eq_def]
  simp [NumberBase.ne_underscore hd, base.isDigit_iff_mem.mpr hd]

theorem afterDigits_underscore {base : NumberBase} {d : Byte} (hd : d ∈ base.alphabet) (s : Bytes) :
    afterDigits base true (Byte.underscore :: d :: s) = afterDigits base true (d :: s) := by
  rw [afterDigits.eq_def]
  simp [base.isDigit_iff_mem.mpr hd]

theorem afterDigits_of_halts {base : NumberBase} {s : Bytes} (h : Halts base s)
    (underscore : Bool) : afterDigits base underscore s = .ok s := by
  cases s with
  | nil => rfl
  | cons c s =>
    obtain ⟨hunderscore, hdigit⟩ := h c rfl
    rw [afterDigits.eq_def]
    simp [hunderscore, base.isDigit_iff_mem, hdigit]

/-- What is passed over is a run of digits, and no digit follows it. -/
theorem exists_run_of_afterDigits {base : NumberBase} {underscore : Bool} {s rest : Bytes}
    (h : afterDigits base underscore s = .ok rest) :
    ∃ t, s = t ++ rest ∧ DigitRun base t ∧
      (underscore = false → t.head? ≠ some Byte.underscore) ∧ Halts base rest := by
  fun_induction afterDigits base underscore s with
  | case1 => exact ⟨[], by simpa using h, .nil, by simp, by cases h; simp [Halts]⟩
  | case2 => cases h
  | case3 underscore next tail hdigit ih =>
    obtain ⟨hunderscore, hdigit⟩ := Bool.and_eq_true_iff.mp hdigit
    obtain ⟨t, hsplit, ht, -, hrest⟩ := ih h
    have hnext : next ∈ base.alphabet := base.isDigit_iff_mem.mp hdigit
    refine ⟨Byte.underscore :: t, by rw [hsplit]; rfl, ?_, by simp [hunderscore], hrest⟩
    cases ht with
    | nil =>
      obtain rfl : next :: tail = rest := hsplit
      exact absurd hnext (hrest next rfl).2
    | digit hd ht => exact .underscore hd ht
    | underscore hd ht =>
      exact absurd (List.cons.inj hsplit).1 (NumberBase.ne_underscore hnext)
  | case4 => cases h
  | case5 underscore b s hunderscore hdigit ih =>
    obtain ⟨t, rfl, ht, -, hrest⟩ := ih h
    exact ⟨b :: t, rfl, .digit (base.isDigit_iff_mem.mp hdigit) ht, by simp [hunderscore],
      hrest⟩
  | case6 underscore b s hunderscore hdigit =>
    cases h
    refine ⟨[], rfl, .nil, by simp, ?_⟩
    rintro c ⟨⟩
    exact ⟨hunderscore, fun hb => hdigit (base.isDigit_iff_mem.mpr hb)⟩

/-- A run of digits is passed over in front of what does not carry it on. -/
theorem afterDigits_run {base : NumberBase} {t rest : Bytes} (ht : DigitRun base t)
    (hrest : Halts base rest) {underscore : Bool}
    (hstart : underscore = false → t.head? ≠ some Byte.underscore) :
    afterDigits base underscore (t ++ rest) = .ok rest := by
  induction ht generalizing underscore with
  | nil => exact afterDigits_of_halts hrest underscore
  | @digit d t hd ht ih =>
    rw [List.cons_append, afterDigits_digit hd]
    exact ih (by simp)
  | @underscore d t hd ht ih =>
    cases underscore with
    | false => exact absurd rfl (hstart rfl)
    | true =>
      rw [List.cons_append, List.cons_append, afterDigits_underscore hd, afterDigits_digit hd]
      exact ih (by simp)

theorem digits_or_nil {t : Bytes} (ht : DigitRun .decimal t)
    (hstart : t.head? ≠ some Byte.underscore) : t = [] ∨ Digits t := by
  cases ht with
  | nil => exact .inl rfl
  | digit hd ht => exact .inr (.mk hd ht)
  | underscore hd ht => exact absurd rfl hstart

/-- Digits are passed over in front of what does not carry them on. -/
theorem afterDigits_digits {t rest : Bytes} (ht : t = [] ∨ Digits t) (hrest : Halts .decimal rest) :
    afterDigits .decimal false (t ++ rest) = .ok rest := by
  rcases ht with rfl | ⟨hd, ht⟩
  · exact afterDigits_of_halts hrest false
  · refine afterDigits_run (.digit hd ht) hrest fun _ hstart => ?_
    exact NumberBase.ne_underscore hd (Option.some.inj hstart)

theorem exists_digits_of_afterDigits {s rest : Bytes}
    (h : afterDigits .decimal false s = .ok rest) :
    ∃ t, s = t ++ rest ∧ (t = [] ∨ Digits t) ∧ Halts .decimal rest := by
  obtain ⟨t, hsplit, ht, hstart, hrest⟩ := exists_run_of_afterDigits h
  exact ⟨t, hsplit, digits_or_nil ht (hstart rfl), hrest⟩

theorem halts_cons {base : NumberBase} {c : Byte} (hc : c ≠ Byte.underscore ∧ c ∉ base.alphabet)
    (s : Bytes) : Halts base (c :: s) := by
  rintro c' ⟨⟩
  exact hc

/-- What ends a literal ends its digits. -/
theorem Ends.halts {base : NumberBase} {s : Bytes} (h : Ends s) : Halts base s := by
  have hword : base.alphabet.all fun c => c.isLetter || c.isDigit := by cases base <;> rfl
  intro c hc
  obtain ⟨hletter, hdigit, hunderscore, -⟩ : ¬ c.isLetter ∧ ¬ c.isDigit ∧ c ≠ Byte.underscore ∧
    ¬ c.isNonAscii := by simpa using h c hc
  refine ⟨hunderscore, fun hmem => ?_⟩
  exact (Bool.or_eq_true_iff.mp (List.all_eq_true.mp hword c hmem)).elim hletter hdigit

theorem Ends.head_not_mem {s : Bytes} (h : Ends s) {letters : Bytes}
    (hletters : letters.all Byte.isLetter) : ∀ c ∈ s.head?, c ∉ letters :=
  fun c hc hmem => h c hc (.inl (List.all_eq_true.mp hletters c hmem))

/-! ## Parts of a literal without a marker -/

/-- The letters of an exponent and of an imaginary number, in either case. -/
theorem toLower_eq_e_and_j : ∀ b : Byte,
    (b.toLower = ascii 'e' ↔ b ∈ text "eE") ∧ (b.toLower = ascii 'j' ↔ b ∈ text "jJ") := by
  refine Byte.forall_of_lt ?_
  decide +kernel

theorem toLower_eq_e {b : Byte} : b.toLower = ascii 'e' ↔ b ∈ text "eE" := (toLower_eq_e_and_j b).1

theorem toLower_eq_j {b : Byte} : b.toLower = ascii 'j' ↔ b ∈ text "jJ" := (toLower_eq_e_and_j b).2

/-- The digits in front of the point, the fraction with its point, and the exponent part of a
literal.  There is a digit in front of the exponent. -/
structure IsSplit (whole fraction exponent : Bytes) : Prop where
  digits : whole = [] ∨ Digits whole
  point : fraction = [] ∨ ∃ f, fraction = ascii '.' :: f ∧ (f = [] ∨ Digits f)
  power : exponent = [] ∨ IsExponent exponent
  pointed : whole = [] → ∃ f, fraction = ascii '.' :: f ∧ Digits f

/-- A literal with a point or an exponent is a floating-point literal. -/
theorem IsSplit.isFloat {whole fraction exponent : Bytes} (h : IsSplit whole fraction exponent)
    (hne : fraction ≠ [] ∨ exponent ≠ []) : IsFloat (whole ++ (fraction ++ exponent)) := by
  rcases h.point with rfl | ⟨f, rfl, hf⟩
  · have hwhole : whole ≠ [] := by
      rintro rfl
      obtain ⟨f, hf, -⟩ := h.pointed rfl
      cases hf
    have hexponent : exponent ≠ [] := hne.resolve_left (· rfl)
    exact .exponent (h.digits.resolve_left hwhole) (h.power.resolve_left hexponent)
  · refine .point h.digits hf ?_ h.power
    by_cases hwhole : whole = []
    · obtain ⟨f', hf', hdigits⟩ := h.pointed hwhole
      obtain rfl := (List.cons.inj hf').2
      cases hdigits
      exact .inr (List.cons_ne_nil _ _)
    · exact .inl hwhole

theorem IsFloat.exists_split {t : Bytes} (h : IsFloat t) :
    ∃ whole fraction exponent, IsSplit whole fraction exponent ∧
      (fraction ≠ [] ∨ exponent ≠ []) ∧ t = whole ++ (fraction ++ exponent) := by
  cases h with
  | @point whole fraction exponent hwhole hfraction hsome hexponent =>
    refine ⟨whole, ascii '.' :: fraction, exponent, ⟨hwhole, .inr ⟨fraction, rfl, hfraction⟩,
      hexponent, fun hnil => ?_⟩, .inl (List.cons_ne_nil _ _), rfl⟩
    exact ⟨fraction, rfl, hfraction.resolve_left (hsome.resolve_left (· hnil))⟩
  | @exponent whole exponent hwhole hexponent =>
    refine ⟨whole, [], exponent, ⟨.inr hwhole, .inl rfl, .inr hexponent, ?_⟩, .inr ?_, rfl⟩
    · rintro rfl
      cases hwhole
    · cases hexponent
      exact List.cons_ne_nil _ _

theorem IsSplit.of_digits {t : Bytes} (h : Digits t) : IsSplit t [] [] where
  digits := .inr h
  point := .inl rfl
  power := .inl rfl
  pointed := by
    rintro rfl
    cases h

/-! ## Reading the parts -/

theorem exists_of_afterFraction {s rest : Bytes} (h : afterFraction s = .ok rest) :
    ∃ t, s = t ++ rest ∧ (t = [] ∧ rest.head? ≠ some (ascii '.') ∨
      ∃ f, t = ascii '.' :: f ∧ (f = [] ∨ Digits f) ∧ Halts .decimal rest) := by
  unfold afterFraction at h
  split at h
  · next b tail =>
    split at h
    · next hb =>
      obtain ⟨f, rfl, hf, hrest⟩ := exists_digits_of_afterDigits h
      exact ⟨ascii '.' :: f, by rw [hb]; rfl, .inr ⟨f, rfl, hf, hrest⟩⟩
    · next hb =>
      cases h
      exact ⟨[], rfl, .inl ⟨rfl, by simpa using hb⟩⟩
  · cases h
    exact ⟨[], rfl, .inl ⟨rfl, by simp⟩⟩

/-- What stands behind an optional sign. -/
def unsigned (s : Bytes) : Bytes :=
  if s.head? = some (ascii '+') ∨ s.head? = some (ascii '-') then s.tail else s

/-- The exponent part is a letter, an optional sign, and digits, at least one. -/
theorem afterExponent_cons {e : Byte} (he : e ∈ text "eE") (s : Bytes) :
    afterExponent (e :: s) =
      if (unsigned s).head?.any Byte.isDigit then afterDigits .decimal false (unsigned s)
      else .error (.invalidNumber .decimal) := by
  cases s with
  | nil => simp [afterExponent, toLower_eq_e.mpr he, unsigned]
  | cons c s =>
    by_cases hsign : c = ascii '+' ∨ c = ascii '-'
    · cases s <;> simp [afterExponent, toLower_eq_e.mpr he, unsigned, hsign]
    · simp [afterExponent, toLower_eq_e.mpr he, unsigned, hsign]

theorem exists_sign (s : Bytes) :
    ∃ sign, (sign = [] ∨ sign = text "+" ∨ sign = text "-") ∧ s = sign ++ unsigned s := by
  cases s with
  | nil => exact ⟨[], .inl rfl, rfl⟩
  | cons c s =>
    by_cases hplus : c = ascii '+'
    · exact ⟨text "+", by simp, by simp [unsigned, hplus, text]⟩
    by_cases hminus : c = ascii '-'
    · exact ⟨text "-", by simp, by simp [unsigned, hminus, text]⟩
    · exact ⟨[], .inl rfl, by simp [unsigned, hplus, hminus]⟩

theorem exists_of_afterExponent {s rest : Bytes} (h : afterExponent s = .ok rest) :
    ∃ t, s = t ++ rest ∧ (t = [] ∨ IsExponent t) := by
  cases s with
  | nil =>
    cases h
    exact ⟨[], rfl, .inl rfl⟩
  | cons e s =>
    by_cases he : e ∈ text "eE"
    · rw [afterExponent_cons he] at h
      split at h
      · next hdigit =>
        obtain ⟨sign, hsign, hs⟩ := exists_sign s
        obtain ⟨t, ht, hdigits, hrest⟩ := exists_digits_of_afterDigits h
        have hne : t ≠ [] := by
          rintro rfl
          obtain ⟨d, hd, hdigit⟩ := (Option.any_eq_true _ _).mp hdigit
          exact (hrest d (by rw [← List.nil_append rest, ← ht]; exact hd)).2
            (NumberBase.decimal.isDigit_iff_mem.mp hdigit)
        refine ⟨e :: (sign ++ t), ?_, .inr (.mk he hsign (hdigits.resolve_left hne))⟩
        rw [List.cons_append, List.append_assoc, ← ht, ← hs]
      · cases h
    · simp only [afterExponent, mt toLower_eq_e.mp he, if_false] at h
      cases h
      exact ⟨[], rfl, .inl rfl⟩

/-- The exponent part is passed over in front of what does not carry its digits on. -/
theorem afterExponent_append {t rest : Bytes} (ht : t = [] ∨ IsExponent t)
    (hrest : Halts .decimal rest) (hnone : ∀ c ∈ rest.head?, c ∉ text "eE") :
    afterExponent (t ++ rest) = .ok rest := by
  rcases ht with rfl | @⟨e, sign, t, he, hsign, ht⟩
  · cases rest with
    | nil => rfl
    | cons c rest => simp [afterExponent, mt toLower_eq_e.mp (hnone c rfl)]
  · have hdigits := afterDigits_digits (.inr ht) hrest
    obtain @⟨d, t, hd, ht⟩ := ht
    have hunsigned : unsigned (sign ++ (d :: t ++ rest)) = d :: t ++ rest := by
      have hplus : d ≠ ascii '+' := by rintro rfl; revert hd; decide
      have hminus : d ≠ ascii '-' := by rintro rfl; revert hd; decide
      rcases hsign with rfl | rfl | rfl
      · simp [unsigned, hplus, hminus]
      · rfl
      · rfl
    have hdigit : d.isDigit := NumberBase.decimal.isDigit_iff_mem.mpr hd
    rw [List.cons_append, List.append_assoc, afterExponent_cons he, hunsigned, if_pos]
    · exact hdigits
    · simpa using hdigit

/-- The fraction is passed over in front of what does not carry its digits on. -/
theorem afterFraction_append {t rest : Bytes}
    (ht : t = [] ∨ ∃ f, t = ascii '.' :: f ∧ (f = [] ∨ Digits f)) (hrest : Halts .decimal rest)
    (hnone : t = [] → rest.head? ≠ some (ascii '.')) : afterFraction (t ++ rest) = .ok rest := by
  rcases ht with rfl | ⟨f, rfl, hf⟩
  · cases rest with
    | nil => rfl
    | cons c rest =>
      have hc : c ≠ ascii '.' := by simpa using hnone rfl
      simp [afterFraction, hc]
  · simpa [afterFraction] using afterDigits_digits hf hrest

theorem halts_exponent {t rest : Bytes} (ht : t = [] ∨ IsExponent t)
    (hrest : Halts .decimal rest) : Halts .decimal (t ++ rest) := by
  have hletter : ∀ e ∈ text "eE", e ≠ Byte.underscore ∧ e ∉ NumberBase.decimal.alphabet :=
    List.forall_iff_forall_mem.mp (by decide)
  rcases ht with rfl | ⟨he, -, -⟩
  · exact hrest
  · exact halts_cons (hletter _ he) _

theorem halts_fraction {t rest : Bytes}
    (ht : t = [] ∨ ∃ f, t = ascii '.' :: f ∧ (f = [] ∨ Digits f)) (hrest : Halts .decimal rest) :
    Halts .decimal (t ++ rest) := by
  rcases ht with rfl | ⟨f, rfl, -⟩
  · exact hrest
  · exact halts_cons (by decide) _

theorem exists_of_afterWhole {b : Byte} {s point : Bytes} (h : afterWhole b s = .ok point)
    (hb : b.isDigit ∨ b = ascii '.') :
    ∃ t, b :: s = t ++ point ∧ (Digits t ∨ t = [] ∧ b = ascii '.') := by
  unfold afterWhole at h
  split at h
  · next hpoint =>
    cases h
    exact ⟨[], rfl, .inr ⟨rfl, hpoint⟩⟩
  · next hpoint =>
    obtain ⟨t, rfl, ht, -⟩ := exists_run_of_afterDigits h
    have hdigit : b ∈ NumberBase.decimal.alphabet :=
      NumberBase.decimal.isDigit_iff_mem.mp (hb.resolve_right hpoint)
    exact ⟨b :: t, rfl, .inl (.mk hdigit ht)⟩

/-- The digits of an integer: those of the whole part, if there is no other. -/
def wholeDigits (whole fraction exponent : Bytes) : Option Bytes :=
  if fraction = [] ∧ exponent = [] then some (whole.filter (· ≠ Byte.underscore)) else none

theorem wholeDigits_eq {b : Byte} {s whole fraction exponent suffix : Bytes}
    (h : b :: s = whole ++ (fraction ++ (exponent ++ suffix))) :
    (if suffix.length = (fraction ++ (exponent ++ suffix)).length then
      some (((b :: s).take (s.length + 1 - (fraction ++ (exponent ++ suffix)).length)).filter
        (· ≠ Byte.underscore)) else none) = wholeDigits whole fraction exponent := by
  have hlength : s.length + 1 = whole.length + (fraction ++ (exponent ++ suffix)).length := by
    simpa using congrArg List.length h
  rw [h, hlength, Nat.add_sub_cancel, List.take_left, wholeDigits]
  have hnone : suffix.length = (fraction ++ (exponent ++ suffix)).length ↔
      fraction = [] ∧ exponent = [] := by
    simp only [List.length_append, ← List.length_eq_zero_iff]
    omega
  simp only [hnone]

/-- A literal without a marker has been read part by part. -/
theorem exists_split_of_afterDecimal {b : Byte} {s rest : Bytes} {kind : TokenKind}
    (hb : b.isDigit ∨ b = ascii '.' ∧ s.head?.any Byte.isDigit)
    (h : afterDecimal b s = .ok (kind, rest)) :
    ∃ whole fraction exponent suffix, IsSplit whole fraction exponent ∧
      b :: s = whole ++ (fraction ++ (exponent ++ suffix)) ∧
      afterSuffix (wholeDigits whole fraction exponent) suffix = .ok (kind, rest) ∧ Ends rest := by
  unfold afterDecimal at h
  obtain ⟨point, hafterWhole, h⟩ := exists_of_bind_eq_ok h
  obtain ⟨behind, hafterFraction, h⟩ := exists_of_bind_eq_ok h
  obtain ⟨suffix, hafterExponent, h⟩ := exists_of_bind_eq_ok h
  obtain ⟨⟨kind', rest'⟩, hsuffix, h⟩ := exists_of_bind_eq_ok h
  obtain ⟨whole, hsplit, hwhole⟩ := exists_of_afterWhole hafterWhole (hb.imp_right And.left)
  obtain ⟨fraction, rfl, hfraction⟩ := exists_of_afterFraction hafterFraction
  obtain ⟨exponent, rfl, hexponent⟩ := exists_of_afterExponent hafterExponent
  rw [wholeDigits_eq hsplit] at hsuffix
  obtain ⟨hname, rfl, rfl⟩ : runsIntoName rest' = false ∧ kind' = kind ∧ rest' = rest := by grind
  refine ⟨whole, fraction, exponent, suffix, ⟨?_, ?_, hexponent, ?_⟩, hsplit, hsuffix,
    runsIntoName_eq_false_iff.mp hname⟩
  · exact hwhole.elim .inr fun h => .inl h.1
  · exact hfraction.imp And.left fun ⟨f, ht, hf, _⟩ => ⟨f, ht, hf⟩
  · rintro rfl
    -- The literal begins with its point, and a digit stands behind it.
    obtain ⟨-, rfl⟩ : [] = [] ∧ b = ascii '.' := hwhole.resolve_left nofun
    rcases hfraction with ⟨rfl, hnone⟩ | ⟨f, rfl, hf, hhalts⟩
    · exact absurd (congrArg List.head? hsplit).symm hnone
    · refine ⟨f, rfl, hf.resolve_left ?_⟩
      rintro rfl
      obtain rfl : s = exponent ++ suffix := (List.cons.inj hsplit).2
      obtain ⟨d, hd, hdigit⟩ := (Option.any_eq_true _ _).mp (hb.resolve_left (by decide)).2
      exact (hhalts d hd).2 (NumberBase.decimal.isDigit_iff_mem.mp hdigit)

/-- A literal without a marker is read part by part. -/
theorem afterDecimal_split {b : Byte} {s whole fraction exponent suffix : Bytes}
    (hsplit : IsSplit whole fraction exponent)
    (hs : b :: s = whole ++ (fraction ++ (exponent ++ suffix))) (hhalts : Halts .decimal suffix)
    (hletter : ∀ c ∈ suffix.head?, c ∉ text "eE")
    (hpoint : fraction = [] → exponent = [] → suffix.head? ≠ some (ascii '.')) :
    afterDecimal b s = afterSuffix (wholeDigits whole fraction exponent) suffix >>= fun found =>
      if runsIntoName found.2 then .error (.invalidNumber .decimal) else .ok found := by
  have hpower := halts_exponent hsplit.power hhalts
  have hwhole : afterWhole b s = .ok (fraction ++ (exponent ++ suffix)) := by
    rcases hsplit.digits with rfl | @⟨d, t, hd, ht⟩
    · obtain ⟨f, rfl, -⟩ := hsplit.pointed rfl
      obtain ⟨rfl, rfl⟩ := List.cons.inj hs
      rfl
    · obtain ⟨rfl, rfl⟩ := List.cons.inj hs
      rw [afterWhole, if_neg (by rintro rfl; revert hd; decide)]
      exact afterDigits_run ht (halts_fraction hsplit.point hpower) (by simp)
  have hfraction : afterFraction (fraction ++ (exponent ++ suffix)) = .ok (exponent ++ suffix) := by
    refine afterFraction_append hsplit.point hpower fun hnil => ?_
    rcases hsplit.power with rfl | @⟨e, sign, t, he, -, -⟩
    · exact hpoint hnil rfl
    · rintro hdot
      obtain rfl : e = ascii '.' := Option.some.inj hdot
      revert he
      decide
  have hexponent := afterExponent_append hsplit.power hhalts hletter
  unfold afterDecimal
  rw [hwhole]
  show (afterFraction _ >>= _) = _
  rw [hfraction]
  show (afterExponent _ >>= _) = _
  rw [hexponent]
  show (afterSuffix _ _ >>= _) = _
  rw [wholeDigits_eq hs]

/-- A literal without a marker is found if it does not run into a name. -/
theorem afterDecimal_of_split {b : Byte} {s whole fraction exponent suffix rest : Bytes}
    {kind : TokenKind} (hsplit : IsSplit whole fraction exponent)
    (hs : b :: s = whole ++ (fraction ++ (exponent ++ suffix))) (hhalts : Halts .decimal suffix)
    (hletter : ∀ c ∈ suffix.head?, c ∉ text "eE")
    (hpoint : fraction = [] → exponent = [] → suffix.head? ≠ some (ascii '.'))
    (hsuffix : afterSuffix (wholeDigits whole fraction exponent) suffix = .ok (kind, rest))
    (hrest : Ends rest) : afterDecimal b s = .ok (kind, rest) := by
  rw [afterDecimal_split hsplit hs hhalts hletter hpoint, hsuffix]
  show (if runsIntoName rest then _ else _) = _
  rw [runsIntoName_eq_false_iff.mpr hrest]
  rfl

/-! ## The end of a literal -/

theorem hasLeadingZero_eq_false_iff {digits : Bytes} :
    hasLeadingZero digits = false ↔
      (∀ d ∈ digits, d = ascii '0') ∨ digits.head? ≠ some (ascii '0') := by
  rw [hasLeadingZero, Bool.and_eq_false_iff, or_comm]
  simp

theorem afterSuffix_letter {j : Byte} (hj : j ∈ text "jJ") (whole : Option Bytes) (s : Bytes) :
    afterSuffix whole (j :: s) = .ok (.imaginary, s) := by
  simp [afterSuffix, toLower_eq_j.mpr hj]

theorem afterSuffix_of_not_mem {s : Bytes} (h : ∀ c ∈ s.head?, c ∉ text "jJ")
    (whole : Option Bytes) :
    afterSuffix whole s = match whole with
      | none => .ok (.float, s)
      | some digits =>
        if hasLeadingZero digits then .error .leadingZeros else .ok (.integer, s) := by
  have hnone : ¬ s.head?.any (·.toLower = ascii 'j') := by
    intro hany
    obtain ⟨c, hc, hlower⟩ := (Option.any_eq_true _ _).mp hany
    exact h c hc (toLower_eq_j.mp (of_decide_eq_true hlower))
  unfold afterSuffix
  exact if_neg hnone

/-- How a literal without a marker ends, by its kind. -/
theorem end_of_afterSuffix {whole : Option Bytes} {s rest : Bytes} {kind : TokenKind}
    (h : afterSuffix whole s = .ok (kind, rest)) :
    (kind = .imaginary ∧ ∃ j ∈ text "jJ", s = j :: rest) ∨
    (kind = .float ∧ whole = none ∧ s = rest) ∨
    (kind = .integer ∧ ∃ digits,
      whole = some digits ∧ hasLeadingZero digits = false ∧ s = rest) := by
  by_cases hletter : ∃ j ∈ text "jJ", j ∈ s.head?
  · obtain ⟨j, hj, hs⟩ := hletter
    obtain ⟨tail, rfl⟩ := List.head?_eq_some_iff.mp hs
    rw [afterSuffix_letter hj] at h
    cases h
    exact .inl ⟨rfl, j, hj, rfl⟩
  · rw [afterSuffix_of_not_mem (fun c hc hmem => hletter ⟨c, hmem, hc⟩)] at h
    cases whole with
    | none =>
      cases h
      exact .inr (.inl ⟨rfl, rfl, rfl⟩)
    | some digits =>
      cases hzero : hasLeadingZero digits
      · simp only [hzero, Bool.false_eq_true, if_false] at h
        cases h
        exact .inr (.inr ⟨rfl, digits, rfl, hzero, rfl⟩)
      · simp [hzero] at h

/-! ## Literals are found -/

/-- What is found without a marker is a literal that does not run into a name. -/
theorem isLiteral_of_afterDecimal {b : Byte} {s rest : Bytes} {kind : TokenKind}
    (hb : b.isDigit ∨ b = ascii '.' ∧ s.head?.any Byte.isDigit)
    (h : afterDecimal b s = .ok (kind, rest)) :
    ∃ t, b :: s = t ++ rest ∧ IsLiteral kind t ∧ Ends rest := by
  obtain ⟨whole, fraction, exponent, suffix, hsplit, hs, hsuffix, hrest⟩ :=
    exists_split_of_afterDecimal hb h
  have hdigits : fraction = [] ∧ exponent = [] → Digits whole := by
    rintro ⟨rfl, rfl⟩
    refine hsplit.digits.resolve_left fun hnil => ?_
    obtain ⟨f, hf, -⟩ := hsplit.pointed hnil
    cases hf
  have hfloat (hne : ¬ (fraction = [] ∧ exponent = [])) :
      IsFloat (whole ++ (fraction ++ exponent)) :=
    hsplit.isFloat (Decidable.not_and_iff_not_or_not.mp hne)
  rcases end_of_afterSuffix hsuffix with
    ⟨rfl, j, hj, rfl⟩ | ⟨rfl, hnone, rfl⟩ | ⟨rfl, digits, hsome, hzero, rfl⟩
  · refine ⟨whole ++ (fraction ++ exponent) ++ [j], by simp [hs], .imaginary ?_ hj, hrest⟩
    by_cases hnil : fraction = [] ∧ exponent = []
    · exact .inl (by simpa [hnil] using hdigits hnil)
    · exact .inr (hfloat hnil)
  · refine ⟨whole ++ (fraction ++ exponent), by simp [hs], .float (hfloat fun hnil => ?_), hrest⟩
    simp [wholeDigits, hnil] at hnone
  · unfold wholeDigits at hsome
    split at hsome
    · next hnil =>
      cases hsome
      refine ⟨whole, by simp [hs, hnil], .integer (.decimal (hdigits hnil) ?_), hrest⟩
      exact hasLeadingZero_eq_false_iff.mp hzero
    · cases hsome

/-- Imaginary literals are found in front of what ends them. -/
theorem afterDecimal_imaginary {b j : Byte} {s t rest : Bytes} (ht : Digits t ∨ IsFloat t)
    (hj : j ∈ text "jJ") (hs : b :: s = t ++ j :: rest) (hrest : Ends rest) :
    afterDecimal b s = .ok (.imaginary, rest) := by
  have hletter : ∀ j ∈ text "jJ", (j ≠ Byte.underscore ∧ j ∉ NumberBase.decimal.alphabet) ∧
      j ∉ text "eE" ∧ j ≠ ascii '.' := List.forall_iff_forall_mem.mp (by decide)
  obtain ⟨hhalts, hexponent, hpoint⟩ := hletter j hj
  obtain ⟨whole, fraction, exponent, hsplit, rfl⟩ : ∃ whole fraction exponent,
      IsSplit whole fraction exponent ∧ t = whole ++ (fraction ++ exponent) := by
    rcases ht with ht | ht
    · exact ⟨t, [], [], .of_digits ht, by simp⟩
    · obtain ⟨whole, fraction, exponent, hsplit, -, ht⟩ := ht.exists_split
      exact ⟨whole, fraction, exponent, hsplit, ht⟩
  have hs : b :: s = whole ++ (fraction ++ (exponent ++ j :: rest)) := by simp [hs]
  refine afterDecimal_of_split hsplit hs (halts_cons hhalts rest) ?_
    (fun _ _ => by simpa using hpoint) (afterSuffix_letter hj _ rest) hrest
  rintro c ⟨⟩
  exact hexponent

/-- Floating-point literals are found in front of what ends them. -/
theorem afterDecimal_float {b : Byte} {s t rest : Bytes} (ht : IsFloat t) (hs : b :: s = t ++ rest)
    (hrest : Ends rest) : afterDecimal b s = .ok (.float, rest) := by
  obtain ⟨whole, fraction, exponent, hsplit, hne, rfl⟩ := ht.exists_split
  refine afterDecimal_of_split hsplit (by simpa using hs) hrest.halts
    (hrest.head_not_mem (by decide)) (fun hfraction hexponent => ?_) ?_ hrest
  · exact absurd hne (by simp [hfraction, hexponent])
  · rw [afterSuffix_of_not_mem (hrest.head_not_mem (by decide)), wholeDigits, if_neg]
    exact fun hnil => absurd hne (by simp [hnil])

/-- Decimal integers are found in front of what ends them, a point excepted. -/
theorem afterDecimal_integer {b : Byte} {s t rest : Bytes} (ht : Digits t)
    (hzero : (∀ d ∈ t.filter (· ≠ Byte.underscore), d = ascii '0') ∨
      (t.filter (· ≠ Byte.underscore)).head? ≠ some (ascii '0'))
    (hs : b :: s = t ++ rest) (hrest : Ends rest) (hpoint : rest.head? ≠ some (ascii '.')) :
    afterDecimal b s = .ok (.integer, rest) := by
  refine afterDecimal_of_split (.of_digits ht) (by simpa using hs) hrest.halts
    (hrest.head_not_mem (by decide)) (fun _ _ => hpoint) ?_ hrest
  rw [afterSuffix_of_not_mem (hrest.head_not_mem (by decide)), wholeDigits, if_pos ⟨rfl, rfl⟩]
  simp only [hasLeadingZero_eq_false_iff.mpr hzero, Bool.false_eq_true, if_false]

/-! ## Literals behind a marker -/

/-- Behind a marker, digits are required, and they must not run into a name. -/
theorem afterMarked_eq_ok_iff {base : NumberBase} {t rest rest' : Bytes}
    (h : afterDigits base true (t ++ rest) = .ok rest) :
    afterMarked base (t ++ rest) = .ok rest' ↔ t ≠ [] ∧ Ends rest ∧ rest = rest' := by
  rw [afterMarked, h, ← runsIntoName_eq_false_iff]
  cases rest with
  | nil => by_cases ht : t = [] <;> simp [bind, Except.bind, ht, runsIntoName]
  | cons c rest =>
    by_cases ht : t = []
    · simp [bind, Except.bind, ht]
    · cases hname : runsIntoName (c :: rest) <;> simp [bind, Except.bind, ht, hname]

theorem isLiteral_of_afterMarked {base : NumberBase} {marker : Byte} {s rest : Bytes}
    (hmarker : marker ∈ base.markers) (h : afterMarked base s = .ok rest) :
    ∃ t, ascii '0' :: marker :: s = t ++ rest ∧ IsLiteral .integer t ∧ Ends rest := by
  obtain ⟨behind, hdigits, -⟩ := exists_of_bind_eq_ok h
  obtain ⟨t, rfl, ht, -, -⟩ := exists_run_of_afterDigits hdigits
  obtain ⟨hne, hends, rfl⟩ := (afterMarked_eq_ok_iff hdigits).mp h
  exact ⟨ascii '0' :: marker :: t, rfl, .integer (.marked hmarker ht hne), hends⟩

theorem afterMarked_run {base : NumberBase} {t rest : Bytes} (ht : DigitRun base t) (hne : t ≠ [])
    (hrest : Ends rest) : afterMarked base (t ++ rest) = .ok rest :=
  (afterMarked_eq_ok_iff (afterDigits_run ht hrest.halts (by simp))).mpr ⟨hne, hrest, rfl⟩

/-! ## The first literal of a text -/

/-- The first bytes of numeric literals. -/
def Begins (b : Byte) (s : Bytes) : Prop :=
  b.isDigit ∨ b = ascii '.' ∧ s.head?.any Byte.isDigit

theorem after_marked {base : NumberBase} {marker : Byte} (hmarker : marker ∈ base.markers)
    (s : Bytes) :
    after (ascii '0') (marker :: s) = (afterMarked base s).map (TokenKind.integer, ·) := by
  simp [after, base.ofMarker?_eq_some_iff.mpr hmarker]

theorem after_unmarked {b : Byte} {s : Bytes}
    (h : b = ascii '0' → ∀ base : NumberBase, ∀ c ∈ s.head?, c ∉ base.markers) :
    after b s = afterDecimal b s := by
  cases s with
  | nil => rfl
  | cons c s =>
    have hnone : (if b = ascii '0' then NumberBase.ofMarker? c else none) = none := by
      split
      · next hb =>
        refine Option.eq_none_iff_forall_not_mem.mpr fun base hbase => ?_
        exact h hb base c rfl (base.ofMarker?_eq_some_iff.mp hbase)
      · rfl
    rw [after, hnone]

/-- What is found is a literal of its kind, and no name or digit follows. -/
theorem isLiteral_of_after {b : Byte} {s rest : Bytes} {kind : TokenKind} (hb : Begins b s)
    (h : after b s = .ok (kind, rest)) :
    ∃ t, b :: s = t ++ rest ∧ IsLiteral kind t ∧ Ends rest := by
  by_cases hmarked : b = ascii '0' ∧ ∃ base : NumberBase, ∃ c ∈ s.head?, c ∈ base.markers
  · obtain ⟨rfl, base, marker, hs, hmarker⟩ := hmarked
    obtain ⟨s, rfl⟩ := List.head?_eq_some_iff.mp hs
    rw [after_marked hmarker] at h
    obtain ⟨rest', hmarked, h⟩ := exists_of_map_eq_ok h
    obtain ⟨rfl, rfl⟩ := Prod.mk.inj h
    exact isLiteral_of_afterMarked hmarker hmarked
  · rw [after_unmarked fun hb base c hc hmem => hmarked ⟨hb, base, c, hc, hmem⟩] at h
    exact isLiteral_of_afterDecimal hb h

/-- A zero with a marker behind it is no literal without a marker. -/
theorem afterDecimal_marker {base : NumberBase} {marker : Byte} (hmarker : marker ∈ base.markers)
    (s : Bytes) : afterDecimal (ascii '0') (marker :: s) = .error (.invalidNumber .decimal) := by
  have hletter : ∀ marker ∈ base.markers, (marker ≠ Byte.underscore ∧
      marker ∉ NumberBase.decimal.alphabet) ∧ marker ∉ text "eE" ∧ marker ∉ text "jJ" ∧
      marker ≠ ascii '.' ∧ marker.isLetter := by
    cases base <;> exact List.forall_iff_forall_mem.mp (by decide)
  obtain ⟨hhalts, hexponent, himaginary, hpoint, hletter⟩ := hletter marker hmarker
  have hzero : IsSplit [ascii '0'] [] [] := .of_digits (.mk (by decide) .nil)
  have hhead {c : Byte} {letters : Bytes} (hc : c ∈ (marker :: s).head?)
      (hmem : marker ∉ letters) : c ∉ letters := by
    obtain rfl : marker = c := Option.some.inj hc
    exact hmem
  have hs : ascii '0' :: marker :: s = [ascii '0'] ++ ([] ++ ([] ++ marker :: s)) := rfl
  rw [afterDecimal_split hzero hs (halts_cons hhalts s) (fun c hc => hhead hc hexponent)
      (fun _ _ => by simpa using hpoint),
    afterSuffix_of_not_mem fun c hc => hhead hc himaginary]
  show (if runsIntoName (marker :: s) then _ else _) = _
  rw [runsIntoName, hletter]
  rfl

/-- A literal without a marker is none with one. -/
theorem after_of_afterDecimal {b : Byte} {s rest : Bytes} {kind : TokenKind}
    (h : afterDecimal b s = .ok (kind, rest)) : after b s = .ok (kind, rest) := by
  rw [after_unmarked, h]
  rintro rfl base c hc hmem
  obtain ⟨s, rfl⟩ := List.head?_eq_some_iff.mp hc
  rw [afterDecimal_marker hmem] at h
  cases h

/-- A literal is found in front of what neither carries a name on nor is a point. -/
theorem after_literal {b : Byte} {s t rest : Bytes} {kind : TokenKind} (ht : IsLiteral kind t)
    (hs : b :: s = t ++ rest) (hrest : Ends rest) (hpoint : rest.head? ≠ some (ascii '.')) :
    after b s = .ok (kind, rest) := by
  cases ht with
  | integer ht =>
    cases ht with
    | @marked base marker t hmarker ht hne =>
      obtain ⟨rfl, rfl⟩ := List.cons.inj hs
      show after (ascii '0') (marker :: (t ++ rest)) = _
      rw [after_marked hmarker, afterMarked_run ht hne hrest]
      rfl
    | decimal ht hzero =>
      exact after_of_afterDecimal (afterDecimal_integer ht hzero hs hrest hpoint)
  | float ht => exact after_of_afterDecimal (afterDecimal_float ht hs hrest)
  | @imaginary t j ht hj =>
    exact after_of_afterDecimal (afterDecimal_imaginary ht hj (by simpa using hs) hrest)

theorem Digits.begins {t : Bytes} (h : Digits t) : ∃ b s, t = b :: s ∧ b.isDigit := by
  obtain @⟨b, s, hb, -⟩ := h
  exact ⟨b, s, rfl, NumberBase.decimal.isDigit_iff_mem.mpr hb⟩

theorem IsFloat.begins {t : Bytes} (h : IsFloat t) : ∃ b s, t = b :: s ∧ Begins b s := by
  obtain ⟨whole, fraction, exponent, hsplit, -, rfl⟩ := h.exists_split
  rcases hsplit.digits with rfl | hwhole
  · obtain ⟨f, rfl, hf⟩ := hsplit.pointed rfl
    obtain ⟨d, f, rfl, hd⟩ := hf.begins
    exact ⟨ascii '.', _, rfl, .inr ⟨rfl, by simpa using hd⟩⟩
  · obtain ⟨b, s, rfl, hb⟩ := hwhole.begins
    exact ⟨b, _, rfl, .inl hb⟩

/-- Every literal begins with a digit, or with a point and a digit. -/
theorem IsLiteral.begins {kind : TokenKind} {t : Bytes} (h : IsLiteral kind t) :
    ∃ b s, t = b :: s ∧ Begins b s := by
  have hdigits {t : Bytes} (ht : Digits t) : ∃ b s, t = b :: s ∧ Begins b s := by
    obtain ⟨b, s, rfl, hb⟩ := ht.begins
    exact ⟨b, s, rfl, .inl hb⟩
  cases h with
  | integer ht =>
    cases ht with
    | marked => exact ⟨ascii '0', _, rfl, .inl rfl⟩
    | decimal ht => exact hdigits ht
  | float ht => exact ht.begins
  | @imaginary t j ht hj =>
    obtain ⟨b, s, rfl, hb⟩ := ht.elim hdigits IsFloat.begins
    refine ⟨b, s ++ [j], rfl, hb.imp_right fun ⟨hpoint, hd⟩ => ⟨hpoint, ?_⟩⟩
    cases s with
    | nil => cases hd
    | cons d s => exact hd

/-- **Numeric literals are found by exactly their grammar.**  What is found where a literal may
begin is a literal of its kind that does not run into a name; and a literal is found as a whole,
with its kind, in front of everything but a name, a digit and a point. -/
theorem literals_found_exactly :
    (∀ {b : Byte} {s rest : Bytes} {kind : TokenKind},
      (b.isDigit ∨ b = ascii '.' ∧ ∃ d ∈ s.head?, d.isDigit) → after b s = .ok (kind, rest) →
      ∃ t, b :: s = t ++ rest ∧ IsLiteral kind t ∧
        ∀ c ∈ rest.head?, ¬ (c.isLetter ∨ c.isDigit ∨ c = Byte.underscore ∨ c.isNonAscii)) ∧
    ∀ {t rest : Bytes} {kind : TokenKind}, IsLiteral kind t →
      (∀ c ∈ rest.head?,
        ¬ (c.isLetter ∨ c.isDigit ∨ c = Byte.underscore ∨ c.isNonAscii) ∧ c ≠ ascii '.') →
      ∃ b s, t = b :: s ∧ (b.isDigit ∨ b = ascii '.' ∧ ∃ d ∈ s.head?, d.isDigit) ∧
        after b (s ++ rest) = .ok (kind, rest) := by
  constructor
  · intro b s rest kind hb h
    exact isLiteral_of_after (hb.imp_right (And.imp_right (Option.any_eq_true _ _).mpr)) h
  · intro t rest kind ht hrest
    obtain ⟨b, s, rfl, hb⟩ := ht.begins
    refine ⟨b, s, rfl, hb.imp_right (And.imp_right (Option.any_eq_true _ _).mp), ?_⟩
    exact after_literal ht rfl (fun c hc => (hrest c hc).1) fun hpoint => (hrest _ hpoint).2 rfl

/-- An imaginary literal that has been found, and a hexadecimal one in front of a blank. -/
theorem literals_found_exactly_marked :
    (after (ascii '1') (text "_0.5e+3j)") = .ok (.imaginary, text ")") ∧
      ∃ t, text "1_0.5e+3j)" = t ++ text ")" ∧ IsLiteral .imaginary t) ∧
    IsLiteral .integer (text "0X_1fF") ∧
      ∃ b s, text "0X_1fF" = b :: s ∧ after b (s ++ text " ") = .ok (.integer, text " ") := by
  have hafter : after (ascii '1') (text "_0.5e+3j)") = .ok (.imaginary, text ")") := rfl
  have hmarker : ascii 'X' ∈ NumberBase.hexadecimal.markers := by decide
  have hdigit : ascii '1' ∈ NumberBase.hexadecimal.alphabet := by decide
  have hliteral : IsLiteral .integer (text "0X_1fF") :=
    .integer (.marked hmarker (.underscore hdigit (.digit (by decide) (.digit (by decide) .nil)))
      (by decide))
  have hblank : ∀ c ∈ (text " ").head?,
      ¬ (c.isLetter ∨ c.isDigit ∨ c = Byte.underscore ∨ c.isNonAscii) ∧ c ≠ ascii '.' := by
    rintro c ⟨⟩
    decide
  obtain ⟨t, hsplit, ht, -⟩ := literals_found_exactly.1 (.inl (by decide)) hafter
  obtain ⟨b, s, hs, -, hfound⟩ := literals_found_exactly.2 hliteral hblank
  exact ⟨⟨hafter, t, hsplit, ht⟩, hliteral, b, s, hs, hfound⟩

end Number

end SyntaxTree
