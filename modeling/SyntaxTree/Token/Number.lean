import SyntaxTree.Token.Basic

/-
# Numeric literals

An integer is decimal, or binary, octal or hexadecimal behind its marker; a floating-point literal
has a point or an exponent; an imaginary literal ends in the letter `j`.  Single underscores may
stand between digits and behind the marker of a base.  A literal must not run into a name.
-/

namespace SyntaxTree.Number

/-- What follows the digits that a text begins with.  An underscore is allowed where `underscore`
says so, and only in front of another digit. -/
def afterDigits (base : NumberBase) : (underscore : Bool) → Bytes → Except LexicalCause Bytes
  | _, [] => .ok []
  | underscore, b :: s =>
    if b = Byte.underscore then
      match s with
      | [] => .error (.invalidNumber base)
      | next :: _ =>
        if underscore && base.isDigit next then afterDigits base true s
        else .error (.invalidNumber base)
    else if base.isDigit b then afterDigits base true s
    else .ok (b :: s)

/-- Whether a text begins with a character that could continue a name. -/
def runsIntoName : Bytes → Bool
  | [] => false
  | b :: _ => b.isLetter || b.isDigit || b == Byte.underscore || b.isNonAscii

/-- What follows an integer literal whose marker has been read. -/
def afterMarked (base : NumberBase) (s : Bytes) : Except LexicalCause Bytes :=
  afterDigits base true s >>= fun rest =>
    match rest with
    | [] => if s = [] then .error (.invalidNumber base) else .ok []
    | b :: tail =>
      if (b :: tail).length = s.length then .error (.invalidNumber base)
      else if runsIntoName (b :: tail) then .error (.invalidDigit b base)
      else .ok (b :: tail)

/-- What follows the digits in front of a point, where the literal begins with `b`; it may begin
with its point. -/
def afterWhole (b : Byte) (s : Bytes) : Except LexicalCause Bytes :=
  if b = ascii '.' then .ok (b :: s) else afterDigits .decimal true s

/-- What follows the fraction part, if there is one: its point and any digits. -/
def afterFraction (s : Bytes) : Except LexicalCause Bytes :=
  match s with
  | b :: rest => if b = ascii '.' then afterDigits .decimal false rest else .ok s
  | [] => .ok []

/-- What follows the exponent part, if there is one: its letter, an optional sign and digits. -/
def afterExponent (s : Bytes) : Except LexicalCause Bytes :=
  match s with
  | b :: rest =>
    if b.toLower = ascii 'e' then
      let digits := match rest with
        | sign :: unsigned => if sign = ascii '+' ∨ sign = ascii '-' then unsigned else rest
        | [] => rest
      match digits with
      | d :: _ =>
        if d.isDigit then afterDigits .decimal false digits else .error (.invalidNumber .decimal)
      | [] => .error (.invalidNumber .decimal)
    else .ok s
  | [] => .ok []

/-- Whether digits begin with a zero and do not denote zero. -/
def hasLeadingZero (digits : Bytes) : Bool :=
  digits.head? == some (ascii '0') && digits.any (· ≠ ascii '0')

/-- The kind of a literal by its end: the letter of an imaginary literal, or the end itself.
`whole` are the digits of the literal without underscores if it has no point and no exponent. -/
def afterSuffix (whole : Option Bytes) (s : Bytes) : Except LexicalCause (TokenKind × Bytes) :=
  if s.head?.any (·.toLower = ascii 'j') then .ok (.imaginary, s.tail)
  else
    match whole with
    | none => .ok (.float, s)
    | some digits => if hasLeadingZero digits then .error .leadingZeros else .ok (.integer, s)

/-- The kind of a literal without base marker that begins with `b`, and what follows it. -/
def afterDecimal (b : Byte) (s : Bytes) : Except LexicalCause (TokenKind × Bytes) := do
  let point ← afterWhole b s
  let exponent ← afterFraction point
  let suffix ← afterExponent exponent
  let digits := ((b :: s).take (s.length + 1 - point.length)).filter (· ≠ Byte.underscore)
  let whole := if suffix.length = point.length then some digits else none
  let (kind, rest) ← afterSuffix whole suffix
  if runsIntoName rest then .error (.invalidNumber .decimal) else .ok (kind, rest)

/-- The kind of the numeric literal that begins with `b`, and what follows it. -/
def after (b : Byte) (s : Bytes) : Except LexicalCause (TokenKind × Bytes) :=
  match s with
  | marker :: rest =>
    match if b = ascii '0' then NumberBase.ofMarker? marker else none with
    | some base => (afterMarked base rest).map (TokenKind.integer, ·)
    | none => afterDecimal b s
  | [] => afterDecimal b s

/-! ## What follows a literal is a suffix -/

theorem suffix_of_afterDigits {base : NumberBase} {underscore : Bool} {s rest : Bytes}
    (h : afterDigits base underscore s = .ok rest) : rest <:+ s := by
  fun_induction afterDigits base underscore s with
  | case1 =>
    obtain rfl := Except.ok.inj h
    exact List.suffix_refl []
  | case2 => cases h
  | case3 underscore next tail hdigit ih => exact (ih h).trans (List.suffix_cons _ _)
  | case4 => cases h
  | case5 underscore b s hunderscore hdigit ih => exact (ih h).trans (List.suffix_cons b s)
  | case6 underscore b s =>
    obtain rfl := Except.ok.inj h
    exact List.suffix_refl (b :: s)

theorem suffix_of_afterMarked {base : NumberBase} {s rest : Bytes}
    (h : afterMarked base s = .ok rest) : rest <:+ s := by
  obtain ⟨digits, hdigits, h⟩ := exists_of_bind_eq_ok h
  -- What the digits leave is either refused or left as it is.
  have hkept : digits = rest := by
    cases digits with
    | nil =>
      dsimp only at h
      split at h
      · cases h
      · exact Except.ok.inj h
    | cons b tail =>
      dsimp only at h
      split at h
      · cases h
      · split at h
        · cases h
        · exact Except.ok.inj h
  exact hkept ▸ suffix_of_afterDigits hdigits

theorem suffix_of_afterFraction {s rest : Bytes} (h : afterFraction s = .ok rest) :
    rest <:+ s := by
  cases s with
  | nil =>
    obtain rfl := Except.ok.inj h
    exact List.suffix_refl []
  | cons b s =>
    rw [afterFraction] at h
    split at h
    · exact (suffix_of_afterDigits h).trans (List.suffix_cons b s)
    · obtain rfl := Except.ok.inj h
      exact List.suffix_refl (b :: s)

theorem suffix_of_afterExponent {s rest : Bytes} (h : afterExponent s = .ok rest) :
    rest <:+ s := by
  unfold afterExponent at h
  cases s with
  | nil =>
    obtain rfl := Except.ok.inj h
    exact List.suffix_refl []
  | cons b s =>
    dsimp only at h
    split at h
    · cases s with
      | nil => cases h
      | cons sign unsigned =>
        dsimp only at h
        generalize hdigits : (if sign = ascii '+' ∨ sign = ascii '-' then unsigned
          else sign :: unsigned) = digits at h
        have hsign : digits <:+ sign :: unsigned := by
          rw [← hdigits]
          split
          · exact List.suffix_cons sign unsigned
          · exact List.suffix_refl (sign :: unsigned)
        cases digits with
        | nil => cases h
        | cons d tail =>
          dsimp only at h
          split at h
          · exact ((suffix_of_afterDigits h).trans hsign).trans (List.suffix_cons b _)
          · cases h
    · obtain rfl := Except.ok.inj h
      exact List.suffix_refl (b :: s)

theorem suffix_of_afterSuffix {whole : Option Bytes} {kind : TokenKind} {s rest : Bytes}
    (h : afterSuffix whole s = .ok (kind, rest)) : rest <:+ s := by
  unfold afterSuffix at h
  split at h
  · cases h
    exact List.tail_suffix s
  · split at h
    · cases h
      exact List.suffix_refl s
    · split at h
      · cases h
      · cases h
        exact List.suffix_refl s

/-- The digits and the fraction use up the first byte. -/
theorem suffix_of_afterWhole {b : Byte} {s point rest : Bytes} (hpoint : afterWhole b s = .ok point)
    (h : afterFraction point = .ok rest) : rest <:+ s := by
  unfold afterWhole at hpoint
  split at hpoint
  · next hb =>
    obtain rfl : b :: s = point := by simpa using hpoint
    simp only [afterFraction, hb, ↓reduceIte] at h
    exact suffix_of_afterDigits h
  · exact (suffix_of_afterFraction h).trans (suffix_of_afterDigits hpoint)

theorem suffix_of_afterDecimal {kind : TokenKind} {b : Byte} {s rest : Bytes}
    (h : afterDecimal b s = .ok (kind, rest)) : rest <:+ s := by
  unfold afterDecimal at h
  obtain ⟨point, hpoint, h⟩ := exists_of_bind_eq_ok h
  obtain ⟨exponent, hexponent, h⟩ := exists_of_bind_eq_ok h
  obtain ⟨suffix, hsuffix, h⟩ := exists_of_bind_eq_ok h
  obtain ⟨⟨kind', rest'⟩, hrest, h⟩ := exists_of_bind_eq_ok h
  have same : rest' = rest := by
    dsimp only at h
    split at h
    · cases h
    · exact (Prod.mk.inj (Except.ok.inj h)).2
  exact same ▸ (suffix_of_afterSuffix hrest).trans
    ((suffix_of_afterExponent hsuffix).trans (suffix_of_afterWhole hpoint hexponent))

theorem suffix_of_after {kind : TokenKind} {b : Byte} {s rest : Bytes}
    (h : after b s = .ok (kind, rest)) : rest <:+ s := by
  unfold after at h
  split at h
  · split at h
    · obtain ⟨rest', hrest, h⟩ := exists_of_map_eq_ok h
      obtain ⟨-, rfl⟩ := Prod.mk.inj h
      exact (suffix_of_afterMarked hrest).trans (List.suffix_cons _ _)
    · exact suffix_of_afterDecimal h
  · exact suffix_of_afterDecimal h

end SyntaxTree.Number
