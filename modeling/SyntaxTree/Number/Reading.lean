import SyntaxTree.Number.Decimal

/-
# Reading floating-point numerals

The longest prefix of a text that is a numeral gives the number; what follows is ignored, and a text
without a numeral reads as zero.  Numerals are decimal or, behind `0x`, hexadecimal with a binary
exponent; the words for infinite numbers and for what is not a number are read in either case.
-/

namespace SyntaxTree.Numeral

/-- The value of a digit in any base up to sixteen. -/
def digitValue (b : Byte) : Nat :=
  if b.isDigit then b.toNat - 48 else b.toLower.toNat - 87

/-- The number that digits denote in a base. -/
def ofDigits (base : Nat) (digits : Bytes) : Nat :=
  digits.foldl (fun n b => n * base + digitValue b) 0

/-- An optional sign: whether it is a minus, and what follows. -/
def readSign : Bytes → Bool × Bytes
  | b :: s =>
    if b = ascii '-' then (true, s) else if b = ascii '+' then (false, s) else (false, b :: s)
  | [] => (false, [])

/-- The exponent part behind one of the letters of `mark`; zero if there is none. -/
def readExponent (mark : Byte → Bool) : Bytes → Int
  | [] => 0
  | b :: s =>
    let (isNegative, s) := readSign s
    let digits := s.takeWhile Byte.isDigit
    if mark b ∧ digits ≠ [] then
      let magnitude : Int := ofDigits 10 digits
      if isNegative then -magnitude else magnitude
    else 0

/-- Digits around an optional point: those before, those after, and what follows. -/
def readMantissa (isDigit : Byte → Bool) (s : Bytes) : Bytes × Bytes × Bytes :=
  let whole := s.takeWhile isDigit
  let rest := s.dropWhile isDigit
  match rest with
  | b :: tail =>
    if b = ascii '.' then
      let fraction := tail.takeWhile isDigit
      if whole = [] ∧ fraction = [] then (whole, [], rest)
      else (whole, fraction, tail.dropWhile isDigit)
    else (whole, [], rest)
  | [] => (whole, [], [])

/-- The number nearest to `digits · base ^ exponent`, where `digits` has the given length as a
numeral in that base.  Numbers far beyond the range are settled without their powers. -/
def scaled (base digits length : Nat) (exponent : Int) : Binary64 :=
  if digits = 0 then .zero
  else if 1100 < exponent + length then .infinity
  else if exponent + length < -1200 then .zero
  else .nearest (.ofPower digits base exponent)

/-- A decimal numeral without sign, if the text begins with one. -/
def readDecimal? (s : Bytes) : Option Binary64 :=
  let (whole, fraction, rest) := readMantissa Byte.isDigit s
  let digits := (whole ++ fraction).dropWhile (· = ascii '0')
  if whole = [] ∧ fraction = [] then none
  else
    let exponent := readExponent (fun b => b.toLower = ascii 'e') rest
    some (scaled 10 (ofDigits 10 digits) digits.length (exponent - fraction.length))

/-- A hexadecimal numeral without sign, if the text begins with one. -/
def readHexadecimal? (s : Bytes) : Option Binary64 :=
  match s with
  | zero :: x :: s =>
    if zero = ascii '0' ∧ x.toLower = ascii 'x' then
      let (whole, fraction, rest) := readMantissa Byte.isHexDigit s
      let digits := ofDigits 16 (whole ++ fraction)
      if whole = [] ∧ fraction = [] then none
      else
        let exponent := readExponent (fun b => b.toLower = ascii 'p') rest
        let places : Int := 4 * fraction.length
        some (scaled 2 digits (digits.log2 + 1) (exponent - places))
    else none
  | _ => none

/-- A word for an infinite number or for what is not a number. -/
def readWord? (s : Bytes) : Option Binary64 :=
  let start := Bytes.toLower (s.take 3)
  if start = text "inf" then some .infinity
  else if start = text "nan" then some .notANumber
  else none

/-- White space in front of a numeral. -/
def isSpace (b : Byte) : Bool := b = Byte.space ∨ (9 ≤ b ∧ b ≤ 13)

/-- The number that the text begins with; zero if there is none.  A NUL byte ends the text. -/
def read (s : Bytes) : Binary64 :=
  let (isNegative, s) := readSign (s.untilNul.dropWhile isSpace)
  match readWord? s <|> readHexadecimal? s <|> readDecimal? s with
  | some x => x.withSign isNegative
  | none => .zero

end SyntaxTree.Numeral
