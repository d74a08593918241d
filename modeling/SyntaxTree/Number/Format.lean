import SyntaxTree.Number.Decimal

/-
# Text of floating-point numbers

Numbers are written positionally from `0.0001` up to a bound that the format names, and with an
exponent of at least two digits outside of it.
-/

namespace SyntaxTree

/-- The decisions of a number format. -/
structure FloatFormat where
  /-- The digits to write for a positive number of the given value. -/
  digits : Binary64 → Ratio → Decimal
  /-- The least exponent that is written with an exponent part. -/
  positionalBelow : Int
  /-- What follows an integral number in positional notation. -/
  integralMark : Bytes
  /-- The text of positive zero. -/
  zero : Bytes
  /-- The text of positive infinity. -/
  infinity : Bytes
  /-- The text of what is not a number, by its sign. -/
  notANumber : Bool → Bytes

namespace FloatFormat

/-- Digits around a point: the first digit has the place value `10 ^ exponent`. -/
def positional (format : FloatFormat) (digits : Bytes) (exponent : Int) : Bytes :=
  let zeros (n : Nat) : Bytes := List.replicate n (ascii '0')
  if exponent < 0 then text "0." ++ zeros (-exponent - 1).toNat ++ digits
  else
    let width := exponent.toNat + 1
    if digits.length ≤ width then digits ++ zeros (width - digits.length) ++ format.integralMark
    else digits.take width ++ text "." ++ digits.drop width

/-- One digit, a point before any further ones, and the exponent with its sign. -/
def scientific (digits : Bytes) (exponent : Int) : Bytes :=
  let point := if digits.length ≤ 1 then [] else text "."
  let sign := if exponent < 0 then text "e-" else text "e+"
  let magnitude := Bytes.ofNat exponent.natAbs
  let padding := if exponent.natAbs < 10 then text "0" else []
  digits.take 1 ++ point ++ digits.drop 1 ++ sign ++ padding ++ magnitude

/-- The text of a positive decimal number. -/
def decimal (format : FloatFormat) (d : Decimal) : Bytes :=
  let digits := Bytes.ofNat d.digits
  let exponent := d.exponent + digits.length - 1
  let trimmed := Decimal.trimZeros digits
  if -4 ≤ exponent ∧ exponent < format.positionalBelow then
    format.positional trimmed exponent
  else scientific trimmed exponent

/-- The text of a number. -/
def write (format : FloatFormat) (x : Binary64) : Bytes :=
  let sign := if x.isNegative then text "-" else []
  match x.magnitude with
  | .nan => format.notANumber x.isNegative
  | .infinite => sign ++ format.infinity
  | .finite 0 _ => sign ++ format.zero
  | .finite significand exponent =>
    let value := Ratio.ofPower significand 2 exponent
    let digits := format.digits ⟨x.bits &&& 0x7FFFFFFFFFFFFFFF⟩ value
    sign ++ format.decimal digits

/-- Numbers in trees: seventeen digits, trailing zeros dropped. -/
def exact : FloatFormat where
  digits _ value := Decimal.significant 17 value
  positionalBelow := 17
  integralMark := []
  zero := text "0"
  infinity := text "inf"
  notANumber isNegative := if isNegative then text "-nan" else text "nan"

/-- Numbers in source text: the fewest digits that read back, always recognisable as a
floating-point literal.  An infinite number is a literal too large to be finite, and what is not a
number is the difference of two of them. -/
def source : FloatFormat where
  digits := Decimal.shortest
  positionalBelow := 16
  integralMark := text ".0"
  zero := text "0.0"
  infinity := text "1e309"
  notANumber _ := text "(1e309 - 1e309)"

/-- Imaginary literals in source text: as a floating-point literal without its `.0`. -/
def writeImaginary (x : Binary64) : Bytes :=
  match x.magnitude with
  | .nan => text "(1e309j - 1e309j)"
  | _ =>
    let written := source.write x
    let shown := if written.length > 2 ∧ text ".0" <:+ written then written.dropLast.dropLast
      else written
    shown ++ text "j"

end FloatFormat

end SyntaxTree
