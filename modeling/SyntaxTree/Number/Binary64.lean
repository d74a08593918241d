import SyntaxTree.Number.Rounding

/-
# Binary floating-point numbers

A number of the interchange format binary64 is its 64 bits: a sign, eleven bits of exponent and
fifty-two bits of fraction.  All arithmetic on its value is exact arithmetic on natural numbers.
-/

namespace SyntaxTree

/-- A binary64 number, given by its bits. -/
structure Binary64 where
  bits : UInt64
  deriving DecidableEq, Repr

namespace Binary64

/-- What the magnitude of a number is, its sign aside. -/
inductive Magnitude where
  | nan
  | infinite
  /-- The finite number `significand · 2 ^ exponent`. -/
  | finite (significand : Nat) (exponent : Int)
  deriving DecidableEq, Repr

/-- The sign bit. -/
def isNegative (x : Binary64) : Bool := x.bits ≥ 0x8000000000000000

/-- The bits without the sign. -/
def magnitudeBits (x : Binary64) : Nat := x.bits.toNat % Nat.pow 2 63

/-- The magnitude of a number. -/
def magnitude (x : Binary64) : Magnitude :=
  let exponent : Nat := x.magnitudeBits / Nat.pow 2 52
  let fraction := x.magnitudeBits % Nat.pow 2 52
  if exponent = 0x7FF then
    if fraction = 0 then .infinite else .nan
  else if exponent = 0 then .finite fraction (-1074)
  else .finite (Nat.pow 2 52 + fraction) (exponent - 1075)

/-- Positive zero. -/
def zero : Binary64 := ⟨0⟩

/-- Positive infinity. -/
def infinity : Binary64 := ⟨0x7FF0000000000000⟩

/-- A quiet number that is not a number. -/
def notANumber : Binary64 := ⟨0x7FF8000000000000⟩

/-- The number with its sign bit set. -/
def negative (x : Binary64) : Binary64 := ⟨x.bits ||| 0x8000000000000000⟩

/-- The number with the sign given. -/
def withSign (x : Binary64) (isNegative : Bool) : Binary64 :=
  if isNegative then x.negative else x

/-- The exponent of the last place of the binary64 number nearest to a positive rational: the
significand has 53 bits, or fewer if the exponent would fall below -1074. -/
def lastPlace (r : Ratio) : Int :=
  let estimate : Int := (r.num.log2 : Int) - r.den.log2 - 52
  let exact := if r.atLeastPower 2 (estimate + 52) then estimate else estimate - 1
  max exact (-1074)

/-- The number nearest to a rational; ties go to the even significand, and what is too large becomes
infinite. -/
def nearest (r : Ratio) : Binary64 :=
  if r.num = 0 then zero
  else
    let exponent := lastPlace r
    let bits := (exponent + 1074).toNat * Nat.pow 2 52 + (r.divPower 2 exponent).round
    if bits < 0x7FF0000000000000 then ⟨bits.toUInt64⟩ else infinity

end Binary64

end SyntaxTree
