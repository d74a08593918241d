import SyntaxTree.Number.Binary64
import SyntaxTree.Text.Bytes

/-
# Decimal digits of binary numbers

A positive rational rounded to a number of significant decimal digits, and the fewest digits whose
nearest binary64 number is the one they were taken from.
-/

namespace SyntaxTree

/-- The decimal number `digits · 10 ^ exponent`. -/
structure Decimal where
  digits : Nat
  exponent : Int
  deriving DecidableEq, Repr

namespace Decimal

/-- The value of a decimal number. -/
def value (d : Decimal) : Ratio := .ofPower d.digits 10 d.exponent

/-- How many decimal digits a number has. -/
def length (n : Nat) : Nat := (Bytes.ofNat n).length

/-- The exponent of the power of ten at or below a positive rational. -/
def leadingExponent (r : Ratio) : Int :=
  let estimate : Int := (length r.num : Int) - length r.den
  if r.atLeastPower 10 estimate then estimate else estimate - 1

/-- A positive rational rounded to `places` significant digits. -/
def significant (places : Nat) (r : Ratio) : Decimal :=
  let last := leadingExponent r - places + 1
  let digits := (r.divPower 10 last).round
  if digits < Nat.pow 10 places then ⟨digits, last⟩ else ⟨digits / 10, last + 1⟩

/-- The fewest significant digits, at least `places` and at most `places + more`, that read back as
`x`; with no more to add, the digits at hand are taken. -/
def shortestFrom (x : Binary64) (r : Ratio) : (more places : Nat) → Decimal
  | 0, places => significant places r
  | more + 1, places =>
    let candidate := significant places r
    if Binary64.nearest candidate.value = x then candidate
    else shortestFrom x r more (places + 1)

/-- The fewest significant digits, at most seventeen, whose nearest number is the positive number
`x` of value `r`. -/
def shortest (x : Binary64) (r : Ratio) : Decimal := shortestFrom x r 16 1

/-- The digits without trailing zeros, one digit at least. -/
def trimZeros (digits : Bytes) : Bytes :=
  match digits with
  | [] => []
  | first :: rest => first :: (rest.reverse.dropWhile (· = ascii '0')).reverse

end Decimal

end SyntaxTree
