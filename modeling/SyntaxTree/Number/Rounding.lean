/-
# Rounding of quotients

A positive rational number is a pair of a numerator and a denominator.  Rounding is to the nearest
integer, and a tie goes to the even one.
-/

namespace SyntaxTree

/-- The positive rational number `num / den`. -/
structure Ratio where
  num : Nat
  den : Nat
  deriving DecidableEq, Repr

namespace Ratio

/-- The number `value · base ^ exponent`. -/
def ofPower (value base : Nat) : Int → Ratio
  | .ofNat n => ⟨value * base.pow n, 1⟩
  | .negSucc n => ⟨value, base.pow (n + 1)⟩

/-- The number divided by `base ^ exponent`. -/
def divPower (r : Ratio) (base : Nat) : Int → Ratio
  | .ofNat n => ⟨r.num, r.den * base.pow n⟩
  | .negSucc n => ⟨r.num * base.pow (n + 1), r.den⟩

/-- The nearest integer; a tie goes to the even one. -/
def round (r : Ratio) : Nat :=
  let quotient := r.num / r.den
  let twice := 2 * (r.num % r.den)
  if twice < r.den then quotient
  else if r.den < twice then quotient + 1
  else quotient + quotient % 2

/-- Whether the number is at least `base ^ exponent`. -/
def atLeastPower (r : Ratio) (base : Nat) (exponent : Int) : Bool :=
  let scaled := r.divPower base exponent
  scaled.den ≤ scaled.num

end Ratio

end SyntaxTree
