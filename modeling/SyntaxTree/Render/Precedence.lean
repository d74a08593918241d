import SyntaxTree.Tree.Basic

/-
# Precedence

How strongly an expression holds together.  An expression that binds more loosely than its place
demands is written in parentheses.
-/

namespace SyntaxTree

/-- The strengths of expressions, the loosest first. -/
inductive Precedence where
  | named | tuple | yield
  /-- Conditional expressions and lambdas. -/
  | test
  | or | and | not | comparison | bitOr | bitXor | bitAnd | shift | sum | product | factor | power
  | await | atom
  deriving DecidableEq, Repr

namespace Precedence

/-- All strengths, the loosest first. -/
def all : List Precedence :=
  [.named, .tuple, .yield, .test, .or, .and, .not, .comparison, .bitOr, .bitXor, .bitAnd, .shift,
    .sum, .product, .factor, .power, .await, .atom]

/-- The place of a strength among all. -/
def rank : Precedence → Nat
  | named => 0
  | tuple => 1
  | yield => 2
  | test => 3
  | or => 4
  | and => 5
  | not => 6
  | comparison => 7
  | bitOr => 8
  | bitXor => 9
  | bitAnd => 10
  | shift => 11
  | sum => 12
  | product => 13
  | factor => 14
  | power => 15
  | await => 16
  | atom => 17

instance : LE Precedence := ⟨fun p q => p.rank ≤ q.rank⟩

instance (p q : Precedence) : Decidable (p ≤ q) := inferInstanceAs (Decidable (p.rank ≤ q.rank))

end Precedence

/-- The strength of a binary operation. -/
def BinaryOperator.precedence : BinaryOperator → Precedence
  | bitOr => .bitOr
  | bitXor => .bitXor
  | bitAnd => .bitAnd
  | shiftLeft | shiftRight => .shift
  | add | sub => .sum
  | mul | matMul | div | mod | floorDiv => .product
  | pow => .power

/-- What the left operand of a binary operation must bind like; a power is left to its right. -/
def BinaryOperator.leftPrecedence : BinaryOperator → Precedence
  | bitOr => .bitOr
  | bitXor => .bitXor
  | bitAnd => .bitAnd
  | shiftLeft | shiftRight => .shift
  | add | sub => .sum
  | mul | matMul | div | mod | floorDiv => .product
  | pow => .await

/-- What the right operand of a binary operation must bind like. -/
def BinaryOperator.rightPrecedence : BinaryOperator → Precedence
  | bitOr => .bitXor
  | bitXor => .bitAnd
  | bitAnd => .shift
  | shiftLeft | shiftRight => .sum
  | add | sub => .product
  | mul | matMul | div | mod | floorDiv => .factor
  | pow => .factor

/-- The strength of conditions joined by an operator. -/
def BoolOperator.precedence : BoolOperator → Precedence
  | and => .and
  | or => .or

/-- What the conditions joined by an operator must bind like. -/
def BoolOperator.operandPrecedence : BoolOperator → Precedence
  | and => .not
  | or => .and

/-- The strength of a unary operation, which its operand must have too. -/
def UnaryOperator.precedence : UnaryOperator → Precedence
  | not => .not
  | _ => .factor

/-- The strength of an expression. -/
def Expr.Shape.precedence : Expr.Shape → Precedence
  | .boolean op _ => op.precedence
  | .named .. => .named
  | .binary op .. => op.precedence
  | .unary op _ => op.precedence
  | .lambda .. | .conditional .. => .test
  | .tuple [] _ => .atom
  | .tuple .. => .tuple
  | .await _ => .await
  | .yield _ | .yieldFrom _ => .yield
  | .compare .. => .comparison
  | _ => .atom

end SyntaxTree
