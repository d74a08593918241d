import SyntaxTree.Text.Bytes

/-
# Operators

The operators of expressions, each with its spelling and its name, in the order in which they are
listed.
-/

namespace SyntaxTree

/-- The operators between two operands. -/
inductive BinaryOperator where
  | add | sub | mul | matMul | div | mod | pow
  | shiftLeft | shiftRight | bitOr | bitXor | bitAnd | floorDiv
  deriving DecidableEq, Repr

/-- The operators in front of one operand. -/
inductive UnaryOperator where
  | invert | not | plus | minus
  deriving DecidableEq, Repr

/-- The operators that join conditions. -/
inductive BoolOperator where
  | and | or
  deriving DecidableEq, Repr

/-- The operators of comparisons. -/
inductive CompareOperator where
  | equal | notEqual | less | lessEqual | greater | greaterEqual | is | isNot | member | notMember
  deriving DecidableEq, Repr

namespace BinaryOperator

/-- All binary operators. -/
def all : List BinaryOperator :=
  [.add, .sub, .mul, .matMul, .div, .mod, .pow, .shiftLeft, .shiftRight, .bitOr, .bitXor, .bitAnd,
    .floorDiv]

/-- The spelling of an operator. -/
def symbol : BinaryOperator → Bytes
  | add => text "+"
  | sub => text "-"
  | mul => text "*"
  | matMul => text "@"
  | div => text "/"
  | mod => text "%"
  | pow => text "**"
  | shiftLeft => text "<<"
  | shiftRight => text ">>"
  | bitOr => text "|"
  | bitXor => text "^"
  | bitAnd => text "&"
  | floorDiv => text "//"

/-- The name of an operator. -/
def name : BinaryOperator → Bytes
  | add => text "Add"
  | sub => text "Sub"
  | mul => text "Mult"
  | matMul => text "MatMult"
  | div => text "Div"
  | mod => text "Mod"
  | pow => text "Pow"
  | shiftLeft => text "LShift"
  | shiftRight => text "RShift"
  | bitOr => text "BitOr"
  | bitXor => text "BitXor"
  | bitAnd => text "BitAnd"
  | floorDiv => text "FloorDiv"

end BinaryOperator

namespace UnaryOperator

/-- All unary operators. -/
def all : List UnaryOperator := [.invert, .not, .plus, .minus]

/-- The spelling of an operator. -/
def symbol : UnaryOperator → Bytes
  | invert => text "~"
  | not => text "not"
  | plus => text "+"
  | minus => text "-"

/-- The name of an operator. -/
def name : UnaryOperator → Bytes
  | invert => text "Invert"
  | not => text "Not"
  | plus => text "UAdd"
  | minus => text "USub"

end UnaryOperator

namespace BoolOperator

/-- All operators that join conditions. -/
def all : List BoolOperator := [.and, .or]

/-- The spelling of an operator. -/
def symbol : BoolOperator → Bytes
  | and => text "and"
  | or => text "or"

/-- The name of an operator. -/
def name : BoolOperator → Bytes
  | and => text "And"
  | or => text "Or"

end BoolOperator

namespace CompareOperator

/-- All operators of comparisons. -/
def all : List CompareOperator :=
  [.equal, .notEqual, .less, .lessEqual, .greater, .greaterEqual, .is, .isNot, .member, .notMember]

/-- The spelling of an operator. -/
def symbol : CompareOperator → Bytes
  | equal => text "=="
  | notEqual => text "!="
  | less => text "<"
  | lessEqual => text "<="
  | greater => text ">"
  | greaterEqual => text ">="
  | is => text "is"
  | isNot => text "is not"
  | member => text "in"
  | notMember => text "not in"

/-- The name of an operator. -/
def name : CompareOperator → Bytes
  | equal => text "Eq"
  | notEqual => text "NotEq"
  | less => text "Lt"
  | lessEqual => text "LtE"
  | greater => text "Gt"
  | greaterEqual => text "GtE"
  | is => text "Is"
  | isNot => text "IsNot"
  | member => text "In"
  | notMember => text "NotIn"

end CompareOperator

end SyntaxTree
