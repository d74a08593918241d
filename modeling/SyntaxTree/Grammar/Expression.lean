import SyntaxTree.Grammar.Phrase
import SyntaxTree.Grammar.Text
import SyntaxTree.Token.Layout

/-
# The grammar of expressions

The levels of the grammar from what binds strongest to what binds weakest.  Each level is built on
the one before it; only behind a token that has been taken does a level read an expression of a
weaker one, and the tokens ahead bound how often that can happen.
-/

namespace SyntaxTree.Parse

/-! ## Atoms -/

/-- The expression that a single token forms. -/
def atomOf (token : Token) (value : Constant) : Parse Expr := do
  let _ ← next
  exprFrom token.start (.constant value)

/-- The truth value that a token spells. -/
def isTrueWord (token : Token) : Bool := token.text == text "True"

/-- A number. -/
def numberOf (token : Token) : Parse Expr :=
  exprFrom token.start (.constant (Literal.number token))

/-- A name, a literal, or an expression in brackets. -/
def atom (read : Reading) (field : FieldReading) : Parse Expr := do
  let token ← peek
  match token.kind with
  | .identifier => nameOf (← next) .load
  | .noneWord => atomOf token .none
  | .boolean => atomOf token (.boolean (isTrueWord token))
  | .ellipsis => atomOf token .ellipsis
  | .integer | .float | .imaginary => numberOf (← next)
  | .string | .bytes | .fstring => strings field
  | .openParen => parenthesized read (← next).start
  | .openBracket => listDisplay read (← next).start
  | .openBrace => braceDisplay read (← next).start
  | .newline | .endOfInput | .dedent => failAtToken (.noExpression true) token
  | _ => failAtToken (.noExpression false) token

/-! ## Operators that stand behind or in front -/

/-- An attribute, a call or a subscript of an expression, if one follows. -/
def trailer (read : Reading) (value : Expr) : Parse (ForInStep Expr) := do
  if ← accept .dot then
    let name ← expectName .attributeName
    return .yield (← exprFrom value.span.start (.attribute value name.text .load))
  else if ← accept .openParen then
    let ⟨positional, keywords⟩ ← arguments read
    return .yield (← exprFrom value.span.start (.call value positional keywords))
  else if ← accept .openBracket then
    let index ← slices read
    expect .subscriptClose
    return .yield (← exprFrom value.span.start (.subscript value index .load))
  else return .done value

/-- An atom with its attributes, calls and subscripts. -/
def primary (read : Reading) (field : FieldReading) : Parse Expr := do
  iterate (trailer read) (← atom read field)

/-- A primary that may be awaited. -/
def awaited (read : Reading) (field : FieldReading) : Parse Expr := do
  if ← at? .kwAwait then
    let start ← next
    let value ← primary read field
    exprFrom start.start (.await value)
  else primary read field

/-- A power; its exponent may have a sign. -/
def power (read : Reading) (field : FieldReading) : Parse Expr := do
  let base ← awaited read field
  if ← accept .doubleStar then
    let exponent ← read .factor
    exprFrom base.span.start (.binary .pow base exponent)
  else return base

/-- The operator of a sign. -/
def signOf? : TokenKind → Option UnaryOperator
  | .plus => some .plus
  | .minus => some .minus
  | .tilde => some .invert
  | _ => none

/-- A sign and its operand, or a power. -/
def factor (read : Reading) (field : FieldReading) : Parse Expr := do
  match signOf? (← kind) with
  | some op =>
    let start ← next
    let operand ← read .factor
    exprFrom start.start (.unary op operand)
  | none => power read field

/-! ## Operators between operands -/

/-- An operator and its right operand behind a left one, if they follow. -/
def operation (op? : TokenKind → Option BinaryOperator) (operand : Parse Expr) (left : Expr) :
    Parse (ForInStep Expr) := do
  match op? (← kind) with
  | some op =>
    let _ ← next
    let right ← operand
    return .yield (← exprFrom left.span.start (.binary op left right))
  | none => return .done left

/-- Operands joined by operators that associate to the left. -/
def leftAssociative (op? : TokenKind → Option BinaryOperator) (operand : Parse Expr) :
    Parse Expr := do
  iterate (operation op? operand) (← operand)

/-- The operators of products. -/
def productOf? : TokenKind → Option BinaryOperator
  | .star => some .mul
  | .slash => some .div
  | .doubleSlash => some .floorDiv
  | .percent => some .mod
  | .atSign => some .matMul
  | _ => none

/-- The operators of sums. -/
def sumOf? : TokenKind → Option BinaryOperator
  | .plus => some .add
  | .minus => some .sub
  | _ => none

/-- The operators of shifts. -/
def shiftOf? : TokenKind → Option BinaryOperator
  | .shiftLeft => some .shiftLeft
  | .shiftRight => some .shiftRight
  | _ => none

/-- The operator of bitwise conjunctions. -/
def bitAndOf? : TokenKind → Option BinaryOperator
  | .ampersand => some .bitAnd
  | _ => none

/-- The operator of bitwise exclusive disjunctions. -/
def bitXorOf? : TokenKind → Option BinaryOperator
  | .caret => some .bitXor
  | _ => none

/-- The operator of bitwise disjunctions. -/
def bitOrOf? : TokenKind → Option BinaryOperator
  | .pipe => some .bitOr
  | _ => none

/-- A product. -/
def product (read : Reading) (field : FieldReading) : Parse Expr :=
  leftAssociative productOf? (factor read field)

/-- A sum. -/
def sum (read : Reading) (field : FieldReading) : Parse Expr :=
  leftAssociative sumOf? (product read field)

/-- A shift. -/
def shift (read : Reading) (field : FieldReading) : Parse Expr :=
  leftAssociative shiftOf? (sum read field)

/-- A bitwise conjunction. -/
def bitAnd (read : Reading) (field : FieldReading) : Parse Expr :=
  leftAssociative bitAndOf? (shift read field)

/-- A bitwise exclusive disjunction. -/
def bitXor (read : Reading) (field : FieldReading) : Parse Expr :=
  leftAssociative bitXorOf? (bitAnd read field)

/-- A bitwise disjunction: the operand of comparisons. -/
def bitOr (read : Reading) (field : FieldReading) : Parse Expr :=
  leftAssociative bitOrOf? (bitXor read field)

/-! ## Conditions -/

/-- Takes the operator of a comparison if one stands at the cursor. -/
def compareOperator : Parse (Option CompareOperator) := do
  match ← kind with
  | .kwNot =>
    if (← kindAt 1) == .kwIn then
      let _ ← next
      let _ ← next
      return some .notMember
    else return none
  | .kwIs =>
    let _ ← next
    return some (if ← accept .kwNot then .isNot else .is)
  | .equalEqual => take .equal
  | .notEqual => take .notEqual
  | .less => take .less
  | .lessEqual => take .lessEqual
  | .greater => take .greater
  | .greaterEqual => take .greaterEqual
  | .kwIn => take .member
  | _ => return none
where
  /-- Takes the one token of an operator. -/
  take (op : CompareOperator) : Parse (Option CompareOperator) := do
    let _ ← next
    return some op

/-- A further comparison of a chain, if one follows: its operator and its operand. -/
def comparisonStep (operand : Parse Expr) (chain : Columns CompareOperator Expr) :
    Parse (ForInStep (Columns CompareOperator Expr)) := do
  match ← compareOperator with
  | some op =>
    let chain := chain.addLeft op
    return .yield (chain.addRight (← operand))
  | none => return .done chain

/-- A chain of comparisons, or a single operand. -/
def comparison (read : Reading) (field : FieldReading) : Parse Expr := do
  let left ← bitOr read field
  let chain ← iterate (comparisonStep (bitOr read field)) .empty
  if chain.left.length = 0 then return left
  else exprFrom left.span.start (.compare left (chain.rows.map fun row => .mk row.1 row.2))

/-- A negation or a comparison. -/
def inversion (read : Reading) (field : FieldReading) : Parse Expr := do
  if ← at? .kwNot then
    let start ← next
    let operand ← read .inversion
    exprFrom start.start (.unary .not operand)
  else comparison read field

/-- A further condition behind a word, if it follows. -/
def furtherCondition (word : TokenKind) (operand : Parse Expr) : Parse (Option Expr) := do
  if ← accept word then return some (← operand) else return none

/-- Conditions joined by one operator, or a single condition. -/
def joined (op : BoolOperator) (word : TokenKind) (operand : Parse Expr) : Parse Expr := do
  let first ← operand
  let rest ← collect (furtherCondition word operand)
  if rest.length = 0 then return first
  else exprFrom first.span.start (.boolean op (first :: rest))

/-- Conditions joined by `and`. -/
def conjunction (read : Reading) (field : FieldReading) : Parse Expr :=
  joined .and .kwAnd (inversion read field)

/-- Conditions joined by `or`. -/
def disjunction (read : Reading) (field : FieldReading) : Parse Expr :=
  joined .or .kwOr (conjunction read field)

/-- A lambda, or a disjunction that may be one branch of a conditional expression. -/
def expression (read : Reading) (field : FieldReading) : Parse Expr := do
  if ← at? .kwLambda then lambda read
  else
    let body ← disjunction read field
    if ← accept .kwIf then
      let test ← read .disjunction
      expect .conditionalElse
      let orelse ← read .expression
      exprFrom body.span.start (.conditional test body orelse)
    else return body

/-! ## All levels together -/

/-- The expression of a goal, where `read` reads those within it. -/
def goal (read : Reading) (field : FieldReading) : Goal → Parse Expr
  | .expression => expression read field
  | .disjunction => disjunction read field
  | .inversion => inversion read field
  | .operand => bitOr read field
  | .factor => factor read field

/-- Reads expressions that are nested less than `limit` times, and gives up on others. -/
def readUpTo (field : FieldReading) : (limit : Nat) → Reading
  | 0, _ => failHere .unending
  | limit + 1, g => goal (readUpTo field limit) field g

/-- The nesting that the tokens ahead allow. -/
def limit : Parse Nat := return (← get).rest.length + 1

/-- An expression list up to the end of the input. -/
def wholeExpression (field : FieldReading) : Parse Expr := do
  let read := readUpTo field (← limit)
  skipNewlines
  if ← at? .endOfInput then failHere (.noExpression true)
  else
    let value ← starExpressions read
    skipNewlines
    if ← at? .endOfInput then return value else failHere .trailingTokens

/-! ## Replacement fields -/

end Parse

/-- The place in a source of a place in the text of a field, which begins at `start` and is read in
parentheses. -/
def Position.inField (start p : Position) : Position :=
  ⟨start.line + p.line - 1, if p.line = 1 then start.column + p.column - 2 else p.column⟩

/-- A token of a field, moved to its place in the source. -/
def Token.inField (start : Position) (token : Token) : Token :=
  { token with start := start.inField token.start, stop := start.inField token.stop }

namespace Parse

/-- Reads the expressions of replacement fields that are nested less than `depth` times, and gives
up on others.  The source of a field is divided into tokens on its own, in parentheses so that its
lines are joined. -/
def fieldUpTo (names : Unicode.CharacterNames) : (depth : Nat) → FieldReading
  | 0 => ⟨names, fun _ _ => failHere .unending⟩
  | depth + 1 => ⟨names, fun source place => do
    match tokenize false (text "(" ++ source ++ text ")") with
    | .error e => failAt (.fstring (.lexical e.cause)) place source
    | .ok tokens =>
      let tokens := tokens.map (·.inField place)
      match (wholeExpression (fieldUpTo names depth)).run (.ofTokens (← get).lines tokens) with
      | .ok value _ => return value
      | .error e _ => throw e⟩

/-! ## The tokens ahead -/

variable [names : Unicode.CharacterNames]

/-- Reads the fields of the tokens ahead.  A field is shorter than the literal around it, so the
longest token bounds the nesting. -/
def field : Parse FieldReading := do
  let longest := (← get).rest.foldl (fun n token => max n token.text.length) 0
  return fieldUpTo names (longest + 1)

/-- Reads the expressions ahead. -/
def reading : Parse Reading := return readUpTo (← field) (← limit)

/-- The expression that all tokens ahead form. -/
def onlyExpression : Parse Expr := do wholeExpression (← field)

end SyntaxTree.Parse
