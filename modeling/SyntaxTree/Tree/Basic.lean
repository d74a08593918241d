import SyntaxTree.Number.Binary64
import SyntaxTree.Text.Position
import SyntaxTree.Tree.Operator

/-
# Syntax trees

Expressions, patterns, statements and modules.  A node is a span and a shape: the shape says what
the node is and holds its parts.  Parts that belong together, such as a key and its value, are kept
together.
-/

namespace SyntaxTree

/-- Whether an expression is read, assigned to or deleted. -/
inductive Context where
  | load | store | delete
  deriving DecidableEq, Repr

/-- The value of a literal.  An integer is its decimal numeral, of any length. -/
inductive Constant where
  | none
  | boolean (value : Bool)
  | integer (digits : Bytes)
  | float (value : Binary64)
  /-- A complex number without real part. -/
  | imaginary (value : Binary64)
  | string (value : Bytes)
  | bytes (value : Bytes)
  | ellipsis
  deriving DecidableEq, Repr

/-- How the value of a replacement field becomes text. -/
inductive Conversion where
  | str | repr | ascii
  deriving DecidableEq, Repr

/-- The letter of a conversion. -/
def Conversion.letter : Conversion → Byte
  | str => SyntaxTree.ascii 's'
  | repr => SyntaxTree.ascii 'r'
  | ascii => SyntaxTree.ascii 'a'

/-! ## Expressions -/

mutual

/-- An expression. -/
inductive Expr where
  | node (span : Span) (shape : Expr.Shape)

/-- What an expression is. -/
inductive Expr.Shape where
  | name (id : Bytes) (context : Context)
  | constant (value : Constant)
  /-- Two or more conditions joined by one operator. -/
  | boolean (op : BoolOperator) (values : List Expr)
  /-- An assignment within an expression. -/
  | named (target value : Expr)
  | binary (op : BinaryOperator) (left right : Expr)
  | unary (op : UnaryOperator) (operand : Expr)
  | lambda (parameters : Parameters) (body : Expr)
  | conditional (test body orelse : Expr)
  | dict (items : List DictItem)
  | set (elements : List Expr)
  | list (elements : List Expr) (context : Context)
  | tuple (elements : List Expr) (context : Context)
  | listComp (element : Expr) (clauses : List Comprehension)
  | setComp (element : Expr) (clauses : List Comprehension)
  | dictComp (key value : Expr) (clauses : List Comprehension)
  | generator (element : Expr) (clauses : List Comprehension)
  | await (value : Expr)
  | yield (value : Option Expr)
  | yieldFrom (value : Expr)
  /-- A chain of comparisons. -/
  | compare (left : Expr) (rest : List Comparison)
  | call (callee : Expr) (arguments : List Expr) (keywords : List Keyword)
  /-- A replacement field of an f-string. -/
  | field (value : Expr) (conversion : Option Conversion) (spec : Option FormatSpec)
  /-- An f-string: literal parts and replacement fields. -/
  | fstring (values : List Expr)
  | attribute (value : Expr) (name : Bytes) (context : Context)
  | subscript (value index : Expr) (context : Context)
  | starred (value : Expr) (context : Context)
  | slice (lower upper step : Option Expr)

/-- An item of a dict display. -/
inductive DictItem where
  | entry (key value : Expr)
  | unpack (value : Expr)

/-- A further comparison of a chain. -/
inductive Comparison where
  | mk (op : CompareOperator) (operand : Expr)

/-- A clause of a comprehension: a loop and its conditions. -/
inductive Comprehension where
  | mk (span : Span) (target iterable : Expr) (conditions : List Expr) (isAsync : Bool)

/-- A keyword argument, or an unpacked mapping if it has no name. -/
inductive Keyword where
  | mk (span : Span) (name : Option Bytes) (value : Expr)

/-- The format specification of a replacement field. -/
inductive FormatSpec where
  | mk (span : Span) (values : List Expr)

/-- A parameter. -/
inductive Parameter where
  | mk (span : Span) (name : Bytes) (hint : Option Expr)

/-- A parameter that is given by keyword only, and its default. -/
inductive KeywordOnly where
  | mk (parameter : Parameter) (default : Option Expr)

/-- The parameters of a function.  The defaults belong to the last of the positional ones. -/
inductive Parameters where
  | mk (positionalOnly positional : List Parameter) (variadic : Option Parameter)
      (keywordOnly : List KeywordOnly) (variadicKeyword : Option Parameter) (defaults : List Expr)

end

/-- The span of an expression. -/
def Expr.span : Expr → Span
  | .node span _ => span

/-- The shape of an expression. -/
def Expr.shape : Expr → Expr.Shape
  | .node _ shape => shape

/-- Whether an expression is a starred one. -/
def Expr.isStarred : Expr → Bool
  | .node _ (.starred ..) => true
  | _ => false

/-- Whether an expression is a name. -/
def Expr.isName : Expr → Bool
  | .node _ (.name ..) => true
  | _ => false

/-! ## Patterns -/

/-- The values that a pattern compares by identity. -/
inductive Singleton where
  | none
  | boolean (value : Bool)
  deriving DecidableEq, Repr

/-- The value of a singleton. -/
def Singleton.constant : Singleton → Constant
  | none => .none
  | boolean value => .boolean value

mutual

/-- A pattern of a case. -/
inductive Pattern where
  | node (span : Span) (shape : Pattern.Shape)

/-- What a pattern is. -/
inductive Pattern.Shape where
  | value (value : Expr)
  | singleton (value : Singleton)
  | sequence (patterns : List Pattern)
  | mapping (entries : List (Expr × Pattern)) (rest : Option Bytes)
  | record (callee : Expr) (patterns : List Pattern) (attributes : List (Bytes × Pattern))
  /-- The rest of a sequence, bound to a name or dropped. -/
  | star (name : Option Bytes)
  /-- A binding; without a name and a pattern it matches anything. -/
  | as (pattern : Option Pattern) (name : Option Bytes)
  | or (patterns : List Pattern)

end

/-- The span of a pattern. -/
def Pattern.span : Pattern → Span
  | .node span _ => span

/-- Whether a pattern stands for the rest of a sequence. -/
def Pattern.isStar : Pattern → Bool
  | .node _ (.star _) => true
  | _ => false

/-! ## Statements -/

/-- An imported name and the name it gets. -/
structure Alias where
  span : Span
  name : Bytes
  renamed : Option Bytes

/-- A context manager and the target of its value. -/
structure WithItem where
  span : Span
  context : Expr
  target : Option Expr

/-- What a type parameter ranges over. -/
inductive TypeParamKind where
  | typeVar | paramSpec | typeVarTuple
  deriving DecidableEq, Repr

/-- A type parameter. -/
structure TypeParam where
  span : Span
  kind : TypeParamKind
  name : Bytes
  bound : Option Expr
  default : Option Expr

mutual

/-- A statement. -/
inductive Stmt where
  | node (span : Span) (shape : Stmt.Shape)

/-- What a statement is. -/
inductive Stmt.Shape where
  | functionDef (isAsync : Bool) (name : Bytes) (decorators : List Expr)
      (typeParams : List TypeParam) (parameters : Parameters) (returns : Option Expr)
      (body : List Stmt)
  | classDef (name : Bytes) (decorators : List Expr) (typeParams : List TypeParam)
      (bases : List Expr) (keywords : List Keyword) (body : List Stmt)
  | returnValue (value : Option Expr)
  | delete (targets : List Expr)
  | assign (targets : List Expr) (value : Expr)
  | augmentedAssign (target : Expr) (op : BinaryOperator) (value : Expr)
  /-- An annotation, simple if its target is a name without parentheses. -/
  | annotatedAssign (target hint : Expr) (value : Option Expr) (simple : Bool)
  | forLoop (isAsync : Bool) (target iterable : Expr) (body orelse : List Stmt)
  | whileLoop (test : Expr) (body orelse : List Stmt)
  | conditional (test : Expr) (body orelse : List Stmt)
  | withBlock (isAsync : Bool) (items : List WithItem) (body : List Stmt)
  | matchBlock (subject : Expr) (cases : List MatchCase)
  | raise (exception cause : Option Expr)
  | tryBlock (isStar : Bool) (body : List Stmt) (handlers : List ExceptHandler)
      (orelse finalbody : List Stmt)
  | assertion (test : Expr) (message : Option Expr)
  | importNames (names : List Alias)
  | importFrom (level : Nat) (source : Option Bytes) (names : List Alias)
  | globalNames (names : List Bytes)
  | nonlocalNames (names : List Bytes)
  | expression (value : Expr)
  | pass
  | breakLoop
  | continueLoop
  | typeAlias (name : Expr) (typeParams : List TypeParam) (value : Expr)
  /-- Empty lines, for written text only. -/
  | blank (count : Int)

/-- A case of a match statement. -/
inductive MatchCase where
  | mk (span : Span) (pattern : Pattern) (guard : Option Expr) (body : List Stmt)

/-- A handler of a try statement. -/
inductive ExceptHandler where
  | mk (span : Span) (type : Option Expr) (name : Option Bytes) (body : List Stmt)

end

/-- The span of a statement. -/
def Stmt.span : Stmt → Span
  | .node span _ => span

/-- The shape of a statement. -/
def Stmt.shape : Stmt → Stmt.Shape
  | .node _ shape => shape

/-! ## Modules -/

/-- What a source is read as. -/
inductive Mode where
  | exec | interactive | eval | functionType
  deriving DecidableEq, Repr

namespace Mode

/-- All modes. -/
def all : List Mode := [.exec, .interactive, .eval, .functionType]

/-- The name of a mode. -/
def name : Mode → Bytes
  | exec => text "Exec"
  | interactive => text "Interactive"
  | eval => text "Eval"
  | functionType => text "FunctionType"

end Mode

/-- A module: statements, or one expression, or the types of a function's arguments and result. -/
structure Module where
  span : Span
  mode : Mode
  body : List Stmt
  expression : Option Expr
  argumentTypes : List Expr
  returns : Option Expr

/-- A module without content at the beginning of a source. -/
def Module.empty (mode : Mode) : Module :=
  ⟨⟨.origin, none⟩, mode, [], none, [], none⟩

end SyntaxTree
