import SyntaxTree.Grammar.Statement

/-
# The grammar of modules

A source is read as a module in one of four modes, or as a single expression.
-/

namespace SyntaxTree

open Unicode (CharacterNames)

namespace Parse

variable [CharacterNames]

/-! ## From a cursor -/

/-- Statements up to the end of the input. -/
def execModule : Parse Module := do
  let field ← field
  let statement := statementsUpTo (← reading) field (← limit)
  let body ← untilEnd (at? .endOfInput) statement
  return { Module.empty .exec with body := body }

/-- Statements up to the end of the input, as they are typed at a prompt. -/
def interactiveModule : Parse Module :=
  return { ← execModule with mode := .interactive }

/-- One expression list. -/
def evalModule : Parse Module :=
  return { Module.empty .eval with expression := some (← onlyExpression) }

/-- A type among those of the arguments; stars in front of it are passed over. -/
def argumentType (read : Reading) : Parse Expr := do
  unless ← accept .star do
    let _ ← accept .doubleStar
  read .expression

/-- The types of the arguments and of the result of a function. -/
def functionTypeModule : Parse Module := do
  let read ← reading
  skipNewlines
  expect .functionTypeOpen
  let argumentTypes ← itemsUntil .closeParen (argumentType read)
  expect .functionTypeClose
  expect .functionTypeArrow
  let returns ← read .expression
  skipNewlines
  if ← at? .endOfInput then
    return { Module.empty .functionType with
      argumentTypes := argumentTypes, returns := some returns }
  else failHere .trailingTokens

/-- A module in the given mode. -/
def moduleIn : Mode → Parse Module
  | .exec => execModule
  | .interactive => interactiveModule
  | .eval => evalModule
  | .functionType => functionTypeModule

end Parse

/-! ## From a source -/

/-- A source that cannot be read: it has no division into tokens, or they form no tree. -/
inductive ReadError where
  | lexical (e : LexicalError)
  | grammar (e : SyntaxError)
  deriving DecidableEq, Repr

/-- What a reading gives for the tokens of a source. -/
def Parse.ofTokens {α : Type} (reading : Parse α) (source : Bytes) (tokens : List Token) :
    Except ReadError α :=
  match reading.run (.ofTokens (Bytes.lines source) tokens) with
  | .ok a _ => .ok a
  | .error e _ => .error (.grammar e)

/-- What a reading gives for a source. -/
def Parse.ofSource {α : Type} (reading : Parse α) (source : Bytes) : Except ReadError α :=
  match tokenize false source with
  | .error e => .error (.lexical e)
  | .ok tokens => reading.ofTokens source tokens

/-- The module that a source forms in a mode. -/
def Module.ofSource [CharacterNames] (mode : Mode) (source : Bytes) : Except ReadError Module :=
  (Parse.moduleIn mode).ofSource source

/-- The expression that a source forms. -/
def Expr.ofSource [CharacterNames] (source : Bytes) : Except ReadError Expr :=
  Parse.onlyExpression.ofSource source

end SyntaxTree
