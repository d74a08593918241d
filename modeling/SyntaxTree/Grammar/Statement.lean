import SyntaxTree.Grammar.Pattern

/-
# The grammar of statements

Simple statements share a line; compound ones have blocks.  How the statements of a block are read
is a parameter up to the end.
-/

namespace SyntaxTree.Parse

variable {α : Type}

/-! ## Names -/

/-- One or more items between commas. -/
def oneOrMore (item : Parse α) : Parse (List α) := do
  let first ← item
  let rest ← collect do
    if ← accept .comma then return some (← item) else return none
  return first :: rest

/-- The names of a declaration. -/
def names (role : NameRole) : Parse (List Bytes) :=
  oneOrMore do return (← expectName role).text

/-- The name of a module, with its dots. -/
def dottedName : Parse Bytes := do
  let first ← expectName .moduleName
  let rest ← collect do
    if ← accept .dot then return some (← expectName .submoduleName).text else return none
  return rest.foldl (fun name part => name ++ ascii '.' :: part) first.text

/-- The name behind `as`, if there is one. -/
def renamed (role : NameRole) : Parse (Option Bytes) := do
  if ← accept .kwAs then return some (← expectName role).text else return none

/-! ## Simple statements -/

/-- A statement of one word. -/
def wordStmt (shape : Stmt.Shape) : Parse Stmt := do
  let start ← next
  stmtFrom start.start shape

/-- A return statement. -/
def returnStmt (read : Reading) : Parse Stmt := do
  let start ← next
  if ← startsStarred then
    let value ← plainValue (← starExpressions read)
    stmtFrom start.start (.returnValue (some value))
  else stmtFrom start.start (.returnValue none)

/-- A raise statement. -/
def raiseStmt (read : Reading) : Parse Stmt := do
  let start ← next
  if ← startsExpression then
    let exception ← read .expression
    let cause ← if ← accept .kwFrom then some <$> read .expression else pure none
    stmtFrom start.start (.raise (some exception) cause)
  else stmtFrom start.start (.raise none none)

/-- A del statement. -/
def deleteStmt (read : Reading) : Parse Stmt := do
  let start ← next
  let target := do deleteTarget (← read .operand)
  if ← startsExpression then
    let first ← target
    let rest ← moreItems (do return !(← startsExpression)) target
    stmtFrom start.start (.delete (first :: rest))
  else failHere .nothingDeleted

/-- An assert statement. -/
def assertStmt (read : Reading) : Parse Stmt := do
  let start ← next
  let test ← read .expression
  let message ← if ← accept .comma then some <$> read .expression else pure none
  stmtFrom start.start (.assertion test message)

/-- A global statement. -/
def globalStmt : Parse Stmt := do
  let start ← next
  let names ← names .globalName
  stmtFrom start.start (.globalNames names)

/-- A nonlocal statement. -/
def nonlocalStmt : Parse Stmt := do
  let start ← next
  let names ← names .nonlocalName
  stmtFrom start.start (.nonlocalNames names)

/-- A module to import. -/
def moduleAlias : Parse Alias := do
  let start ← peek
  let name ← dottedName
  let renamed ← renamed .aliasName
  return ⟨← spanFrom start.start, name, renamed⟩

/-- An import statement. -/
def importStmt : Parse Stmt := do
  let start ← next
  let names ← oneOrMore moduleAlias
  stmtFrom start.start (.importNames names)

/-- A name to import from a module. -/
def memberAlias : Parse Alias := do
  let name ← expectName .importedName
  let renamed ← renamed .aliasName
  return ⟨← spanFrom name.start, name.text, renamed⟩

/-- How many packages up the leading dots point. -/
def importLevel : Parse Nat := do
  let dots ← collect do
    if ← accept .dot then return some 1
    else if ← accept .ellipsis then return some 3
    else return none
  return dots.foldr (· + ·) 0

/-- The names that are imported: a star, a list in parentheses, or a list without them, which must
not end in a comma. -/
def importedNames : Parse (List Alias) := do
  if ← at? .star then
    let star ← next
    return [⟨← spanFrom star.start, text "*", none⟩]
  else if ← accept .openParen then
    let names ← itemsUntil .closeParen memberAlias
    expect .importClose
    if names.length = 0 then failHere (.missingName .importedName) else return names
  else
    let first ← memberAlias
    let rest ← collect do
      if ← accept .comma then
        if ← at? .identifier then return some (← memberAlias) else failHere .trailingImportComma
      else return none
    return first :: rest

/-- An import statement that names the module first. -/
def importFromStmt : Parse Stmt := do
  let start ← next
  let level ← importLevel
  let source ←
    if !(← at? .kwImport) || level == 0 then some <$> dottedName else pure none
  expect .importWord
  let names ← importedNames
  stmtFrom start.start (.importFrom level source names)

/-- The default of a type parameter behind an equals sign. -/
def typeParamDefault (value : Parse Expr) : Parse (Option Expr) := do
  if ← accept .equal then some <$> value else return none

/-- A type parameter. -/
def typeParam (read : Reading) : Parse TypeParam := do
  let start ← peek
  if ← accept .star then
    let name ← expectName .typeParameter
    let default ← typeParamDefault (starExpression read)
    return ⟨← spanFrom start.start, .typeVarTuple, name.text, none, default⟩
  else if ← accept .doubleStar then
    let name ← expectName .typeParameter
    let default ← typeParamDefault (read .expression)
    return ⟨← spanFrom start.start, .paramSpec, name.text, none, default⟩
  else
    let name ← expectName .typeParameter
    let bound ← if ← accept .colon then some <$> read .expression else pure none
    let default ← typeParamDefault (read .expression)
    return ⟨← spanFrom start.start, .typeVar, name.text, bound, default⟩

/-- Type parameters in brackets. -/
def typeParams (read : Reading) : Parse (List TypeParam) := do
  if ← at? .openBracket then
    let _ ← next
    if ← at? .closeBracket then failHere .emptyTypeParams
    else
      let params ← itemsUntil .closeBracket (typeParam read)
      expect .typeParamsClose
      return params
  else return []

/-- Whether a type alias begins at the word `type`. -/
def startsTypeAlias : Parse Bool := do
  if ← isWordAt 0 (text "type") then
    let following ← kindAt 2
    return (← kindAt 1) == .identifier && (following == .openBracket || following == .equal)
  else return false

/-- A type alias. -/
def typeAliasStmt (read : Reading) : Parse Stmt := do
  let start ← next
  let name ← nameOf (← next) .store
  let params ← typeParams read
  expect .aliasEqual
  let value ← read .expression
  stmtFrom start.start (.typeAlias name params value)

/-! ## Assignments -/

/-- The operator of an augmented assignment. -/
def augmentedOf? : TokenKind → Option BinaryOperator
  | .plusEqual => some .add
  | .minusEqual => some .sub
  | .starEqual => some .mul
  | .atEqual => some .matMul
  | .slashEqual => some .div
  | .doubleSlashEqual => some .floorDiv
  | .percentEqual => some .mod
  | .doubleStarEqual => some .pow
  | .shiftLeftEqual => some .shiftLeft
  | .shiftRightEqual => some .shiftRight
  | .ampersandEqual => some .bitAnd
  | .pipeEqual => some .bitOr
  | .caretEqual => some .bitXor
  | _ => none

/-- An annotation behind its target and colon. -/
def annotatedStmt (read : Reading) (start : Token) (first : Expr) : Parse Stmt := do
  let target ← annotatedTarget first
  let hint ← read .expression
  let value ←
    if ← accept .equal then some <$> (do plainValue (← yieldOrExpressions read)) else pure none
  stmtFrom start.start
    (.annotatedAssign target hint value (first.isName && start.kind != .openParen))

/-- An augmented assignment behind its target. -/
def augmentedAssign (read : Reading) (start : Position) (op : BinaryOperator) (first : Expr) :
    Parse Stmt := do
  let _ ← next
  let target ← augmentedTarget first
  let value ← plainValue (← yieldOrExpressions read)
  stmtFrom start (.augmentedAssign target op value)

/-- An assignment behind its first target.  The last of the expressions between equals signs is the
value. -/
def assignment (read : Reading) (start : Position) (first : Expr) : Parse Stmt := do
  let rest ← collect do
    if ← accept .equal then return some (← yieldOrExpressions read) else return none
  let value ← plainValue ((first :: rest).getLast (List.cons_ne_nil first rest))
  let targets ← (first :: rest).dropLast.mapM storeTarget
  stmtFrom start (.assign targets value)

/-- An expression statement or one of the assignments, which begin with an expression too. -/
def expressionStmt (read : Reading) : Parse Stmt := do
  let start ← peek
  let first ← yieldOrExpressions read
  if ← accept .colon then annotatedStmt read start first
  else
    match augmentedOf? (← kind) with
    | some op => augmentedAssign read start.start op first
    | none =>
      if ← at? .equal then assignment read start.start first
      else
        let value ← plainValue first
        stmtFrom start.start (.expression value)

/-! ## Lines and blocks -/

/-- A simple statement. -/
def simpleStmt (read : Reading) : Parse Stmt := do
  match ← kind with
  | .kwPass => wordStmt .pass
  | .kwBreak => wordStmt .breakLoop
  | .kwContinue => wordStmt .continueLoop
  | .kwReturn => returnStmt read
  | .kwRaise => raiseStmt read
  | .kwDel => deleteStmt read
  | .kwAssert => assertStmt read
  | .kwGlobal => globalStmt
  | .kwNonlocal => nonlocalStmt
  | .kwImport => importStmt
  | .kwFrom => importFromStmt
  | _ => if ← startsTypeAlias then typeAliasStmt read else expressionStmt read

/-- Whether the line ends at the cursor. -/
def endsLine : Parse Bool := do
  if ← at? .newline then return true else at? .endOfInput

/-- The simple statements of a line. -/
def line (read : Reading) : Parse (List Stmt) := do
  let first ← simpleStmt read
  let rest ← collect do
    if ← accept .semicolon then
      if ← endsLine then return none else return some (← simpleStmt read)
    else return none
  if ← accept .newline then return first :: rest
  else if ← at? .endOfInput then return first :: rest
  else failHere .unfinishedStatement

/-- Whether a block ends at the cursor. -/
def endsBlock : Parse Bool := do
  if ← at? .dedent then return true else at? .endOfInput

/-- What is read again and again until `ends` holds; empty lines between do not count. -/
def untilEnd (ends : Parse Bool) (item : Parse (List α)) : Parse (List α) := do
  let items ← collect do
    if ← ends then return none
    else if ← accept .newline then return some []
    else return some (← item)
  return items.flatten

/-- A block: the rest of the line, or indented lines. -/
def block (read : Reading) (inner : Parse (List Stmt)) : Parse (List Stmt) := do
  if ← accept .newline then
    if ← at? .indent then
      let _ ← next
      let body ← untilEnd endsBlock inner
      let _ ← accept .dedent
      return body
    else failHere .missingBlock
  else line read

/-- A colon and the block behind it. -/
def blockAfter (header : Header) (read : Reading) (inner : Parse (List Stmt)) :
    Parse (List Stmt) := do
  expectColon header
  block read inner

/-- The block behind `else`, if there is one. -/
def elseBlock (read : Reading) (inner : Parse (List Stmt)) : Parse (List Stmt) := do
  if ← accept .kwElse then blockAfter .elseWord read inner else return []

/-! ## Compound statements -/

/-- A condition and its block. -/
structure Branch where
  start : Position
  test : Expr
  body : List Stmt

/-- A branch, at its first word. -/
def branch (header : Header) (read : Reading) (inner : Parse (List Stmt)) : Parse Branch := do
  let start ← next
  let test ← namedExpression read
  let body ← blockAfter header read inner
  return ⟨start.start, test, body⟩

/-- An if statement; each `elif` is an if statement in the alternative of the one before. -/
def ifStmt (read : Reading) (inner : Parse (List Stmt)) : Parse Stmt := do
  let first ← branch .ifCondition read inner
  let rest ← collect do
    if ← at? .kwElif then return some (← branch .elifCondition read inner) else return none
  let orelse ← elseBlock read inner
  let c ← get
  let build (b : Branch) (orelse : List Stmt) : Stmt :=
    .node (c.spanFrom b.start) (.conditional b.test b.body orelse)
  return build first (rest.foldr (fun b orelse => [build b orelse]) orelse)

/-- A while statement. -/
def whileStmt (read : Reading) (inner : Parse (List Stmt)) : Parse Stmt := do
  let ⟨start, test, body⟩ ← branch .whileCondition read inner
  let orelse ← elseBlock read inner
  stmtFrom start (.whileLoop test body orelse)

/-- A for statement behind its first word. -/
def forStmt (read : Reading) (inner : Parse (List Stmt)) (start : Position) (isAsync : Bool) :
    Parse Stmt := do
  let target ← starTargets read
  expect .forIn
  let iterable ← starExpressions read
  let body ← blockAfter .forClause read inner
  let orelse ← elseBlock read inner
  stmtFrom start (.forLoop isAsync target iterable body orelse)

/-- A context manager and perhaps the target of its value. -/
def withItem (read : Reading) : Parse WithItem := do
  let context ← read .expression
  let target ←
    if ← accept .kwAs then some <$> (do storeTarget (← starTarget read)) else pure none
  return ⟨← spanFrom context.span.start, context, target⟩

/-- Context managers in parentheses in front of a colon. -/
def parenthesizedItems (read : Reading) : Parse (Option (List WithItem)) := do
  let _ ← next
  let items ← itemsUntil .closeParen (withItem read)
  if items.length = 0 then return none
  else if ← accept .closeParen then
    if ← at? .colon then return some items else return none
  else return none

/-- The context managers of a with statement.  Parentheses belong to the list if it can be read like
that, and to the first expression otherwise. -/
def withItems (read : Reading) : Parse (List WithItem) := do
  if ← at? .openParen then
    match ← attempt (parenthesizedItems read) with
    | some items => return items
    | none => oneOrMore (withItem read)
  else oneOrMore (withItem read)

/-- A with statement behind its first word. -/
def withStmt (read : Reading) (inner : Parse (List Stmt)) (start : Position) (isAsync : Bool) :
    Parse Stmt := do
  let items ← withItems read
  let body ← blockAfter .withClause read inner
  stmtFrom start (.withBlock isAsync items body)

/-- The handlers of a try statement that have been read, and whether they are starred. -/
structure HandlerDraft where
  isStar : Bool
  handlers : List ExceptHandler

/-- The exception of a handler and its name. -/
def handledType (read : Reading) (isStar : Bool) : Parse (Option Expr × Option Bytes) := do
  if ← at? .colon then
    if isStar then failHere .missingExceptionType else return (none, none)
  else
    let type ← read .expression
    let name ← renamed .exceptionName
    return (some type, name)

/-- One handler, at its first word. -/
def addHandler (read : Reading) (inner : Parse (List Stmt)) (draft : HandlerDraft) :
    Parse HandlerDraft := do
  let start ← next
  let isStar ← accept .star
  if draft.handlers.length ≠ 0 ∧ isStar ≠ draft.isStar then failAtToken .mixedHandlers start
  else
    let (type, name) ← handledType read isStar
    let body ← blockAfter .exceptClause read inner
    let span ← spanFrom start.start
    return ⟨isStar, draft.handlers ++ [.mk span type name body]⟩

/-- The handlers of a try statement. -/
def handlers (read : Reading) (inner : Parse (List Stmt)) : Parse HandlerDraft := do
  let step (draft : HandlerDraft) : Parse (ForInStep HandlerDraft) := do
    if ← at? .kwExcept then return .yield (← addHandler read inner draft)
    else return .done draft
  iterate step ⟨false, []⟩

/-- A try statement: it has handlers or a final block, and an alternative only behind handlers. -/
def tryStmt (read : Reading) (inner : Parse (List Stmt)) : Parse Stmt := do
  let start ← next
  let body ← blockAfter .tryWord read inner
  let ⟨isStar, handlers⟩ ← handlers read inner
  let orelse ←
    if (← at? .kwElse) && handlers.length == 0 then failHere .tryAlone else elseBlock read inner
  let finalbody ←
    if ← accept .kwFinally then blockAfter .finallyWord read inner else pure []
  if handlers.length = 0 ∧ finalbody.length = 0 then failHere .tryAlone
  else stmtFrom start.start (.tryBlock isStar body handlers orelse finalbody)

/-- A function definition behind its first word. -/
def functionDef (read : Reading) (inner : Parse (List Stmt)) (decorators : List Expr)
    (start : Position) (isAsync : Bool) : Parse Stmt := do
  let name ← expectName .functionName
  let params ← typeParams read
  expect .parametersOpen
  let parameters ← parameters read .closeParen true
  expect .parametersClose
  let returns ← if ← accept .arrow then some <$> read .expression else pure none
  let body ← blockAfter .functionSignature read inner
  stmtFrom start (.functionDef isAsync name.text decorators params parameters returns body)

/-- A class definition behind its first word. -/
def classDef (read : Reading) (inner : Parse (List Stmt)) (decorators : List Expr)
    (start : Position) : Parse Stmt := do
  let name ← expectName .className
  let params ← typeParams read
  let ⟨bases, keywords⟩ ← if ← accept .openParen then arguments read else pure ⟨[], []⟩
  let body ← blockAfter .className read inner
  stmtFrom start (.classDef name.text decorators params bases keywords body)

/-- The decorators at the cursor, one on each line. -/
def decorators (read : Reading) : Parse (List Expr) :=
  collect do
    if ← accept .atSign then
      let value ← namedExpression read
      expect .decoratorEnd
      return some value
    else return none

/-- A function or class definition with decorators. -/
def decorated (read : Reading) (inner : Parse (List Stmt)) : Parse Stmt := do
  let decorators ← decorators read
  let start ← peek
  if ← accept .kwDef then functionDef read inner decorators start.start false
  else if (← at? .kwAsync) && (← kindAt 1) == .kwDef then
    let _ ← next
    let _ ← next
    functionDef read inner decorators start.start true
  else if ← accept .kwClass then classDef read inner decorators start.start
  else failAtToken .decoratorAlone start

/-- What follows `async`. -/
def asyncStmt (read : Reading) (inner : Parse (List Stmt)) (start : Position) : Parse Stmt := do
  if ← accept .kwDef then functionDef read inner [] start true
  else if ← accept .kwFor then forStmt read inner start true
  else if ← accept .kwWith then withStmt read inner start true
  else failHere .asyncAlone

/-! ## Match statements -/

/-- The word `match` and a subject, if an indented case follows them. -/
def matchSubject (read : Reading) : Parse (Option Expr) := do
  let _ ← next
  if ← startsStarred then
    let subject ← tupleOf startsNoItem (starNamed read)
    let isStmt := (← at? .colon) && (← kindAt 1) == .newline && (← kindAt 2) == .indent
    if isStmt && (← isWordAt 3 (text "case")) then return some subject else return none
  else return none

/-- A case, at its first word. -/
def matchCase (read : Reading) (field : FieldReading) (inner : Parse (List Stmt)) :
    Parse MatchCase := do
  let start ← next
  let pattern ← casePattern field
  let guard ← if ← accept .kwIf then some <$> namedExpression read else pure none
  let body ← blockAfter .casePattern read inner
  return .mk (← spanFrom start.start) pattern guard body

/-- The cases of a match statement. -/
def matchCases (read : Reading) (field : FieldReading) (inner : Parse (List Stmt)) :
    Parse (List MatchCase) :=
  untilEnd endsBlock do
    if ← isWordAt 0 (text "case") then return [← matchCase read field inner]
    else failHere .missingCase

/-- A match statement, if one stands at the cursor. -/
def matchStmt (read : Reading) (field : FieldReading) (inner : Parse (List Stmt)) :
    Parse (Option Stmt) := do
  let start ← peek
  match ← attempt (matchSubject read) with
  | none => return none
  | some subject =>
    let _ ← next
    let _ ← next
    let _ ← next
    let cases ← matchCases read field inner
    let _ ← accept .dedent
    return some (← stmtFrom start.start (.matchBlock subject cases))

/-! ## All statements -/

/-- A compound statement, or the simple statements of a line. -/
def statements (read : Reading) (field : FieldReading) (inner : Parse (List Stmt)) :
    Parse (List Stmt) := do
  let token ← peek
  let start := token.start
  match token.kind with
  | .indent => failAtToken .unexpectedIndent token
  | .kwIf => single (ifStmt read inner)
  | .kwWhile => single (whileStmt read inner)
  | .kwTry => single (tryStmt read inner)
  | .atSign => single (decorated read inner)
  | .kwFor => single do let _ ← next; forStmt read inner start false
  | .kwWith => single do let _ ← next; withStmt read inner start false
  | .kwDef => single do let _ ← next; functionDef read inner [] start false
  | .kwClass => single do let _ ← next; classDef read inner [] start
  | .kwAsync => single do let _ ← next; asyncStmt read inner start
  | _ =>
    if ← isWordAt 0 (text "match") then
      match ← matchStmt read field inner with
      | some stmt => return [stmt]
      | none => line read
    else line read
where
  /-- One statement. -/
  single (stmt : Parse Stmt) : Parse (List Stmt) := return [← stmt]

/-- Reads statements whose blocks are nested less than `limit` times, and gives up on others. -/
def statementsUpTo (read : Reading) (field : FieldReading) : (limit : Nat) → Parse (List Stmt)
  | 0 => failHere .unending
  | limit + 1 => statements read field (statementsUpTo read field limit)

end SyntaxTree.Parse
