import SyntaxTree.Grammar.Target

/-
# Phrases of expressions

Lists, targets, parameters, arguments, comprehension clauses and displays are built from smaller
expressions.  How those are read is a parameter here, so that no phrase refers to itself.
-/

namespace SyntaxTree

/-- The expressions that stand within others. -/
inductive Goal where
  /-- A lambda, a conditional expression or anything that binds stronger. -/
  | expression
  /-- Conditions joined by `or`, or anything that binds stronger. -/
  | disjunction
  /-- A negation or anything that binds stronger. -/
  | inversion
  /-- Operands joined by `|`, or anything that binds stronger. -/
  | operand
  /-- A sign and its operand, or anything that binds stronger. -/
  | factor
  deriving DecidableEq, Repr

/-- How the expressions within a phrase are read. -/
abbrev Reading := Goal → Parse Expr

/-- Whether a keyword argument has a name. -/
def Keyword.isNamed : Keyword → Bool
  | .mk _ name _ => name.isSome

namespace Parse

variable {α : Type}

/-! ## Items and commas -/

/-- A further item behind a comma, if one follows.  A comma in front of the end of the list is
passed over. -/
def furtherItem (stops : Parse Bool) (item : Parse α) : Parse (Option α) := do
  if ← accept .comma then
    if ← stops then return none else return some (← item)
  else return none

/-- The items behind the first one, each behind a comma. -/
def moreItems (stops : Parse Bool) (item : Parse α) : Parse (List α) :=
  collect (furtherItem stops item)

/-- One item, or a tuple if a comma follows it. -/
def tupleOf (stops : Parse Bool) (item : Parse Expr) : Parse Expr := do
  let first ← item
  if ← at? .comma then
    let rest ← moreItems stops item
    exprFrom first.span.start (.tuple (first :: rest) .load)
  else return first

/-- Items that are each followed by a comma or by the closing token. -/
def itemsUntil (close : TokenKind) (item : Parse α) : Parse (List α) := do
  if ← at? close then return []
  else
    let first ← item
    return first :: (← moreItems (at? close) item)

/-- A further piece and its comma, unless the closing token stands at the cursor. -/
def pieceStep {σ : Type} (close : TokenKind) (take : σ → Parse σ) (s : σ) :
    Parse (ForInStep σ) := do
  if ← at? close then return .done s
  else
    let s ← take s
    if ← accept .comma then return .yield s else return .done s

/-- Takes a line end if one stands at the cursor. -/
def acceptNewline : Parse (Option Unit) := do
  if ← accept .newline then return some () else return none

/-- Takes the line ends at the cursor. -/
def skipNewlines : Parse Unit := do
  let _ ← collect acceptNewline

/-- Whether nothing follows that could begin a further starred expression. -/
def startsNoItem : Parse Bool := return !(← startsStarred)

/-! ## Stars and names -/

/-- A starred operand if a star stands at the cursor, and the given expression otherwise. -/
def starredOr (read : Reading) (plain : Parse Expr) : Parse Expr := do
  if ← at? .star then
    let start ← next
    let value ← read .operand
    exprFrom start.start (.starred value .load)
  else plain

/-- The expression that a name token forms. -/
def nameOf (token : Token) (context : Context) : Parse Expr :=
  exprFrom token.start (.name token.text context)

/-- An expression, or an assignment within an expression; the span of its target includes the
sign of the assignment. -/
def namedExpression (read : Reading) : Parse Expr := do
  if (← at? .identifier) && (← kindAt 1) == .colonEqual then
    let token ← next
    let _ ← next
    let target ← nameOf token .store
    let value ← read .expression
    exprFrom token.start (.named target value)
  else read .expression

/-- An expression or a starred one. -/
def starExpression (read : Reading) : Parse Expr := starredOr read (read .expression)

/-- A starred expression, or one that may assign. -/
def starNamed (read : Reading) : Parse Expr := starredOr read (namedExpression read)

/-- An expression, or a tuple without parentheses. -/
def starExpressions (read : Reading) : Parse Expr := tupleOf startsNoItem (starExpression read)

/-- The target of a loop: its items stop in front of `in`. -/
def starTarget (read : Reading) : Parse Expr := starredOr read (read .operand)

/-- The targets of a loop. -/
def starTargets (read : Reading) : Parse Expr := do
  storeTarget (← tupleOf startsNoItem (starTarget read))

/-- A yield expression. -/
def yieldExpr (read : Reading) : Parse Expr := do
  let start ← next
  if ← accept .kwFrom then
    let value ← read .expression
    exprFrom start.start (.yieldFrom value)
  else if ← startsStarred then
    let value ← starExpressions read
    exprFrom start.start (.yield (some value))
  else exprFrom start.start (.yield none)

/-- A yield expression, or an expression list. -/
def yieldOrExpressions (read : Reading) : Parse Expr := do
  if ← at? .kwYield then yieldExpr read else starExpressions read

/-! ## Comprehensions -/

/-- A clause of a comprehension, at its first word. -/
def clause (read : Reading) : Parse Comprehension := do
  let start ← peek
  let isAsync ← accept .kwAsync
  let _ ← next
  let target ← starTargets read
  expect .comprehensionIn
  let iterable ← read .disjunction
  let conditions ← collect do
    if ← accept .kwIf then return some (← read .disjunction) else return none
  return .mk (← spanFrom start.start) target iterable conditions isAsync

/-- The clauses of a comprehension. -/
def clauses (read : Reading) : Parse (List Comprehension) :=
  collect do
    if ← startsClause then return some (← clause read) else return none

/-! ## Columns -/

/-- Two lists that are read side by side, one behind the other for each row.  Nothing but the order
of the reading keeps them equally long. -/
structure Columns (α β : Type) where
  left : List α
  right : List β

namespace Columns

variable {β : Type}

/-- No rows. -/
def empty : Columns α β := ⟨[], []⟩

/-- One more entry on the left. -/
def addLeft (columns : Columns α β) (a : α) : Columns α β :=
  { columns with left := columns.left ++ [a] }

/-- One more entry on the right. -/
def addRight (columns : Columns α β) (b : β) : Columns α β :=
  { columns with right := columns.right ++ [b] }

/-- What stands side by side. -/
def rows (columns : Columns α β) : List (α × β) := columns.left.zip columns.right

end Columns

/-! ## Parameters -/

/-- The parameters that have been read. -/
structure ParameterDraft where
  positionalOnly : List Parameter
  positional : List Parameter
  /-- The star behind which parameters are given by keyword only. -/
  star : Option Token
  variadic : Option Parameter
  /-- The parameters behind the star and their defaults. -/
  keywordOnly : Columns Parameter (Option Expr)
  variadicKeyword : Option Parameter
  defaults : List Expr

namespace ParameterDraft

/-- No parameters. -/
def empty : ParameterDraft := ⟨[], [], none, none, .empty, none, []⟩

/-- The parameters as they stand in a tree. -/
def parameters (draft : ParameterDraft) : Parameters :=
  .mk draft.positionalOnly draft.positional draft.variadic
    (draft.keywordOnly.rows.map fun row => .mk row.1 row.2) draft.variadicKeyword draft.defaults

end ParameterDraft

/-- The annotation of a parameter, if there can be one and there is. -/
def parameterHint (annotated : Bool) (value : Parse Expr) : Parse (Option Expr) := do
  if annotated then
    if ← accept .colon then return some (← value) else return none
  else return none

/-- A parameter name; its annotation may be starred if `starHint` says so. -/
def parameter (read : Reading) (annotated starHint : Bool) : Parse Parameter := do
  let token ← expectName .parameter
  let hint ← parameterHint annotated
    (if starHint then starExpression read else read .expression)
  return .mk (← spanFrom token.start) token.text hint

/-- The slash behind the positional-only parameters. -/
def slashParameter (draft : ParameterDraft) : Parse ParameterDraft := do
  let slash ← next
  if draft.positionalOnly.length ≠ 0 then failAtToken .secondSlash slash
  else if draft.star.isSome then failAtToken .slashAfterStar slash
  else if draft.positional.length = 0 then failAtToken .slashFirst slash
  else return { draft with positionalOnly := draft.positional, positional := [] }

/-- The star in front of the keyword-only parameters, with a name or without. -/
def starParameter (read : Reading) (annotated : Bool) (draft : ParameterDraft) :
    Parse ParameterDraft := do
  let star ← next
  if draft.star.isSome then failAtToken .secondStar star
  else if ← at? .identifier then
    let variadic ← parameter read annotated true
    if ← at? .equal then failHere .variadicDefault
    else return { draft with star := some star, variadic := some variadic }
  else return { draft with star := some star }

/-- The parameter behind two stars. -/
def keywordsParameter (read : Reading) (annotated : Bool) (draft : ParameterDraft) :
    Parse ParameterDraft := do
  let _ ← next
  let variadicKeyword ← parameter read annotated false
  if ← at? .equal then failHere .variadicKeywordDefault
  else return { draft with variadicKeyword := some variadicKeyword }

/-- Adds a parameter with a name and perhaps a default. -/
def addPlain (draft : ParameterDraft) (span : Span) (name : Bytes) (hint default : Option Expr) :
    Parse ParameterDraft :=
  let parameter := Parameter.mk span name hint
  if draft.star.isSome then
    return { draft with keywordOnly := (draft.keywordOnly.addLeft parameter).addRight default }
  else
    match default with
    | some value =>
      return { draft with
        positional := draft.positional ++ [parameter], defaults := draft.defaults ++ [value] }
    | none =>
      if draft.defaults.length ≠ 0 then failAtSpan .missingDefault span
      else return { draft with positional := draft.positional ++ [parameter] }

/-- A parameter with a name and perhaps a default. -/
def plainParameter (read : Reading) (annotated : Bool) (draft : ParameterDraft) :
    Parse ParameterDraft := do
  let .mk span name hint ← parameter read annotated false
  let default ← if ← accept .equal then some <$> read .expression else pure none
  addPlain draft span name hint default

/-- One parameter or mark between parameters. -/
def addParameter (read : Reading) (annotated : Bool) (draft : ParameterDraft) :
    Parse ParameterDraft := do
  if draft.variadicKeyword.isSome then failHere .afterVariadicKeyword
  else
    match ← kind with
    | .slash => slashParameter draft
    | .doubleStar => keywordsParameter read annotated draft
    | .star => starParameter read annotated draft
    | _ => plainParameter read annotated draft

/-- A further parameter and its comma, unless the closing token stands at the cursor. -/
def parameterStep (read : Reading) (close : TokenKind) (annotated : Bool) :
    ParameterDraft → Parse (ForInStep ParameterDraft) :=
  pieceStep close (addParameter read annotated)

/-- The parameters in front of a closing token. -/
def parameters (read : Reading) (close : TokenKind) (annotated : Bool) : Parse Parameters := do
  let draft ← iterate (parameterStep read close annotated) .empty
  match draft.star with
  | some star =>
    if draft.variadic.isNone ∧ draft.keywordOnly.left.length = 0 then failAtToken .bareStar star
    else return draft.parameters
  | none => return draft.parameters

/-- A lambda. -/
def lambda (read : Reading) : Parse Expr := do
  let start ← next
  let parameters ← parameters read .colon false
  expectColon .lambdaParameters
  let body ← read .expression
  exprFrom start.start (.lambda parameters body)

/-! ## Arguments -/

/-- The arguments that have been read. -/
structure ArgumentDraft where
  positional : List Expr
  keywords : List Keyword

/-- An argument without a name: a comprehension needs no parentheses of its own. -/
def plainArgument (read : Reading) : Parse Expr := do
  let value ← namedExpression read
  if ← startsClause then
    let clauses ← clauses read
    exprFrom value.span.start (.generator value clauses)
  else return value

/-- One argument. -/
def addArgument (read : Reading) (draft : ArgumentDraft) : Parse ArgumentDraft := do
  let start ← peek
  let hasUnpacking := draft.keywords.any (!·.isNamed)
  if ← accept .star then
    if hasUnpacking then failAtToken .starredAfterUnpacking start
    else
      let value ← read .expression
      let value ← exprFrom start.start (.starred value .load)
      return { draft with positional := draft.positional ++ [value] }
  else if ← accept .doubleStar then
    let value ← read .expression
    let span ← spanFrom start.start
    return { draft with keywords := draft.keywords ++ [.mk span none value] }
  else if (← at? .identifier) && (← kindAt 1) == .equal then
    let _ ← next
    let _ ← next
    let value ← read .expression
    let span ← spanFrom start.start
    return { draft with keywords := draft.keywords ++ [.mk span (some start.text) value] }
  else
    let value ← plainArgument read
    if hasUnpacking then failAtSpan .positionalAfterUnpacking value.span
    else if draft.keywords.any (·.isNamed) then failAtSpan .positionalAfterKeyword value.span
    else return { draft with positional := draft.positional ++ [value] }

/-- A further argument and its comma, unless the call closes at the cursor. -/
def argumentStep (read : Reading) : ArgumentDraft → Parse (ForInStep ArgumentDraft) :=
  pieceStep .closeParen (addArgument read)

/-- The arguments of a call, up to its closing parenthesis. -/
def arguments (read : Reading) : Parse ArgumentDraft := do
  let draft ← iterate (argumentStep read) ⟨[], []⟩
  expect .argumentsClose
  return draft

/-! ## Subscripts -/

/-- Whether a part of a slice ends at the cursor. -/
def endsSlicePart : Parse Bool := do
  match ← kind with
  | .colon | .comma | .closeBracket => return true
  | _ => return false

/-- The rest of a slice, at its first colon. -/
def sliceFrom (read : Reading) (start : Position) (lower : Option Expr) : Parse Expr := do
  let _ ← next
  let upper ← if ← endsSlicePart then pure none else some <$> read .expression
  let step ←
    if ← accept .colon then
      if (← at? .comma) || (← at? .closeBracket) then pure none else some <$> read .expression
    else pure none
  exprFrom start (.slice lower upper step)

/-- An index or a slice. -/
def sliceOrIndex (read : Reading) : Parse Expr := do
  let start ← peek
  if start.kind = .star then starExpression read
  else if start.kind = .colon then sliceFrom read start.start none
  else
    let lower ← namedExpression read
    if ← at? .colon then sliceFrom read start.start (some lower) else return lower

/-- What stands between the brackets of a subscript. -/
def slices (read : Reading) : Parse Expr := tupleOf (at? .closeBracket) (sliceOrIndex read)

/-! ## Displays -/

/-- What follows an opening parenthesis. -/
def parenthesized (read : Reading) (start : Position) : Parse Expr := do
  if ← accept .closeParen then exprFrom start (.tuple [] .load)
  else if ← at? .kwYield then
    let value ← yieldExpr read
    expect .yieldClose
    return value
  else
    let first ← starNamed read
    if ← startsClause then
      let clauses ← clauses read
      expect .generatorClose
      exprFrom start (.generator first clauses)
    else if ← accept .closeParen then
      if first.isStarred then failAtSpan .starredInParentheses first.span else return first
    else
      let rest ← moreItems (at? .closeParen) (starNamed read)
      expect .parenClose
      exprFrom start (.tuple (first :: rest) .load)

/-- What follows an opening bracket. -/
def listDisplay (read : Reading) (start : Position) : Parse Expr := do
  if ← accept .closeBracket then exprFrom start (.list [] .load)
  else
    let first ← starNamed read
    if ← startsClause then
      let clauses ← clauses read
      expect .listCompClose
      exprFrom start (.listComp first clauses)
    else
      let rest ← moreItems (at? .closeBracket) (starNamed read)
      expect .listClose
      exprFrom start (.list (first :: rest) .load)

/-- The keys and the values of a dict display; what is unpacked has no key. -/
abbrev DictDraft := Columns (Option Expr) Expr

/-- The items of a dict display. -/
def DictDraft.items (draft : DictDraft) : List DictItem :=
  draft.rows.map fun
    | (some key, value) => .entry key value
    | (none, value) => .unpack value

/-- Adds a key, if there is one, and a value. -/
def addDictItem (read : Reading) (draft : DictDraft) : Parse DictDraft := do
  if ← accept .doubleStar then
    let draft := draft.addLeft none
    return draft.addRight (← read .operand)
  else
    let draft := draft.addLeft (some (← read .expression))
    expect .dictColon
    return draft.addRight (← read .expression)

/-- A further item of a dict display behind a comma, if one follows. -/
def dictStep (read : Reading) (draft : DictDraft) : Parse (ForInStep DictDraft) := do
  if ← accept .comma then
    if ← at? .closeBrace then return .done draft else return .yield (← addDictItem read draft)
  else return .done draft

/-- The rest of a dict display behind its first item. -/
def dictRest (read : Reading) (start : Position) (first : DictDraft) : Parse Expr := do
  let draft ← iterate (dictStep read) first
  expect .dictClose
  exprFrom start (.dict draft.items)

/-- What follows an opening brace: a dict, a set, or a comprehension of one of them. -/
def braceDisplay (read : Reading) (start : Position) : Parse Expr := do
  if ← accept .closeBrace then exprFrom start (.dict [])
  else if ← at? .doubleStar then dictRest read start (← addDictItem read .empty)
  else
    let first ← starNamed read
    if ← accept .colon then
      let value ← read .expression
      if ← startsClause then
        let clauses ← clauses read
        expect .dictCompClose
        exprFrom start (.dictComp first value clauses)
      else dictRest read start ((Columns.empty.addLeft (some first)).addRight value)
    else if ← startsClause then
      let clauses ← clauses read
      expect .setCompClose
      exprFrom start (.setComp first clauses)
    else
      let rest ← moreItems (at? .closeBrace) (starNamed read)
      expect .setClose
      exprFrom start (.set (first :: rest))

end Parse

end SyntaxTree
