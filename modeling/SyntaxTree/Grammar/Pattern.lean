import SyntaxTree.Grammar.Expression

/-
# The grammar of patterns

Patterns are literals, dotted names, captures, sequences, mappings and classes, joined by `|` and
named with `as`.  How the patterns within a pattern are read is a parameter up to the end.
-/

namespace SyntaxTree.Parse

/-! ## Values -/

/-- A number that may have a minus sign. -/
def signedNumber : Parse Expr := do
  let start ← peek
  let isNegative ← accept .minus
  if (← kind).isNumber then
    let number ← numberOf (← next)
    if isNegative then exprFrom start.start (.unary .minus number) else return number
  else failHere (if isNegative then .noNumber else .noPattern)

/-- The imaginary part behind a real one. -/
def imaginaryPart (start : Position) (op : BinaryOperator) (real : Expr) : Parse Expr := do
  let _ ← next
  if ← at? .imaginary then
    let imaginary ← numberOf (← next)
    exprFrom start (.binary op real imaginary)
  else failHere .realAfterReal

/-- A number with a sign and perhaps an imaginary part. -/
def complexNumber : Parse Expr := do
  let start ← peek
  let real ← signedNumber
  match ← kind with
  | .plus => imaginaryPart start.start .add real
  | .minus => imaginaryPart start.start .sub real
  | _ => return real

/-- String literals without replacement fields. -/
def unformatted (field : FieldReading) : Parse Expr := do
  let value ← strings field
  match value.shape with
  | .fstring _ => failAtSpan .formattedPattern value.span
  | _ => return value

/-- A literal that a pattern compares with. -/
def literalValue (field : FieldReading) : Parse Expr := do
  let token ← peek
  match token.kind with
  | .noneWord => atomOf token .none
  | .boolean => atomOf token (.boolean (isTrueWord token))
  | .string | .bytes | .fstring => unformatted field
  | _ => complexNumber

/-- A name and the attributes behind it. -/
def dottedValue : Parse Expr := do
  let start ← next
  let step (value : Expr) : Parse (ForInStep Expr) := do
    if ← accept .dot then
      let name ← expectName .patternAttribute
      return .yield (← exprFrom start.start (.attribute value name.text .load))
    else return .done value
  iterate step (← nameOf start .load)

/-- The name that a word binds; an underscore binds none. -/
def boundName (word : Bytes) : Option Bytes := if word = text "_" then none else some word

/-! ## Patterns within patterns -/

/-- A pattern, or a star that stands for the rest of a sequence. -/
def starOr (inner : Parse Pattern) : Parse Pattern := do
  if ← at? .star then
    let start ← next
    let name ← expectName .starPattern
    patternFrom start.start (.star (boundName name.text))
  else inner

/-- What follows an opening parenthesis. -/
def parenthesizedPattern (inner : Parse Pattern) (start : Position) : Parse Pattern := do
  if ← accept .closeParen then patternFrom start (.sequence [])
  else
    let first ← starOr inner
    if (← at? .closeParen) && !first.isStar then
      let _ ← next
      return first
    else
      let rest ← moreItems (at? .closeParen) (starOr inner)
      expect .patternClose
      patternFrom start (.sequence (first :: rest))

/-- What follows an opening bracket. -/
def sequencePattern (inner : Parse Pattern) (start : Position) : Parse Pattern := do
  let patterns ← itemsUntil .closeBracket (starOr inner)
  expect .sequenceClose
  patternFrom start (.sequence patterns)

/-- The entries of a mapping that have been read, and the name of its rest. -/
structure MappingDraft where
  entries : Columns Expr Pattern
  rest : Option Bytes

/-- A key of a mapping. -/
def mappingKey (field : FieldReading) : Parse Expr := do
  if (← at? .identifier) && (← kindAt 1) == .dot then dottedValue else literalValue field

/-- One more entry, the rest, or the end of a mapping. -/
def mappingStep (inner : Parse Pattern) (field : FieldReading) (draft : MappingDraft) :
    Parse (ForInStep MappingDraft) := do
  if ← at? .closeBrace then return .done draft
  else if ← accept .doubleStar then
    let name ← expectName .mappingRest
    let _ ← accept .comma
    return .done { draft with rest := some name.text }
  else
    let key ← mappingKey field
    expect .mappingColon
    let entries := draft.entries.addLeft key
    let draft := { draft with entries := entries.addRight (← inner) }
    if ← accept .comma then return .yield draft else return .done draft

/-- What follows an opening brace. -/
def mappingPattern (inner : Parse Pattern) (field : FieldReading) (start : Position) :
    Parse Pattern := do
  let draft ← iterate (mappingStep inner field) ⟨.empty, none⟩
  expect .mappingClose
  patternFrom start (.mapping draft.entries.rows draft.rest)

/-- The patterns of a class that have been read. -/
structure RecordDraft where
  positional : List Pattern
  /-- The names of attributes and their patterns. -/
  attributes : Columns Bytes Pattern

/-- One more pattern of a class. -/
def addRecord (inner : Parse Pattern) (draft : RecordDraft) : Parse RecordDraft := do
  if (← at? .identifier) && (← kindAt 1) == .equal then
    let attributes := draft.attributes.addLeft (← next).text
    let _ ← next
    return { draft with attributes := attributes.addRight (← inner) }
  else if draft.attributes.left.length ≠ 0 then failHere .positionalPatternAfterKeyword
  else
    let pattern ← inner
    return { draft with positional := draft.positional ++ [pattern] }

/-- A further pattern of a class and its comma, unless the parenthesis closes. -/
def recordStep (inner : Parse Pattern) : RecordDraft → Parse (ForInStep RecordDraft) :=
  pieceStep .closeParen (addRecord inner)

/-- The parentheses of a class pattern and what stands between them. -/
def recordPattern (inner : Parse Pattern) (callee : Expr) : Parse Pattern := do
  expect .classPatternOpen
  let draft ← iterate (recordStep inner) ⟨[], .empty⟩
  expect .classPatternClose
  patternFrom callee.span.start (.record callee draft.positional draft.attributes.rows)

/-- A pattern that begins with a name: a value, a class, a capture, or the wildcard. -/
def namePattern (inner : Parse Pattern) (start : Token) : Parse Pattern := do
  if (← kindAt 1) == .dot then
    let value ← dottedValue
    if ← at? .openParen then recordPattern inner value
    else patternFrom start.start (.value value)
  else
    let _ ← next
    if ← at? .openParen then recordPattern inner (← nameOf start .load)
    else patternFrom start.start (.as none (boundName start.text))

/-- A pattern without operators. -/
def closedPattern (inner : Parse Pattern) (field : FieldReading) : Parse Pattern := do
  let token ← peek
  match token.kind with
  | .noneWord =>
    let _ ← next
    patternFrom token.start (.singleton .none)
  | .boolean =>
    let _ ← next
    patternFrom token.start (.singleton (.boolean (isTrueWord token)))
  | .integer | .float | .imaginary | .minus | .string | .bytes | .fstring =>
    let value ← literalValue field
    patternFrom token.start (.value value)
  | .identifier => namePattern inner token
  | .openParen => parenthesizedPattern inner (← next).start
  | .openBracket => sequencePattern inner (← next).start
  | .openBrace => mappingPattern inner field (← next).start
  | _ => failAtToken .noPattern token

/-- Alternatives, or a single pattern. -/
def orPattern (inner : Parse Pattern) (field : FieldReading) : Parse Pattern := do
  let start ← peek
  let first ← closedPattern inner field
  let rest ← collect do
    if ← accept .pipe then return some (← closedPattern inner field) else return none
  if rest.length = 0 then return first
  else patternFrom start.start (.or (first :: rest))

/-- A pattern and perhaps the name for what it matches. -/
def asPattern (inner : Parse Pattern) (field : FieldReading) : Parse Pattern := do
  let start ← peek
  let pattern ← orPattern inner field
  if ← accept .kwAs then
    let name ← expectName .asPattern
    if name.text = text "_" then failAtToken .wildcardTarget name
    else patternFrom start.start (.as (some pattern) (some name.text))
  else return pattern

/-! ## All patterns -/

/-- Reads patterns that are nested less than `limit` times, and gives up on others. -/
def patternUpTo (field : FieldReading) : (limit : Nat) → Parse Pattern
  | 0 => failHere .unending
  | limit + 1 => asPattern (patternUpTo field limit) field

/-- Whether the patterns of a case end at the cursor. -/
def endsPatterns : Parse Bool := do
  match ← kind with
  | .colon | .kwIf => return true
  | _ => return false

/-- The pattern of a case: a sequence needs no brackets. -/
def casePattern (field : FieldReading) : Parse Pattern := do
  let pattern := patternUpTo field (← limit)
  let start ← peek
  let first ← starOr pattern
  if ← at? .comma then
    let rest ← moreItems endsPatterns (starOr pattern)
    patternFrom start.start (.sequence (first :: rest))
  else if first.isStar then failAtSpan .starredPattern first.span
  else return first

end SyntaxTree.Parse
