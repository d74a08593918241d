import SyntaxTree.Grammar.Error
import SyntaxTree.Tree.Basic

/-
# The token cursor

Readings of the grammar move a cursor over a list of tokens.  The cursor never passes the token that
ends the input, so there is always a token to look at.  A reading that fails leaves the cursor where
it stopped; a reading that may fail is tried, and the cursor returns if it does.
-/

namespace SyntaxTree

/-- A place in a list of tokens. -/
structure Cursor where
  /-- The lines of the source, for messages. -/
  lines : List Bytes
  /-- The tokens behind the cursor, the last one first. -/
  before : List Token
  /-- The tokens ahead, up to the one that ends the input. -/
  rest : List Token
  /-- The token that ends the input. -/
  final : Token
  /-- How many of the readings under way may fail without harm. -/
  attempts : Nat
  deriving DecidableEq, Repr

namespace Cursor

/-- The cursor in front of all tokens.  Comments are passed over, and tokens that do not end with
the end of the input get one there. -/
def ofTokens (lines : List Bytes) (tokens : List Token) : Cursor :=
  let tokens := tokens.filter (·.kind ≠ .comment)
  match tokens.getLast? with
  | none => ⟨lines, [], [], .empty .endOfInput [] .origin, 0⟩
  | some last =>
    if last.kind = .endOfInput then ⟨lines, [], tokens.dropLast, last, 0⟩
    else ⟨lines, [], tokens, .empty .endOfInput [] last.stop, 0⟩

/-- The token at a distance from the cursor. -/
def peekAt (distance : Nat) (c : Cursor) : Token := c.rest.getD distance c.final

/-- The token at the cursor. -/
def peek (c : Cursor) : Token := c.rest.headD c.final

/-- The cursor behind the next token; it stays in front of the one that ends the input. -/
def advance (c : Cursor) : Cursor :=
  match c.rest with
  | [] => c
  | token :: rest => { c with before := token :: c.before, rest := rest }

/-- The last of the tokens, given in reverse, that is more than layout; the first one if none is. -/
def lastOfReversed (first : Token) : List Token → Token
  | [] => first
  | token :: before =>
    if token.kind.isLayout then lastOfReversed token before else token

/-- The last token behind the cursor that is more than layout. -/
def last (c : Cursor) : Token := lastOfReversed c.peek c.before

/-- The span of syntax that begins at a place and ends behind the last token. -/
def spanFrom (start : Position) (c : Cursor) : Span :=
  ⟨start, if start ≤ c.last.stop then some c.last.stop else none⟩

/-- Where a message about a token points.  A missing rest of a line is reported where the line
stops. -/
def anchor (token : Token) (c : Cursor) : Position :=
  if token.kind = .newline ∨ token.kind = .dedent ∨ token.kind = .endOfInput then
    if c.before = [] ∨ c.last.kind.isLayout then token.start else c.last.stop
  else token.start

/-- The error at a place; its context is worked out only if it will be seen. -/
def errorAt (cause : SyntaxCause) (place : Position) (found : Bytes) (c : Cursor) : SyntaxError :=
  ⟨cause, found, place,
    if c.attempts = 0 then some (.of c.lines place cause.expected) else none⟩

end Cursor

/-- How a message shows the token that was found. -/
def Token.shown (token : Token) : Bytes :=
  match token.kind with
  | .newline => SyntaxTree.text "NEWLINE"
  | .indent => SyntaxTree.text "INDENT"
  | .dedent => SyntaxTree.text "DEDENT"
  | .endOfInput => SyntaxTree.text "EOF"
  | _ => token.text

/-- A reading: it moves the cursor and gives a result or an error. -/
abbrev Parse := EStateM SyntaxError Cursor

namespace Parse

variable {α σ : Type}

/-! ## Looking and moving -/

/-- The token at the cursor. -/
def peek : Parse Token := return (← get).peek

/-- The kind of the token at the cursor. -/
def kind : Parse TokenKind := return (← peek).kind

/-- The kind of the token at a distance from the cursor. -/
def kindAt (distance : Nat) : Parse TokenKind := return ((← get).peekAt distance).kind

/-- Whether the token at the cursor is of a kind. -/
def at? (kind : TokenKind) : Parse Bool := return (← peek).kind == kind

/-- Takes the token at the cursor. -/
def next : Parse Token := modifyGet fun c => (c.peek, c.advance)

/-- Takes the token at the cursor if it is of a kind, and tells whether it was. -/
def accept (kind : TokenKind) : Parse Bool := do
  if ← at? kind then
    let _ ← next
    return true
  else return false

/-- Whether the token at a distance from the cursor is an identifier with the given spelling. -/
def isWordAt (distance : Nat) (word : Bytes) : Parse Bool := do
  let token := (← get).peekAt distance
  return token.kind == .identifier && token.text == word

/-- Whether the token at the cursor can begin an expression. -/
def startsExpression : Parse Bool := do
  match ← kind with
  | .identifier | .integer | .float | .imaginary | .string | .bytes | .fstring | .boolean
  | .noneWord | .ellipsis | .openParen | .openBracket | .openBrace | .minus | .plus | .tilde
  | .kwNot | .kwLambda | .kwAwait => return true
  | _ => return false

/-- Whether the token at the cursor can begin an expression or a starred one. -/
def startsStarred : Parse Bool := do
  if ← startsExpression then return true else at? .star

/-- Whether a comprehension clause begins at the cursor. -/
def startsClause : Parse Bool := do
  if ← at? .kwFor then return true
  else if ← at? .kwAsync then return (← kindAt 1) == .kwFor
  else return false

/-! ## Failing -/

/-- Fails at a place. -/
def failAt (cause : SyntaxCause) (place : Position) (found : Bytes) : Parse α := do
  throw ((← get).errorAt cause place found)

/-- Fails at a token. -/
def failAtToken (cause : SyntaxCause) (token : Token) : Parse α := do
  failAt cause ((← get).anchor token) token.shown

/-- Fails at the token at the cursor. -/
def failHere (cause : SyntaxCause) : Parse α := do
  failAtToken cause (← peek)

/-- Fails at syntax that has been read. -/
def failAtSpan (cause : SyntaxCause) (span : Span) : Parse α := failAt cause span.start []

/-- Takes a token that must stand at the cursor. -/
def expect (what : Missing) : Parse Unit := do
  if ← accept what.kind then return () else failHere (.missing what)

/-- Takes an identifier that must stand at the cursor. -/
def expectName (role : NameRole) : Parse Token := do
  if ← at? .identifier then next else failHere (.missingName role)

/-- Takes the colon behind a header. -/
def expectColon (header : Header) : Parse Unit := expect (.colon header)

/-! ## Spans -/

/-- The span from a place to the last token that was taken. -/
def spanFrom (start : Position) : Parse Span := return (← get).spanFrom start

/-- An expression that began at a place and ends here. -/
def exprFrom (start : Position) (shape : Expr.Shape) : Parse Expr :=
  return .node (← spanFrom start) shape

/-- A pattern that began at a place and ends here. -/
def patternFrom (start : Position) (shape : Pattern.Shape) : Parse Pattern :=
  return .node (← spanFrom start) shape

/-- A statement that began at a place and ends here. -/
def stmtFrom (start : Position) (shape : Stmt.Shape) : Parse Stmt :=
  return .node (← spanFrom start) shape

/-! ## Repeating and trying -/

/-- Repeats a step until it is done, and gives up if `limit` times are not enough. -/
def iterateUpTo (step : σ → Parse (ForInStep σ)) : (limit : Nat) → σ → Parse σ
  | 0, _ => failHere .unending
  | limit + 1, s => do
    match ← step s with
    | .done s => return s
    | .yield s => iterateUpTo step limit s

/-- Repeats a step until it is done.  Every step but the last takes a token, so the tokens ahead
bound the number of steps. -/
def iterate (step : σ → Parse (ForInStep σ)) (s : σ) : Parse σ := do
  iterateUpTo step ((← get).rest.length + 1) s

/-- Reads less than `limit` items until there is none, and gives up otherwise. -/
def collectUpTo (item : Parse (Option α)) : (limit : Nat) → Parse (List α)
  | 0 => failHere .unending
  | limit + 1 => do
    match ← item with
    | none => return []
    | some a => return a :: (← collectUpTo item limit)

/-- Reads items until there is none.  Every item takes a token, so the tokens ahead bound their
number. -/
def collect (item : Parse (Option α)) : Parse (List α) := do
  collectUpTo item ((← get).rest.length + 1)

/-- Tries a reading.  If it fails or finds nothing, the cursor returns to where it was. -/
def attempt (reading : Parse (Option α)) : Parse (Option α) := fun c =>
  match reading { c with attempts := c.attempts + 1 } with
  | .ok (some a) c' => .ok (some a) { c' with attempts := c.attempts }
  | .ok none _ | .error _ _ => .ok none c

end Parse

end SyntaxTree
