import SyntaxTree.Grammar.Cursor
import SyntaxTree.Grammar.FString

/-
# Adjacent string literals

Literals that stand side by side form one value.  Their literal texts are joined until a replacement
field comes between them.
-/

namespace SyntaxTree

/-- The place of an offset in the text of a token; only line feeds end lines there. -/
def Token.placeAt (offset : Nat) (token : Token) : Position :=
  (token.text.take offset).foldl (fun p b =>
    if b = Byte.lineFeed then p.nextLine
    else if b.isContinuation then p
    else p.nextColumn) token.start

/-- The values of an f-string so far, and the literal text that follows them. -/
structure Draft where
  values : List Expr
  pending : Bytes

namespace Draft

/-- The draft before any literal. -/
def empty : Draft := ⟨[], []⟩

/-- The draft with more literal text. -/
def append (draft : Draft) (s : Bytes) : Draft := { draft with pending := draft.pending ++ s }

/-- The draft whose literal text has become a value, unless it is empty. -/
def flush (span : Span) (draft : Draft) : Draft :=
  if draft.pending = [] then draft
  else ⟨draft.values ++ [.node span (.constant (.string draft.pending))], []⟩

/-- The draft with another value behind the literal text. -/
def push (span : Span) (value : Expr) (draft : Draft) : Draft :=
  let draft := draft.flush span
  { draft with values := draft.values ++ [value] }

end Draft

/-- How literals are read: which names characters have, and how the expression of a replacement
field is read from its source and its place. -/
structure FieldReading where
  names : Unicode.CharacterNames
  read : Bytes → Position → Parse Expr

namespace Parse

/-- Adds literal text, in which escapes are read unless it is raw. -/
def addLiteral (names : Unicode.CharacterNames) (token : Token) (isRaw isBytes : Bool)
    (draft : Draft) (s : Bytes) : Parse Draft := do
  if isRaw then return draft.append s
  match Literal.unescape names isBytes s with
  | .error cause => failAt (.escape cause) token.start token.text
  | .ok value => return draft.append value

mutual

/-- Adds a piece of an f-string whose body begins `base` bytes behind the start of its token. -/
def addPiece (field : FieldReading) (token : Token) (base : Nat) (isRaw : Bool) (draft : Draft) :
    FString.Piece → Parse Draft
  | .literal s => addLiteral field.names token isRaw false draft s
  | .brace b => return draft.append [b]
  | .field offset source echo conversion spec => do
    let value ← field.read source (token.placeAt (base + offset))
    let spec ← readSpec field token base isRaw spec
    let conversion :=
      if echo ≠ [] ∧ conversion = none ∧ spec.isNone then some .repr else conversion
    return (draft.append echo).push token.span
      (.node ⟨value.span.start, none⟩ (.field value conversion spec))
  | .fault cause offset => failAt (.fstring cause) (token.placeAt (base + offset)) token.text

/-- Adds pieces one after the other. -/
def addPieces (field : FieldReading) (token : Token) (base : Nat) (isRaw : Bool) (draft : Draft) :
    List FString.Piece → Parse Draft
  | [] => return draft
  | piece :: rest => do
    let draft ← addPiece field token base isRaw draft piece
    addPieces field token base isRaw draft rest

/-- The format specification that pieces form. -/
def readSpec (field : FieldReading) (token : Token) (base : Nat) (isRaw : Bool) :
    Option (List FString.Piece) → Parse (Option FormatSpec)
  | none => return none
  | some pieces => do
    let draft ← addPieces field token base isRaw .empty pieces
    return some (.mk ⟨token.start, none⟩ (draft.flush token.span).values)

end

/-- Adds one literal; the run it belongs to is one of bytes literals if `isBytes` says so. -/
def addToken (field : FieldReading) (isBytes : Bool) (draft : Draft) (token : Token) :
    Parse Draft := do
  let parts := Literal.Parts.of token.text
  if parts.isBytes ≠ isBytes then failAtToken .mixedBytes token
  else if parts.isFormatted then
    addPieces field token parts.offset parts.isRaw draft (FString.divide parts.isRaw parts.body)
  else addLiteral field.names token parts.isRaw parts.isBytes draft parts.body.unifyLineEnds

/-- The run of string literals at the cursor. -/
def strings (field : FieldReading) : Parse Expr := do
  let first ← peek
  let isBytes := first.kind = .bytes
  let step (run : Draft × Bool) : Parse (ForInStep (Draft × Bool)) := do
    if (← kind).isText then
      let token ← next
      let draft ← addToken field isBytes run.1 token
      return .yield (draft, run.2 || (Literal.Parts.of token.text).isFormatted)
    else return .done run
  let (draft, isFormatted) ← iterate step (.empty, false)
  if isBytes then exprFrom first.start (.constant (.bytes draft.pending))
  else if isFormatted then
    exprFrom first.start (.fstring (draft.flush first.span).values)
  else exprFrom first.start (.constant (.string draft.pending))

end Parse

end SyntaxTree
