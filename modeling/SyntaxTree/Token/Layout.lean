import SyntaxTree.Token.Lexeme
import SyntaxTree.Unicode.Normal

/-
# Layout

Lexemes become tokens line by line.  A logical line ends at a line end outside of brackets; before
its first token its indentation is compared with the blocks that are open.  Lines that are blank or
hold only a comment have no layout, and blanks, comments and joins leave no other trace.
-/

namespace SyntaxTree

/-- Where the reading of lexemes stands. -/
structure Layout where
  /-- The place of the next lexeme. -/
  place : Position
  /-- The indentations of the open blocks, the innermost first. -/
  levels : List Nat
  /-- How many brackets are open. -/
  depth : Nat
  /-- The blanks read so far on a logical line that has no token yet. -/
  margin : Option Bytes
  /-- Whether the logical line has a token. -/
  lineOpen : Bool
  deriving DecidableEq, Repr

namespace Layout

/-- The beginning of a source. -/
def start : Layout := ⟨.origin, [], 0, some [], false⟩

/-- The width of the blanks of a margin: a tab moves to the next multiple of eight, and a form feed
starts over. -/
def width (blanks : Bytes) : Nat :=
  blanks.foldl (fun n b =>
    if b = Byte.tab then (n / 8 + 1) * 8 else if b = Byte.formFeed then 0 else n + 1) 0

/-- The indentation of the innermost open block. -/
def level (layout : Layout) : Nat := layout.levels.headD 0

/-- The layout behind a lexeme. -/
def advance (layout : Layout) (s : Bytes) : Layout :=
  { layout with place := layout.place.advance s }

/-- A token of no width at the present place. -/
def mark (layout : Layout) (kind : TokenKind) (name : Bytes) : Token :=
  .empty kind name layout.place

/-- The end of an indented block. -/
def dedent (layout : Layout) : Token := layout.mark .dedent (text "<DEDENT>")

/-- Begins the logical line whose margin has been read: a wider margin opens a block, and a narrower
one closes the blocks down to one of its own width, which must exist. -/
def openLine (layout : Layout) : Except LexicalError (List Token × Layout) :=
  match layout.margin with
  | none => .ok ([], layout)
  | some blanks =>
    let column := width blanks
    if layout.level < column then
      let indent : Token := ⟨.indent, blanks, ⟨layout.place.line, 1⟩, layout.place⟩
      .ok ([indent],
        { layout with levels := column :: layout.levels, margin := none, lineOpen := true })
    else
      let closed := layout.levels.takeWhile (column < ·)
      let layout := { layout with levels := layout.levels.drop closed.length, margin := none }
      if layout.level = column then .ok (closed.map fun _ => layout.dedent, layout)
      else .error ⟨.unmatchedIndentation, layout.place⟩

/-- How many brackets are open behind a token; a closing bracket too many changes nothing. -/
def depthAfter (depth : Nat) (kind : TokenKind) : Nat :=
  if kind.isOpening then depth + 1 else if kind.isClosing then depth - 1 else depth

/-- The text of a token: an identifier with characters beyond ASCII is brought into normal form. -/
def tokenText (kind : TokenKind) (spelling : Bytes) : Bytes :=
  if kind = .identifier ∧ spelling.any Byte.isNonAscii then Unicode.normalize spelling else spelling

/-- The token of a lexeme that begins at the present place. -/
def token (layout : Layout) (kind : TokenKind) (spelling : Bytes) : Token :=
  ⟨kind, tokenText kind spelling, layout.place, layout.place.advance spelling⟩

/-- The tokens that one lexeme adds, and the layout behind it. -/
def step (keepComments : Bool) (layout : Layout) (lexeme : Lexeme) :
    Except LexicalError (List Token × Layout) :=
  match lexeme.kind with
  | .blank =>
    let margin := layout.margin.map fun _ => lexeme.text
    .ok ([], { layout with margin := margin }.advance lexeme.text)
  | .comment =>
    let kept := if keepComments then [layout.token .comment lexeme.text] else []
    .ok (kept, layout.advance lexeme.text)
  | .lineEnd =>
    if layout.depth = 0 then
      let newline : Token := ⟨.newline, text "\n", layout.place, layout.place.nextColumn⟩
      .ok (if layout.lineOpen then [newline] else [],
        { layout with margin := some [], lineOpen := false }.advance lexeme.text)
    else .ok ([], layout.advance lexeme.text)
  | .join => do
    let (opened, layout) ← layout.openLine
    .ok (opened, layout.advance lexeme.text)
  | .token kind => do
    let (opened, layout) ← layout.openLine
    let depth := depthAfter layout.depth kind
    .ok (opened ++ [layout.token kind lexeme.text],
      { layout with depth := depth, lineOpen := true }.advance lexeme.text)

/-- The tokens at the end of a source: the last line ends, and all blocks do. -/
def finish (layout : Layout) : List Token :=
  (if layout.lineOpen then [layout.mark .newline (text "\n")] else []) ++
    layout.levels.map (fun _ => layout.dedent) ++ [layout.mark .endOfInput []]

/-- The error of a source whose division stops here: a line that cannot begin comes first. -/
def fail (layout : Layout) (cause : LexicalCause) : LexicalError :=
  match layout.openLine with
  | .error e => e
  | .ok _ => ⟨cause, layout.place⟩

/-- The tokens of the rest of a source. -/
def tokens (keepComments : Bool) (failure : Option LexicalCause) :
    Layout → List Lexeme → Except LexicalError (List Token)
  | layout, [] =>
    match failure with
    | none => .ok layout.finish
    | some cause => .error (layout.fail cause)
  | layout, lexeme :: rest => do
    let (emitted, layout) ← layout.step keepComments lexeme
    let more ← tokens keepComments failure layout rest
    .ok (emitted ++ more)

end Layout

/-- A source without the mark of its encoding. -/
def dropMark (source : Bytes) : Bytes :=
  (Bytes.dropPrefix? [0xEF, 0xBB, 0xBF] source).getD source

/-- The tokens of a source; comments are among them if `keepComments` says so. -/
def tokenize (keepComments : Bool) (source : Bytes) :
    Except LexicalError (List Token) :=
  let division := Division.ofBytes (dropMark source)
  Layout.start.tokens keepComments division.failure division.lexemes

end SyntaxTree
