import SyntaxTree.Grammar.Module

/-
# Diagnostics

An error as it is shown on a terminal: the file, the place, the message, the source line and a caret
below the column.  Colours are control sequences around the place and the label.
-/

namespace SyntaxTree

/-! ## Finding a line -/

/-- What follows the first line end. -/
def afterLine? : Bytes → Option Bytes
  | [] => none
  | b :: s =>
    if b.isLineEnd then
      if b = Byte.carriageReturn ∧ s.head? = some Byte.lineFeed then some s.tail else some s
    else afterLine? s

/-- The line behind `count` line ends. -/
def lineBehind? : (count : Nat) → Bytes → Option Bytes
  | 0, s => some (s.takeWhile (!·.isLineEnd))
  | count + 1, s => (afterLine? s).bind (lineBehind? count)

/-! ## Diagnostics -/

/-- A message about a place in a file. -/
structure Diagnostic where
  message : Bytes
  file : Bytes
  place : Position
  deriving DecidableEq, Repr

/-- The diagnostic of a source that cannot be read. -/
def ReadError.diagnostic (file : Bytes) : ReadError → Diagnostic
  | .lexical e => ⟨e.cause.description, file, e.place⟩
  | .grammar e => ⟨e.cause.message, file, e.place⟩

namespace Diagnostic

/-- A control sequence for the terminal. -/
def control (code : String) : Bytes := text "\x1b[" ++ text code ++ text "m"

/-- A text in a colour. -/
def coloured (color : Bool) (code : String) (s : Bytes) : Bytes :=
  if color then control code ++ s ++ control "0" else s

/-- The file and the place, unless the file has no name. -/
def header (color : Bool) (d : Diagnostic) : Bytes :=
  if d.file = [] then []
  else
    coloured color "1"
      (d.file ++ text ":" ++ Bytes.ofInt d.place.line ++ text ":" ++
        Bytes.ofInt d.place.column ++ text ": ")

/-- The source line and a caret below the column, if there is such a line. -/
def excerpt (source : Bytes) (d : Diagnostic) : Bytes :=
  if 0 < d.place.line ∧ 0 < d.place.column then
    match lineBehind? (d.place.line - 1).toNat source with
    | some line =>
      text "  " ++ line ++ text "\n  " ++ Bytes.spaces (d.place.column - 1).toNat ++ text "^\n"
    | none => []
  else []

/-- The diagnostic as it is shown. -/
def write (color : Bool) (source : Bytes) (d : Diagnostic) : Bytes :=
  d.header color ++ coloured color "31" (text "error: ") ++ d.message ++ text "\n" ++
    d.excerpt source

end Diagnostic

end SyntaxTree
