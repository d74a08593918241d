import SyntaxTree.Grammar.Cause

/-
# Syntax errors

A syntax error has a cause, the text that was found, and its place.  Its message shows the source
line with a caret below the place; where one punctuation mark alone would have been accepted, it
also shows the line with that mark put in.
-/

namespace SyntaxTree

/-! ## Lines of a source -/

/-- The line of a number, counted from one; empty if there is no such line. -/
def lineAt (lines : List Bytes) (number : Int) : Bytes :=
  if number < 1 then [] else lines.getD (number - 1).toNat []

/-- How many bytes the first `count` characters of a line take. -/
def offsetOfColumn : (count : Nat) → Bytes → Nat
  | 0, _ => 0
  | _ + 1, [] => 0
  | count + 1, _ :: s =>
    1 + (s.takeWhile Byte.isContinuation).length +
      offsetOfColumn count (s.dropWhile Byte.isContinuation)

/-- The line with a mark put in front of a column. -/
def insertAtColumn (line mark : Bytes) (column : Int) : Bytes :=
  let offset := offsetOfColumn (column - 1).toNat line
  line.take offset ++ mark ++ line.drop offset

/-! ## Errors -/

/-- The marks that a message may suggest to put in. -/
def insertableMarks : List Bytes :=
  [text ":", text "(", text ")", text "[", text "]", text "\x7b", text "\x7d", text ",", text ";",
    text "=", text "->", text "."]

/-- The source line of an error, and that line as it may have been meant. -/
structure ErrorContext where
  line : Bytes
  suggestion : Option Bytes
  deriving DecidableEq, Repr

/-- The context of an error at a place where one of the given spellings was expected. -/
def ErrorContext.of (lines : List Bytes) (place : Position) (expected : List Bytes) :
    ErrorContext :=
  let line := lineAt lines place.line
  match expected with
  | [mark] =>
    if insertableMarks.contains mark ∧ line ≠ [] then
      ⟨line, some (insertAtColumn line mark place.column)⟩
    else ⟨line, none⟩
  | _ => ⟨line, none⟩

/-- Tokens that form no tree.  An error in a reading that may fail has no context. -/
structure SyntaxError where
  cause : SyntaxCause
  found : Bytes
  place : Position
  context : Option ErrorContext
  deriving DecidableEq, Repr

namespace SyntaxError

/-- The line as it may have been meant. -/
def suggestion (e : SyntaxError) : Option Bytes := e.context.bind (·.suggestion)

/-- The source line with a caret below a place. -/
def showLine (line : Bytes) (place : Position) : Bytes :=
  if line = [] then []
  else text "\n" ++ line ++ text "\n" ++ Bytes.spaces (place.column - 1).toNat ++ text "^"

/-- The whole message of a syntax error. -/
def message (e : SyntaxError) : Bytes :=
  match e.context with
  | none => e.cause.message
  | some context =>
    e.place.describe e.cause.message ++ showLine context.line e.place ++
      match context.suggestion with
      | none => []
      | some line => text "\nDid you mean:\n" ++ line

end SyntaxError

end SyntaxTree
