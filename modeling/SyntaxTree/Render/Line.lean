import SyntaxTree.Text.Bytes

/-
# Lines of a written module

A written module is a list of lines, each with the depth of its block.  A style says how wide a
block is indented and how long a line should be; a longer line with brackets is split into one line
for each item between them.

Depths, widths and lengths are signed integers of 32 bits.  A line so deep that its blanks cannot be
counted by one has no text, and neither has a module with such a line.
-/

namespace SyntaxTree

/-- How modules are written. -/
structure Style where
  /-- The blanks in front of a block; fewer than one count as one. -/
  indent : Int
  /-- Whether the last of split items has a comma behind it. -/
  trailingCommas : Bool
  /-- The length up to which a line is left alone. -/
  maxLineLength : Int
  /-- Whether single quotes are preferred. -/
  singleQuotes : Bool
  deriving DecidableEq, Repr

namespace Style

/-- The usual style. -/
def default : Style := ⟨4, true, 88, false⟩

/-- The preferred quote. -/
def quote (style : Style) : Byte :=
  if style.singleQuotes then Byte.singleQuote else Byte.doubleQuote

/-- The blanks that a block has more than the line in front of it. -/
def width (style : Style) : Nat := (max style.indent 1).toNat

/-- The blanks in front of a line at a depth, however many they are. -/
def margin (style : Style) (depth : Nat) : Bytes := Bytes.spaces (depth * style.width)

/-- Whether a signed integer of 32 bits counts the blanks in front of a line at a depth.  A product
of depth and width beyond these integers is not defined, so there is no such line. -/
def HasMargin (style : Style) (depth : Nat) : Prop := depth * style.width < 0x80000000

instance (style : Style) (depth : Nat) : Decidable (style.HasMargin depth) :=
  inferInstanceAs (Decidable (_ < _))

/-- The blanks in front of a line at a depth, if they can be counted. -/
def margin? (style : Style) (depth : Nat) : Option Bytes :=
  if style.HasMargin depth then some (style.margin depth) else none

/-- Whether a line at a depth is short enough, its length taken as a signed integer of 32 bits. -/
def fits (style : Style) (depth : Nat) (s : Bytes) : Bool :=
  ((style.margin depth ++ s).length : Int).bmod 0x100000000 ≤ style.maxLineLength

end Style

/-- A line of a written module. -/
inductive Line where
  | code (depth : Nat) (s : Bytes)
  | blank
  deriving DecidableEq, Repr

namespace Line

/-- The text of a line. -/
def write (style : Style) : Line → Bytes
  | code depth s => style.margin depth ++ s ++ text "\n"
  | blank => text "\n"

/-- The text of lines. -/
def writeAll (style : Style) (lines : List Line) : Bytes := lines.flatMap (write style)

/-- The text of a line, if its blanks can be counted. -/
def write? (style : Style) : Line → Option Bytes
  | code depth s => (style.margin? depth).map fun margin => margin ++ s ++ text "\n"
  | blank => some (text "\n")

/-- The text of lines, if there is one for each of them. -/
def writeAll? (style : Style) (lines : List Line) : Option Bytes :=
  (lines.mapM (write? style)).map List.flatten

/-- The depth of a line. -/
def depth : Line → Nat
  | code depth _ => depth
  | blank => 0

/-- Items between brackets, each on a line of its own with a comma behind it; the last one has its
comma if `closing` says so. -/
def ofItems (depth : Nat) (closing : Bool) : List Bytes → List Line
  | [] => []
  | [item] => [code depth (item ++ if closing then text "," else [])]
  | item :: rest => code depth (item ++ text ",") :: ofItems depth closing rest

end Line

/-- What stands between a pair of brackets, and around it. -/
structure Bracketed where
  head : Bytes
  opening : Byte
  items : List Bytes
  closing : Byte
  tail : Bytes
  /-- Whether a single item needs a comma. -/
  isTuple : Bool

namespace Bracketed

/-- Whether a single item has its comma. -/
def needsComma (b : Bracketed) : Bool := b.isTuple && b.items.length == 1

/-- All of it on one line. -/
def flat (b : Bracketed) : Bytes :=
  b.head ++ [b.opening] ++ Bytes.joinWith (text ", ") b.items ++
    (if b.needsComma then text "," else []) ++ [b.closing] ++ b.tail

/-- One line, or one line for each item if that would be too long. -/
def lines (style : Style) (depth : Nat) (b : Bracketed) : List Line :=
  if b.items = [] ∨ style.fits depth b.flat then [.code depth b.flat]
  else
    .code depth (b.head ++ [b.opening]) ::
      Line.ofItems (depth + 1) (style.trailingCommas || b.needsComma) b.items ++
      [.code depth (b.closing :: b.tail)]

end Bracketed

end SyntaxTree
