import SyntaxTree.Text.Bytes

/-
# Positions

Lines and columns count from one.  A column counts characters: a byte that continues a character
adds nothing.  Lines end at a line feed, a carriage return, or both as a pair.

Both are signed integers of 32 bits, taken without their bounds here: a source of fewer than
2 ^ 31 - 1 bytes is assumed, and walking over it does not reach them (`Position.advance_origin_lt`).
-/

namespace SyntaxTree

/-- A place in a source. -/
structure Position where
  line : Int
  column : Int
  deriving DecidableEq, Repr

namespace Position

/-- The place where a source begins. -/
def origin : Position := ⟨1, 1⟩

/-- The first column of the next line. -/
def nextLine (p : Position) : Position := ⟨p.line + 1, 1⟩

/-- The next column of the same line. -/
def nextColumn (p : Position) : Position := ⟨p.line, p.column + 1⟩

/-- The place reached from `p` by walking over a text.  A pair of carriage return and line feed
ends its line at the line feed. -/
def advance (p : Position) : Bytes → Position
  | [] => p
  | b :: s =>
    if b = Byte.carriageReturn ∧ s.head? = some Byte.lineFeed then advance p s
    else if b.isLineEnd then advance p.nextLine s
    else if b.isContinuation then advance p s
    else advance p.nextColumn s

/-- Reading order: earlier lines first, earlier columns first within a line. -/
def le (p q : Position) : Prop := p.line < q.line ∨ p.line = q.line ∧ p.column ≤ q.column

instance : LE Position := ⟨le⟩

instance (p q : Position) : Decidable (p ≤ q) :=
  inferInstanceAs (Decidable (p.line < q.line ∨ p.line = q.line ∧ p.column ≤ q.column))

end Position

/-- The part of a source that a piece of syntax covers; its end may be unknown. -/
structure Span where
  start : Position
  stop : Option Position
  deriving DecidableEq, Repr

/-- The span of syntax that comes from no source. -/
def Span.none : Span := ⟨⟨0, 0⟩, .none⟩

end SyntaxTree
