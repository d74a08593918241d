import SyntaxTree.Text.Utf8
import SyntaxTree.Token.Number
import SyntaxTree.Token.Text
import SyntaxTree.Unicode.Identifier

/-
# Lexemes

A source is divided into lexemes without looking at its layout: runs of blanks, line ends, comments,
joined lines and the tokens proper.  The lexemes in order are the source, up to the place where no
lexeme can be found.
-/

namespace SyntaxTree

/-- What a piece of a source is. -/
inductive LexemeKind where
  /-- Spaces, tabs and form feeds. -/
  | blank
  /-- One end of a line. -/
  | lineEnd
  /-- A comment, without the end of its line. -/
  | comment
  /-- A backslash and the end of its line. -/
  | join
  | token (kind : TokenKind)
  deriving DecidableEq, Repr

/-- A piece of a source. -/
structure Lexeme where
  kind : LexemeKind
  text : Bytes
  deriving DecidableEq, Repr

namespace Lexeme

/-! ## Words -/

/-- A byte that continues a name by itself. -/
def isWordByte (b : Byte) : Bool := b.isLetter || b.isDigit || b == Byte.underscore

/-- What follows the characters that continue a name. -/
def afterWord (s : Bytes) : Bytes :=
  match s with
  | [] => []
  | b :: tail =>
    if b.isNonAscii then
      match h : Utf8.decode? (b :: tail) with
      | some (code, rest) =>
        have := Utf8.length_lt_of_decode? h
        if Unicode.isIdentifierContinue code then afterWord rest else b :: tail
      | none => b :: tail
    else if isWordByte b then afterWord tail
    else b :: tail
termination_by s.length
decreasing_by
  · exact this
  · exact Nat.lt_succ_self tail.length

/-- The name or keyword that a word is, or the literal whose prefix it is if a quote follows. -/
def afterWordOrText (word rest : Bytes) : Except LexicalCause (TokenKind × Bytes) :=
  match rest with
  | b :: body =>
    if b.isQuote && isStringPrefix word then (afterText word b body).map (textKind word, ·)
    else .ok (.ofWord word, rest)
  | [] => .ok (.ofWord word, rest)

/-- The part of a text in front of one of its suffixes. -/
def before (s rest : Bytes) : Bytes := s.take (s.length - rest.length)

/-- The name, keyword or prefixed literal that a text begins with. -/
def afterName (b : Byte) (s : Bytes) : Except LexicalCause (TokenKind × Bytes) :=
  if b.isNonAscii then
    match Utf8.decode? (b :: s) with
    | none => .error .malformedUtf8
    | some (code, rest) =>
      if Unicode.isIdentifierStart code then
        afterWordOrText (before (b :: s) (afterWord rest)) (afterWord rest)
      else .error (.invalidCode code)
  else afterWordOrText (before (b :: s) (afterWord s)) (afterWord s)

/-! ## Operators -/

/-- The longest operator that a text begins with. -/
def afterOperator (b : Byte) (s : Bytes) : Except LexicalCause (TokenKind × Bytes) :=
  match TokenKind.operators.find? (·.1.isPrefixOf (b :: s)) with
  | some (spelling, kind) => .ok (kind, s.drop (spelling.length - 1))
  | none => .error (.invalidByte b)

/-! ## One lexeme -/

/-- The token that a text begins with. -/
def afterToken (b : Byte) (s : Bytes) : Except LexicalCause (TokenKind × Bytes) :=
  if b.isDigit || (b == ascii '.' && s.head?.any Byte.isDigit) then Number.after b s
  else if b.isLetter || b == Byte.underscore || b.isNonAscii then afterName b s
  else if b.isQuote then (afterText [] b s).map (TokenKind.string, ·)
  else afterOperator b s

/-- What follows the line end that begins with `b`. -/
def afterLineEnd (b : Byte) (s : Bytes) : Bytes :=
  if b = Byte.carriageReturn ∧ s.head? = some Byte.lineFeed then s.tail else s

/-- What follows a backslash and its line end; a source must not end there. -/
def afterJoin : Bytes → Except LexicalCause Bytes
  | [] => .error .backslashAtEnd
  | b :: s =>
    if b.isLineEnd then
      match afterLineEnd b s with
      | [] => .error .backslashAtEnd
      | rest => .ok rest
    else .error .textAfterBackslash

/-- The kind of the lexeme that a text begins with, and what follows it. -/
def next (b : Byte) (s : Bytes) : Except LexicalCause (LexemeKind × Bytes) :=
  if b.isBlank then .ok (.blank, s.dropWhile Byte.isBlank)
  else if b.isLineEnd then .ok (.lineEnd, afterLineEnd b s)
  else if b = ascii '#' then .ok (.comment, s.dropWhile (!·.isLineEnd))
  else if b = Byte.backslash then (afterJoin s).map (.join, ·)
  else (afterToken b s).map fun (kind, rest) => (.token kind, rest)

/-! ## What follows a lexeme is a suffix -/

theorem suffix_afterWord (s : Bytes) : afterWord s <:+ s := by
  fun_induction afterWord s with
  | case1 => exact List.suffix_refl []
  | case2 b tail _ code rest hdecode _ _ ih =>
    exact ih.trans ((Utf8.suffix_of_decode? hdecode).trans (List.suffix_cons b tail))
  | case5 b tail _ _ ih => exact ih.trans (List.suffix_cons b tail)
  | _ => exact List.suffix_refl _

theorem suffix_of_afterWordOrText {kind : TokenKind} {word start rest : Bytes}
    (h : afterWordOrText word start = .ok (kind, rest)) : rest <:+ start := by
  unfold afterWordOrText at h
  split at h
  · split at h
    · obtain ⟨rest', hrest, h⟩ := exists_of_map_eq_ok h
      grind [suffix_of_afterText, List.suffix_cons_iff]
    · grind [List.suffix_refl]
  · grind [List.suffix_refl]

theorem suffix_of_afterName {kind : TokenKind} {b : Byte} {s rest : Bytes}
    (h : afterName b s = .ok (kind, rest)) : rest <:+ s := by
  unfold afterName at h
  split at h
  · split at h
    · simp at h
    · next hdecode =>
      split at h
      · exact (suffix_of_afterWordOrText h).trans
          ((suffix_afterWord _).trans (Utf8.suffix_of_decode? hdecode))
      · simp at h
  · exact (suffix_of_afterWordOrText h).trans (suffix_afterWord s)

theorem suffix_of_afterToken {kind : TokenKind} {b : Byte} {s rest : Bytes}
    (h : afterToken b s = .ok (kind, rest)) : rest <:+ s := by
  unfold afterToken at h
  split at h
  · exact Number.suffix_of_after h
  split at h
  · exact suffix_of_afterName h
  split at h
  · obtain ⟨rest', hrest, h⟩ := exists_of_map_eq_ok h
    grind [suffix_of_afterText]
  · unfold afterOperator at h
    grind [List.drop_suffix]

theorem suffix_afterLineEnd (b : Byte) (s : Bytes) : afterLineEnd b s <:+ s := by
  grind [afterLineEnd, List.tail_suffix, List.suffix_refl]

/-- A lexeme uses up at least one byte. -/
theorem suffix_of_next {b : Byte} {s rest : Bytes} {kind : LexemeKind}
    (h : next b s = .ok (kind, rest)) : rest <:+ s := by
  unfold next at h
  split at h
  · grind [List.dropWhile_suffix]
  split at h
  · grind [suffix_afterLineEnd]
  split at h
  · grind [List.dropWhile_suffix]
  split at h
  · obtain ⟨rest', hrest, h⟩ := exists_of_map_eq_ok h
    unfold afterJoin at hrest
    grind [suffix_afterLineEnd, List.suffix_cons_iff]
  · obtain ⟨⟨kind', rest'⟩, hrest, h⟩ := exists_of_map_eq_ok h
    grind [suffix_of_afterToken]

end Lexeme

/-! ## The division of a source -/

/-- A source divided into lexemes, and why the division stops short of the end, if it does. -/
structure Division where
  lexemes : List Lexeme
  failure : Option LexicalCause
  deriving DecidableEq, Repr

namespace Division

/-- The division of nothing. -/
def empty : Division := ⟨[], none⟩

/-- Puts a lexeme in front of a division. -/
def cons (lexeme : Lexeme) (division : Division) : Division :=
  { division with lexemes := lexeme :: division.lexemes }

/-- Divides a text into lexemes. -/
def ofBytes (s : Bytes) : Division :=
  match s with
  | [] => empty
  | b :: tail =>
    match h : Lexeme.next b tail with
    | .error cause => ⟨[], some cause⟩
    | .ok (kind, rest) =>
      have := (Lexeme.suffix_of_next h).length_le
      cons ⟨kind, Lexeme.before (b :: tail) rest⟩ (ofBytes rest)
termination_by s.length
decreasing_by simp only [List.length_cons]; omega

end Division

end SyntaxTree
