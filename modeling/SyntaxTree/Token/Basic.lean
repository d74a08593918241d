import SyntaxTree.Text.Position
import SyntaxTree.Token.Kind

/-
# Tokens and lexical errors

A token has a kind, a text and the places where it starts and stops.  The text is the spelling in
the source; an identifier is in its normal form, and layout tokens have conventional texts.  A
lexical error has a cause and the place of the offending piece of the source.
-/

namespace SyntaxTree

/-- Two steps succeed one after the other exactly if each does. -/
theorem exists_of_bind_eq_ok {ε α β : Type} {step : Except ε α} {next : α → Except ε β} {b : β}
    (h : step >>= next = .ok b) : ∃ a, step = .ok a ∧ next a = .ok b := by
  cases step with
  | error e => simp [bind, Except.bind] at h
  | ok a => exact ⟨a, rfl, h⟩

/-- A mapped step succeeds exactly if the step does. -/
theorem exists_of_map_eq_ok {ε α β : Type} {step : Except ε α} {f : α → β} {b : β}
    (h : step.map f = .ok b) : ∃ a, step = .ok a ∧ f a = b := by
  cases step with
  | error e => simp [Except.map] at h
  | ok a => exact ⟨a, rfl, by simpa [Except.map] using h⟩

/-- A token of a source. -/
structure Token where
  kind : TokenKind
  text : Bytes
  start : Position
  stop : Position
  deriving DecidableEq, Repr

namespace Token

/-- A token that covers nothing. -/
def empty (kind : TokenKind) (text : Bytes) (place : Position) : Token :=
  ⟨kind, text, place, place⟩

/-- The span of a token. -/
def span (t : Token) : Span := ⟨t.start, some t.stop⟩

end Token

/-- The bases of integer literals. -/
inductive NumberBase where
  | binary | octal | decimal | hexadecimal
  deriving DecidableEq, Repr

namespace NumberBase

/-- The base as a number. -/
def radix : NumberBase → Nat
  | .binary => 2
  | .octal => 8
  | .decimal => 10
  | .hexadecimal => 16

/-- The name of a base. -/
def name : NumberBase → Bytes
  | .binary => text "binary"
  | .octal => text "octal"
  | .decimal => text "decimal"
  | .hexadecimal => text "hexadecimal"

/-- The digits of a base. -/
def isDigit : NumberBase → Byte → Bool
  | .binary, b => b == ascii '0' || b == ascii '1'
  | .octal, b => ascii '0' ≤ b && b ≤ ascii '7'
  | .decimal, b => b.isDigit
  | .hexadecimal, b => b.isHexDigit

/-- The base that a letter behind a leading zero announces, in either case. -/
def ofMarker? (b : Byte) : Option NumberBase :=
  if b.toLower = ascii 'x' then some .hexadecimal
  else if b.toLower = ascii 'o' then some .octal
  else if b.toLower = ascii 'b' then some .binary
  else none

end NumberBase

/-- Why a source cannot be divided into tokens. -/
inductive LexicalCause where
  /-- A line is indented less than its block and not like any block around it. -/
  | unmatchedIndentation
  /-- A string or bytes literal does not end. -/
  | unterminatedText (triple : Bool)
  /-- An f-string does not end. -/
  | unterminatedFString (triple : Bool)
  /-- A replacement field of an f-string does not end. -/
  | unterminatedField
  /-- A bytes literal holds a byte beyond ASCII. -/
  | nonAsciiBytes
  | malformedUtf8
  /-- A character beyond ASCII that cannot begin an identifier. -/
  | invalidCode (code : Nat)
  /-- An ASCII character that begins no token. -/
  | invalidByte (b : Byte)
  /-- A backslash outside of literals that is followed by more text on its line. -/
  | textAfterBackslash
  /-- A backslash at the end of the source. -/
  | backslashAtEnd
  | invalidNumber (base : NumberBase)
  /-- A literal of the given base runs into a character that is no digit of it. -/
  | invalidDigit (b : Byte) (base : NumberBase)
  | leadingZeros
  deriving DecidableEq, Repr

/-- The categories of lexical errors. -/
inductive LexicalCategory where
  | indentationMismatch | unterminatedLiteral | invalidCharacter | invalidNumber | unexpectedEnd
  deriving DecidableEq, Repr

namespace LexicalCategory

/-- All categories. -/
def all : List LexicalCategory :=
  [.indentationMismatch, .unterminatedLiteral, .invalidCharacter, .invalidNumber, .unexpectedEnd]

/-- The name of a category. -/
def name : LexicalCategory → String
  | .indentationMismatch => "indentation-mismatch"
  | .unterminatedLiteral => "unterminated-literal"
  | .invalidCharacter => "invalid-character"
  | .invalidNumber => "invalid-number"
  | .unexpectedEnd => "unexpected-eof"

end LexicalCategory

namespace LexicalCause

/-- The category of a cause. -/
def category : LexicalCause → LexicalCategory
  | unmatchedIndentation => .indentationMismatch
  | unterminatedText _ | unterminatedFString _ | unterminatedField => .unterminatedLiteral
  | nonAsciiBytes | malformedUtf8 | invalidCode _ | invalidByte _ | textAfterBackslash =>
    .invalidCharacter
  | backslashAtEnd => .unexpectedEnd
  | invalidNumber _ | invalidDigit _ _ | leadingZeros => .invalidNumber

/-- A code point in the usual notation. -/
def describeCode (code : Nat) : Bytes :=
  text "U+" ++ Bytes.toUpper (Bytes.hexPadded 4 code)

/-- The wording of a cause. -/
def description : LexicalCause → Bytes
  | unmatchedIndentation => text "unindent does not match any outer indentation level"
  | unterminatedText triple =>
    if triple then text "unterminated triple-quoted string literal"
    else text "unterminated string literal"
  | unterminatedFString triple =>
    if triple then text "unterminated triple-quoted f-string literal"
    else text "unterminated f-string literal"
  | unterminatedField => text "f-string: expecting '\x7d'"
  | nonAsciiBytes => text "bytes can only contain ASCII literal characters"
  | malformedUtf8 => text "invalid UTF-8 sequence"
  | invalidCode code => text "invalid character " ++ describeCode code
  | invalidByte b =>
    text "invalid character " ++
      if b.isPrintable then [Byte.singleQuote, b, Byte.singleQuote] else describeCode b.toNat
  | textAfterBackslash => text "unexpected character after line continuation character"
  | backslashAtEnd => text "unexpected EOF while parsing"
  | invalidNumber base => text "invalid " ++ base.name ++ text " literal"
  | invalidDigit b base =>
    text "invalid digit '" ++ [b] ++ text "' in " ++ base.name ++ text " literal"
  | leadingZeros => text "leading zeros in decimal integer literals are not permitted"

end LexicalCause

/-- A message with its place appended. -/
def Position.describe (p : Position) (message : Bytes) : Bytes :=
  message ++ text " at line " ++ Bytes.ofInt p.line ++ text ", column " ++ Bytes.ofInt p.column

/-- A source that cannot be divided into tokens: why, and where. -/
structure LexicalError where
  cause : LexicalCause
  place : Position
  deriving DecidableEq, Repr

/-- The whole message of a lexical error. -/
def LexicalError.message (e : LexicalError) : Bytes := e.place.describe e.cause.description

end SyntaxTree
