/-
# Byte strings

A text is a list of bytes, so that a source need not be well-formed UTF-8.  The classes of bytes
below are those of ASCII, and decimal and hexadecimal numerals are written in ASCII digits.
-/

namespace SyntaxTree

/-- One byte of a text. -/
abbrev Byte := UInt8

/-- A text as its bytes. -/
abbrev Bytes := List Byte

/-- The byte of an ASCII character. -/
abbrev ascii (c : Char) : Byte := c.toUInt8

/-- The bytes of an ASCII text. -/
def text (s : String) : Bytes := s.toList.map Char.toUInt8

namespace Byte

abbrev tab : Byte := 9
abbrev lineFeed : Byte := 10
abbrev formFeed : Byte := 12
abbrev carriageReturn : Byte := 13
abbrev space : Byte := 32
abbrev doubleQuote : Byte := 34
abbrev singleQuote : Byte := 39
abbrev backslash : Byte := 92
abbrev underscore : Byte := 95
abbrev openBrace : Byte := 123
abbrev closeBrace : Byte := 125

/-! ## Classes of bytes -/

/-- A decimal digit. -/
def isDigit (b : Byte) : Bool := 48 ≤ b && b ≤ 57

/-- A capital letter. -/
def isUpper (b : Byte) : Bool := 65 ≤ b && b ≤ 90

/-- A small letter. -/
def isLower (b : Byte) : Bool := 97 ≤ b && b ≤ 122

/-- A letter. -/
def isLetter (b : Byte) : Bool := isUpper b || isLower b

/-- A hexadecimal digit in either case. -/
def isHexDigit (b : Byte) : Bool :=
  isDigit b || (65 ≤ b && b ≤ 70) || (97 ≤ b && b ≤ 102)

/-- A byte of a character beyond ASCII. -/
def isNonAscii (b : Byte) : Bool := 128 ≤ b

/-- A byte that continues a character of several bytes. -/
def isContinuation (b : Byte) : Bool := b &&& 0xC0 == 0x80

/-- A byte that ends a line, alone or as part of a pair. -/
def isLineEnd (b : Byte) : Bool := b == lineFeed || b == carriageReturn

/-- A byte that separates tokens without ending a line. -/
def isBlank (b : Byte) : Bool := b == space || b == tab || b == formFeed

/-- A byte that opens and closes string literals. -/
def isQuote (b : Byte) : Bool := b == doubleQuote || b == singleQuote

/-- A byte with a visible form, the space included. -/
def isPrintable (b : Byte) : Bool := 32 ≤ b && b ≤ 126

/-- The small letter of a capital letter, and every other byte unchanged. -/
def toLower (b : Byte) : Byte := if isUpper b then b + 32 else b

/-- The capital letter of a small letter, and every other byte unchanged. -/
def toUpper (b : Byte) : Byte := if isLower b then b - 32 else b

/-- The digit of a number below ten. -/
def digit (n : Nat) : Byte := (48 + n).toUInt8

/-- The hexadecimal digit of a number below sixteen, in small letters. -/
def hexDigit (n : Nat) : Byte := if n < 10 then digit n else (87 + n).toUInt8

end Byte

namespace Bytes

/-! ## Numerals -/

/-- The decimal numeral of a natural number. -/
def ofNat (n : Nat) : Bytes :=
  if n < 10 then [Byte.digit n] else ofNat (n / 10) ++ [Byte.digit (n % 10)]

/-- The decimal numeral of an integer, with a minus sign if it is negative. -/
def ofInt : Int → Bytes
  | .ofNat n => ofNat n
  | .negSucc n => ascii '-' :: ofNat (n + 1)

/-- The hexadecimal numeral of a natural number in small letters. -/
def ofNatHex (n : Nat) : Bytes :=
  if n < 16 then [Byte.hexDigit n] else ofNatHex (n / 16) ++ [Byte.hexDigit (n % 16)]

/-- The hexadecimal numeral padded with zeros to at least `width` digits. -/
def hexPadded (width n : Nat) : Bytes :=
  let digits := ofNatHex n
  List.replicate (width - digits.length) (ascii '0') ++ digits

/-! ## Pieces of a text -/

/-- The text in small letters. -/
def toLower (s : Bytes) : Bytes := s.map Byte.toLower

/-- The text in capital letters. -/
def toUpper (s : Bytes) : Bytes := s.map Byte.toUpper

/-- `n` spaces. -/
def spaces (n : Nat) : Bytes := List.replicate n Byte.space

/-- What follows `start` in `s`, if `s` begins with it. -/
def dropPrefix? : (start s : Bytes) → Option Bytes
  | [], s => some s
  | _ :: _, [] => none
  | a :: start, b :: s => if a = b then dropPrefix? start s else none

/-- The items with a separator between each two neighbours. -/
def joinWith (separator : Bytes) : List Bytes → Bytes
  | [] => []
  | [item] => item
  | item :: rest => item ++ separator ++ joinWith separator rest

/-- The text up to its first NUL byte. -/
def untilNul (s : Bytes) : Bytes := s.takeWhile (· ≠ 0)

/-- Each carriage return, alone or with the line feed behind it, becomes one line feed. -/
def unifyLineEnds : Bytes → Bytes
  | [] => []
  | b :: s =>
    if b = Byte.carriageReturn then
      if s.head? = some Byte.lineFeed then unifyLineEnds s else Byte.lineFeed :: unifyLineEnds s
    else b :: unifyLineEnds s

/-- The lines of a text without their terminators: line feed, carriage return, or both as a pair.
What follows the last terminator is a line of its own, also when it is empty. -/
def lines : Bytes → List Bytes
  | [] => [[]]
  | b :: s =>
    if b = Byte.carriageReturn ∧ s.head? = some Byte.lineFeed then lines s
    else if b.isLineEnd then [] :: lines s
    else match lines s with
      | [] => [[b]]
      | line :: rest => (b :: line) :: rest

theorem dropPrefix?_append (start s : Bytes) : dropPrefix? start (start ++ s) = some s := by
  induction start with
  | nil => rfl
  | cons a start ih => simp [dropPrefix?, ih]

theorem eq_append_of_dropPrefix? {start s rest : Bytes} (h : dropPrefix? start s = some rest) :
    s = start ++ rest := by
  fun_induction dropPrefix? start s with
  | case1 s => simpa using h
  | case2 => simp at h
  | case3 start b s ih => simp [ih h]
  | case4 => simp at h

end Bytes

end SyntaxTree
