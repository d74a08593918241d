import SyntaxTree.Grammar.Cause
import SyntaxTree.Number.Reading
import SyntaxTree.Text.Utf8
import SyntaxTree.Tree.Basic
import SyntaxTree.Unicode.Name

/-
# Values of literals

A number literal denotes its value in decimal digits or as a floating-point number.  A string or
bytes literal has a prefix of letters, one or three quotes and a body, in which a backslash begins
an escape unless the prefix says otherwise.
-/

namespace SyntaxTree.Literal

open Unicode (CharacterNames)

/-! ## Numbers -/

/-- The value of a digit, letters counting on from ten.  Bytes that are neither have a value of the
same rule, which may be negative. -/
def digitValue (b : Byte) : Int :=
  if b.isDigit then (b.toNat : Int) - 48 else (b.toLower.toNat : Int) - 87

/-- The decimal digits of a number, the last one first; zero has none. -/
def carryDigits (n : Nat) : List Int :=
  if n = 0 then [] else (n % 10 : Nat) :: carryDigits (n / 10)

/-- Decimal digits, the last one first, multiplied by `base` and increased by `carry`. -/
def multiplyAdd (base : Int) : (carry : Int) → List Int → List Int
  | carry, [] => carryDigits carry.toNat
  | carry, d :: digits =>
    (d * base + carry).tmod 10 :: multiplyAdd base ((d * base + carry).tdiv 10) digits

/-- The decimal numeral whose digits are given, the last one first. -/
def numeralOfReversed (digits : List Int) : Bytes :=
  let shown := digits.reverse.map fun d => (48 + d).toNat.toUInt8
  match shown.dropWhile (· = ascii '0') with
  | [] => [ascii '0']
  | kept => kept

/-- The decimal numeral of a numeral in another base. -/
def toDecimal (base : Int) (digits : Bytes) : Bytes :=
  numeralOfReversed (digits.foldl (fun result b => multiplyAdd base (digitValue b) result) [0])

/-- The decimal numeral of an integer literal without underscores.  A letter behind a leading zero
announces another base. -/
def integerNumeral (s : Bytes) : Bytes :=
  match s with
  | zero :: marker :: d :: digits =>
    if zero = ascii '0' ∧ marker.isLetter then
      let base := (NumberBase.ofMarker? marker).getD .binary
      toDecimal base.radix (d :: digits)
    else numeralOfDecimal s
  | _ => numeralOfDecimal s
where
  /-- A decimal numeral without leading zeros. -/
  numeralOfDecimal (s : Bytes) : Bytes :=
    match s.dropWhile (· = ascii '0') with
    | [] => [ascii '0']
    | kept => kept

/-- The value of a number token. -/
def number (token : Token) : Constant :=
  let digits := token.text.filter (· ≠ Byte.underscore)
  match token.kind with
  | .imaginary => .imaginary (Numeral.read digits.dropLast)
  | .float => .float (Numeral.read digits)
  | _ => .integer (integerNumeral digits)

/-! ## Parts of a string literal -/

/-- What the letters in front of a string literal say, and its body behind the quotes. -/
structure Parts where
  isRaw : Bool
  isBytes : Bool
  isFormatted : Bool
  /-- How many bytes stand in front of the body. -/
  offset : Nat
  body : Bytes
  deriving DecidableEq, Repr

/-- How many quotes a literal begins and ends with. -/
def quoteCount : Bytes → Nat
  | q :: q₁ :: q₂ :: _ :: _ :: _ :: _ => if q₁ = q ∧ q₂ = q then 3 else 1
  | _ => 1

/-- The parts of a string literal. -/
def Parts.of (s : Bytes) : Parts :=
  let letters := Bytes.toLower (s.takeWhile (!·.isQuote))
  let quoted := s.dropWhile (!·.isQuote)
  let count := quoteCount quoted
  { isRaw := ascii 'r' ∈ letters
    isBytes := ascii 'b' ∈ letters
    isFormatted := ascii 'f' ∈ letters
    offset := letters.length + count
    body := (quoted.drop count).take (quoted.length - 2 * count) }

/-! ## Escapes -/

/-- The number that the first `count` bytes of a text denote as hexadecimal digits. -/
def hexDigits? (count : Nat) (s : Bytes) : Option Nat :=
  let digits := s.take count
  if digits.length = count ∧ digits.all Byte.isHexDigit then some (Numeral.ofDigits 16 digits)
  else none

/-- The byte that a letter behind a backslash denotes. -/
def simpleEscape? (letter : Byte) : Option Byte :=
  if letter = Byte.backslash ∨ letter.isQuote then some letter
  else if letter = ascii 'a' then some 7
  else if letter = ascii 'b' then some 8
  else if letter = ascii 'f' then some Byte.formFeed
  else if letter = ascii 'n' then some Byte.lineFeed
  else if letter = ascii 'r' then some Byte.carriageReturn
  else if letter = ascii 't' then some Byte.tab
  else if letter = ascii 'v' then some 11
  else none

/-- A digit below eight. -/
def isOctalDigit (b : Byte) : Bool := NumberBase.octal.isDigit b

/-- The octal escape that begins with a digit, and what follows: at most two more digits. -/
def readOctal (isBytes : Bool) (digit : Byte) (s : Bytes) : Except EscapeCause (Bytes × Bytes) :=
  let more := (s.take 2).takeWhile isOctalDigit
  let code := Numeral.ofDigits 8 (digit :: more)
  let rest := s.drop more.length
  if isBytes then
    if 0xFF < code then .error (.octalTooLarge (digit :: more)) else .ok ([code.toUInt8], rest)
  else .ok (Utf8.encode code, rest)

/-- The escape of a byte by two hexadecimal digits, and what follows. -/
def readHex (isBytes : Bool) (s : Bytes) : Except EscapeCause (Bytes × Bytes) :=
  match hexDigits? 2 s with
  | none => .error .truncatedHex
  | some code => .ok (if isBytes then [code.toUInt8] else Utf8.encode code, s.drop 2)

/-- The escape of a code point by hexadecimal digits, and what follows. -/
def readCode (count : Nat) (truncated : EscapeCause) (s : Bytes) :
    Except EscapeCause (Bytes × Bytes) :=
  match hexDigits? count s with
  | none => .error truncated
  | some code =>
    if 0x10FFFF < code then .error .illegalCode else .ok (Utf8.encode code, s.drop count)

/-- The escape of a code point by its name in braces, and what follows. -/
def readName (names : CharacterNames) (s : Bytes) : Except EscapeCause (Bytes × Bytes) :=
  match s with
  | [] => .error .malformedName
  | b :: s =>
    let name := s.takeWhile (· ≠ Byte.closeBrace)
    match s.drop name.length with
    | [] => .error .malformedName
    | _ :: rest =>
      if b = Byte.openBrace then
        match names.code? name with
        | none => .error .unknownName
        | some code => .ok (Utf8.encode code, rest)
      else .error .malformedName

/-- What the escape behind a backslash denotes, and what follows.  A backslash that begins no escape
stands for itself, and one at the end of a line joins it with the next. -/
def readEscape (names : CharacterNames) (isBytes : Bool) (letter : Byte) (s : Bytes) :
    Except EscapeCause (Bytes × Bytes) :=
  if letter = Byte.lineFeed then .ok ([], s)
  else match simpleEscape? letter with
  | some b => .ok ([b], s)
  | none =>
    if isOctalDigit letter then readOctal isBytes letter s
    else if letter = ascii 'x' then readHex isBytes s
    else if letter = ascii 'u' ∧ !isBytes then readCode 4 .truncatedShort s
    else if letter = ascii 'U' ∧ !isBytes then readCode 8 .truncatedLong s
    else if letter = ascii 'N' ∧ !isBytes then readName names s
    else .ok ([Byte.backslash, letter], s)

theorem suffix_of_readOctal {isBytes : Bool} {digit : Byte} {s value rest : Bytes}
    (h : readOctal isBytes digit s = .ok (value, rest)) : rest <:+ s := by
  grind [readOctal, List.drop_suffix]

theorem suffix_of_readHex {isBytes : Bool} {s value rest : Bytes}
    (h : readHex isBytes s = .ok (value, rest)) : rest <:+ s := by
  grind [readHex, List.drop_suffix]

theorem suffix_of_readCode {count : Nat} {truncated : EscapeCause} {s value rest : Bytes}
    (h : readCode count truncated s = .ok (value, rest)) : rest <:+ s := by
  grind [readCode, List.drop_suffix]

theorem suffix_of_readName {names : CharacterNames} {s value rest : Bytes}
    (h : readName names s = .ok (value, rest)) : rest <:+ s := by
  unfold readName at h
  split at h
  · simp at h
  · rename_i b s
    dsimp only at h
    split at h
    · simp at h
    · rename_i c tail hdrop
      have hsuffix : c :: tail <:+ s := hdrop ▸ List.drop_suffix _ s
      have : rest = tail := by grind
      exact this ▸ ((List.suffix_cons c tail).trans hsuffix).trans (List.suffix_cons b s)

/-- What follows an escape is a suffix of what follows its first letter. -/
theorem suffix_of_readEscape {names : CharacterNames} {isBytes : Bool} {letter : Byte}
    {s value rest : Bytes} (h : readEscape names isBytes letter s = .ok (value, rest)) :
    rest <:+ s := by
  unfold readEscape at h
  grind [suffix_of_readOctal, suffix_of_readHex, suffix_of_readCode, suffix_of_readName]

/-- The text that the body of a literal denotes. -/
def unescape (names : CharacterNames) (isBytes : Bool) (s : Bytes) : Except EscapeCause Bytes :=
  match s with
  | [] => .ok []
  | [b] => .ok [b]
  | b :: letter :: tail =>
    if b = Byte.backslash then
      match h : readEscape names isBytes letter tail with
      | .error cause => .error cause
      | .ok (value, rest) =>
        have := (suffix_of_readEscape h).length_le
        (unescape names isBytes rest).map (value ++ ·)
    else (unescape names isBytes (letter :: tail)).map (b :: ·)
termination_by s.length

end SyntaxTree.Literal
