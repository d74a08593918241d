import SyntaxTree.Text.Bytes

/-
# String and bytes literals

A literal is written on one line between two equal quotes.  The preferred quote gives way to the
other one if only the preferred one occurs in the text.  Control characters are escaped, and an
encoded surrogate is written as the escape that denotes it.
-/

namespace SyntaxTree.Render

/-- The quote around a text: the preferred one, unless the text holds it and not the other. -/
def chooseQuote (s : Bytes) (preferred : Byte) : Byte :=
  let other := if preferred = Byte.doubleQuote then Byte.singleQuote else Byte.doubleQuote
  if preferred ∈ s ∧ other ∉ s then other else preferred

/-- The escape of a byte by its hexadecimal value. -/
def hexEscape (b : Byte) : Bytes :=
  [Byte.backslash, ascii 'x', Byte.hexDigit (b.toNat / 16), Byte.hexDigit (b.toNat % 16)]

/-- The short escape of a byte, if it has one in every literal. -/
def shortEscape? (b : Byte) : Option Bytes :=
  if b = Byte.backslash then some (text "\\\\")
  else if b = Byte.lineFeed then some (text "\\n")
  else if b = Byte.carriageReturn then some (text "\\r")
  else if b = Byte.tab then some (text "\\t")
  else none

/-- A byte of a string literal; braces are written twice in the literal parts of an f-string. -/
def escapeByte (quote : Byte) (doubleBraces : Bool) (b : Byte) : Bytes :=
  match shortEscape? b with
  | some escape => escape
  | none =>
    if b = quote then [Byte.backslash, quote]
    else if doubleBraces ∧ (b = Byte.openBrace ∨ b = Byte.closeBrace) then [b, b]
    else if b < 0x20 ∨ b = 0x7F then hexEscape b
    else [b]

/-- The escape of the surrogate whose encoding ends in the two bytes. -/
def surrogateEscape (b₁ b₂ : Byte) : Bytes :=
  let code := 0xD000 + b₁.toNat % 0x40 * 0x40 + b₂.toNat % 0x40
  text "\\u" ++ Bytes.hexPadded 4 code

/-- The body of a string literal. -/
def escape (quote : Byte) (doubleBraces : Bool) : Bytes → Bytes
  | [] => []
  | b :: b₁ :: b₂ :: s =>
    if b = 0xED ∧ b ≠ quote ∧ 0xA0 ≤ b₁ then surrogateEscape b₁ b₂ ++ escape quote doubleBraces s
    else escapeByte quote doubleBraces b ++ escape quote doubleBraces (b₁ :: b₂ :: s)
  | b :: s => escapeByte quote doubleBraces b ++ escape quote doubleBraces s

/-- A byte of a bytes literal. -/
def escapeRaw (quote b : Byte) : Bytes :=
  if b = quote ∧ b ≠ Byte.backslash then [Byte.backslash, quote]
  else
    match shortEscape? b with
    | some escape => escape
    | none => if b < 0x20 ∨ 0x7F ≤ b then hexEscape b else [b]

/-- A string literal. -/
def quoteString (s : Bytes) (preferred : Byte) : Bytes :=
  let quote := chooseQuote s preferred
  quote :: escape quote false s ++ [quote]

/-- A bytes literal. -/
def quoteBytes (s : Bytes) (preferred : Byte) : Bytes :=
  let quote := chooseQuote s preferred
  ascii 'b' :: quote :: s.flatMap (escapeRaw quote) ++ [quote]

end SyntaxTree.Render
