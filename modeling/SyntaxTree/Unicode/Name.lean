import SyntaxTree.Text.Bytes

/-
# Names of characters

A string literal can call a character by its name.  Which names there are is not part of the
program, which asks a library for them; so the names are a parameter here.
-/

namespace SyntaxTree.Unicode

/-- The names of characters as a library knows them: a name in capital letters, without a NUL byte,
has the code point of a character or is unknown. -/
class CharacterNames where
  find? : Bytes → Option Nat

/-- A byte of the name of a character. -/
def isNameByte (b : Byte) : Bool := b.isUpper || b.isDigit || b == Byte.space || b == ascii '-'

namespace CharacterNames

/-- What the Unicode standard says of the names of characters: they are spelled with capital
letters, digits, spaces and hyphens. -/
def AreStandard (names : CharacterNames) : Prop :=
  ∀ ⦃name code⦄, names.find? name = some code → ∀ b ∈ name, isNameByte b

/-- The code point of the character with a name, which is compared in capital letters and ends at
its first NUL byte. -/
def code? (names : CharacterNames) (name : Bytes) : Option Nat := names.find? name.untilNul.toUpper

end CharacterNames

end SyntaxTree.Unicode
