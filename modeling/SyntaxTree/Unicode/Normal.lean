import SyntaxTree.Text.Utf8
import SyntaxTree.Unicode.Composition
import SyntaxTree.Unicode.Decomposition

/-
# Compatibility composition

The normal form NFKC of the text of an identifier: every character is replaced by its full
compatibility decomposition, runs of combining marks are put into the order of their classes, and
canonical pairs are composed again.  The characters and their properties are assumed to be those of
Unicode 14.0.
-/

namespace SyntaxTree.Unicode

/-! ## Hangul syllables -/

/-- The jamo of a Hangul syllable. -/
def hangulDecomposition? (code : Nat) : Option (List Nat) :=
  if 0xAC00 ≤ code ∧ code < 0xAC00 + 11172 then
    let index := code - 0xAC00
    let syllable := [0x1100 + index / 588, 0x1161 + index % 588 / 28]
    some (if index % 28 = 0 then syllable else syllable ++ [0x11A7 + index % 28])
  else none

/-- The syllable of a leading consonant and a vowel, or of a syllable without final consonant and
one. -/
def hangulComposite? (first second : Nat) : Option Nat :=
  if 0x1100 ≤ first ∧ first < 0x1113 ∧ 0x1161 ≤ second ∧ second < 0x1176 then
    some (0xAC00 + ((first - 0x1100) * 21 + (second - 0x1161)) * 28)
  else if 0xAC00 ≤ first ∧ first < 0xAC00 + 11172 ∧ (first - 0xAC00) % 28 = 0
      ∧ 0x11A7 < second ∧ second < 0x11C3 then
    some (first + (second - 0x11A7))
  else none

/-! ## The three steps -/

/-- The full compatibility decomposition of a code point. -/
def decompose (code : Nat) : List Nat :=
  (hangulDecomposition? code <|> tableDecomposition? code).getD [code]

/-- Puts a code point in front of an ordered text, behind the marks of lower class if it is a mark
itself. -/
def insertOrdered (code : Nat) : List Nat → List Nat
  | [] => [code]
  | next :: rest =>
    if 0 < combiningClass next ∧ combiningClass next < combiningClass code then
      next :: insertOrdered code rest
    else code :: next :: rest

/-- Runs of marks in the order of their classes; marks of one class keep their order. -/
def orderMarks (codes : List Nat) : List Nat := codes.foldr insertOrdered []

/-- The composite of two code points, if they form one. -/
def composite? (first second : Nat) : Option Nat :=
  hangulComposite? first second <|> tableComposite? first second

/-- Composes what follows a starter.  `passed` holds the marks, last first, that did not compose
with it, and `level` is the class of the last of them: a later mark can reach the starter only past
marks of lower class. -/
def composeFrom (starter : Nat) (passed : List Nat) (level : Nat) : List Nat → List Nat
  | [] => starter :: passed.reverse
  | code :: rest =>
    let own := combiningClass code
    match if passed = [] ∨ level < own then composite? starter code else none with
    | some composed => composeFrom composed passed level rest
    | none =>
      if own = 0 then starter :: passed.reverse ++ composeFrom code [] 0 rest
      else composeFrom starter (code :: passed) own rest

/-- Composes canonical pairs; marks before the first starter stay as they are. -/
def compose : List Nat → List Nat
  | [] => []
  | code :: rest =>
    if combiningClass code = 0 then composeFrom code [] 0 rest else code :: compose rest

/-- The compatibility composition of a list of code points. -/
def normalizeCodes (codes : List Nat) : List Nat :=
  compose (orderMarks (codes.flatMap decompose))

/-- The compatibility composition of a text; a text that is not well formed stays as it is. -/
def normalize (s : Bytes) : Bytes :=
  match Utf8.decodeAll? s with
  | some codes => Utf8.encodeAll (normalizeCodes codes)
  | none => s

end SyntaxTree.Unicode
