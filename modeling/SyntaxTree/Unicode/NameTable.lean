import SyntaxTree.Unicode.Name

/-
# Some names of characters

A short table of names, to run the program with where no library knows more.
-/

namespace SyntaxTree.Unicode

/-- Some names of characters and their code points. -/
def characterNames : List (Bytes × Nat) := [
  (text "LATIN SMALL LETTER E WITH ACUTE", 0xE9),
  (text "LATIN SMALL LETTER A", 0x61),
  (text "GREEK SMALL LETTER PI", 0x3C0),
  (text "SNOWMAN", 0x2603),
  (text "EURO SIGN", 0x20AC),
  (text "SPACE", 0x20),
  (text "HANGUL SYLLABLE GA", 0xAC00),
  (text "CJK UNIFIED IDEOGRAPH-4E00", 0x4E00),
  (text "DIGIT ONE", 0x31),
  (text "EM DASH", 0x2014),
  (text "BULLET", 0x2022)]

namespace NameTable

/-- The names of the table. -/
scoped instance tableNames : CharacterNames where
  find? name := characterNames.lookup name

/-- The names of the table are standard ones. -/
theorem areStandard : tableNames.AreStandard := by
  have hletters : ∀ entry ∈ characterNames, ∀ b ∈ entry.1, isNameByte b := by decide +kernel
  intro name code h
  obtain ⟨front, behind, hnames, -⟩ := List.lookup_eq_some_iff.mp h
  refine hletters (name, code) ?_
  rw [hnames]
  exact List.mem_append_right front List.mem_cons_self

end NameTable

end SyntaxTree.Unicode
