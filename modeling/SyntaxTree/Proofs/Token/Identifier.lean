import SyntaxTree.Proofs.Text.Utf8
import SyntaxTree.Proofs.Token.Line

/-
# Identifiers

A name is read as it is written if it is a word on its own, no keyword, and in normal form.  It is
then read the same way in front of everything that ends a word.
-/

namespace SyntaxTree

/-! ## Names in front of more text -/

namespace Lexeme

/-- What continues a word up to its end does so in front of what ends a word. -/
theorem afterWord_append_of_eq_nil {s rest : Bytes} (h : afterWord s = [])
    (hrest : ∀ b ∈ rest.head?, b.endsWord) : afterWord (s ++ rest) = rest := by
  fun_induction afterWord s with
  | case1 => exact afterWord_append (t := []) rfl hrest
  | case2 b tail hb code behind hdecode _ hcontinue ih =>
    rw [List.cons_append, afterWord_of_decode? hb (Utf8.decode?_append hdecode rest),
      if_pos hcontinue, ih h]
  | case5 b tail hb hword ih => rw [List.cons_append, afterWord, if_neg hb, if_pos hword, ih h]
  | _ => cases h

/-- An identifier is no prefix of a literal. -/
theorem ofWord_of_afterWordOrText {word start rest : Bytes}
    (h : afterWordOrText word start = .ok (.identifier, rest)) :
    TokenKind.ofWord word = .identifier ∧ start = rest := by
  have hkind (word : Bytes) : textKind word ≠ .identifier := by
    unfold textKind
    split <;> nofun
  unfold afterWordOrText at h
  split at h
  · split at h
    · obtain ⟨_, -, h⟩ := exists_of_map_eq_ok h
      exact absurd (congrArg Prod.fst h) (by simpa using (hkind word))
    · obtain ⟨hword, hstart⟩ := Prod.mk.inj (Except.ok.inj h)
      exact ⟨hword, hstart⟩
  · obtain ⟨hword, hstart⟩ := Prod.mk.inj (Except.ok.inj h)
    exact ⟨hword, hstart⟩

/-- A name on its own is the same name in front of what ends a word. -/
theorem afterName_append {b : Byte} {s rest : Bytes} (h : afterName b s = .ok (.identifier, []))
    (hrest : ∀ c ∈ rest.head?, c.endsWord) :
    afterName b (s ++ rest) = .ok (.identifier, rest) := by
  have hword {behind : Bytes} (h : afterWordOrText (before (b :: s) (afterWord behind))
      (afterWord behind) = .ok (.identifier, [])) :
      afterWord (behind ++ rest) = rest ∧
        afterWordOrText (b :: s) rest = .ok (.identifier, rest) := by
    obtain ⟨hkind, hnil⟩ := ofWord_of_afterWordOrText h
    have hbefore : before (b :: s) [] = b :: s := by
      simpa using before_append (b :: s) []
    rw [hnil, hbefore] at hkind
    exact ⟨afterWord_append_of_eq_nil hnil hrest, by rw [afterWordOrText_of_ends hrest, hkind]⟩
  unfold afterName at h ⊢
  by_cases hb : b.isNonAscii
  · rw [if_pos hb] at h ⊢
    cases hdecode : Utf8.decode? (b :: s) with
    | none => rw [hdecode] at h; cases h
    | some result =>
      obtain ⟨code, behind⟩ := result
      rw [hdecode] at h
      rw [Utf8.decode?_append hdecode rest]
      dsimp only at h ⊢
      split at h
      · next hstart =>
        obtain ⟨hafter, hname⟩ := hword h
        rw [if_pos hstart, hafter, ← List.cons_append, before_append, hname]
      · cases h
  · rw [if_neg hb] at h ⊢
    obtain ⟨hafter, hname⟩ := hword h
    rw [hafter, ← List.cons_append, before_append, hname]

end Lexeme

/-! ## Identifiers -/

/-- A name that is read as it is written. -/
structure IsIdentifier (s : Bytes) : Prop where
  named : ∃ b t, s = b :: t ∧ b.startsName ∧ Lexeme.afterName b t = .ok (.identifier, [])
  normal : Layout.tokenText .identifier s = s

namespace IsIdentifier

variable {s : Bytes}

theorem begins (h : IsIdentifier s) : ∃ b t, s = b :: t ∧ b.startsName := by
  obtain ⟨b, t, hs, hb, -⟩ := h.named
  exact ⟨b, t, hs, hb⟩

/-- An identifier is a word in front of what ends it. -/
theorem divides (h : IsIdentifier s) {rest : Bytes} (hrest : ∀ b ∈ rest.head?, b.endsWord) :
    Divides (s ++ rest) rest [⟨.identifier, s⟩] := by
  obtain ⟨b, t, rfl, hb, hname⟩ := h.named
  exact .of_next (Lexeme.next_of_startsName hb (Lexeme.afterName_append hname hrest))
    ⟨nofun, h.normal⟩

end IsIdentifier

end SyntaxTree
