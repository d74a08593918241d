import SyntaxTree.Proofs.Build.Text
import SyntaxTree.Proofs.Token.Comment
import SyntaxTree.Proofs.Token.Division

/-
# Tokens and texts within their ranges

The lexemes of a source are its bytes, up to the place where the division stops.  A cursor stands at
one of its tokens, and what it looks at are tokens at or behind and in front of that place.  What is
read of a literal stands in its text.
-/

namespace SyntaxTree

/-! ## The lexemes of a source -/

namespace Division

/-- Lexemes that lie one behind the other in a text, none of them empty, and that end where the text
does unless the division has failed. -/
structure Tiles (d : Division) (s : Bytes) : Prop where
  nonempty : ∀ lexeme ∈ d.lexemes, lexeme.text ≠ []
  begins : d.lexemes.flatMap Lexeme.text <+: s
  whole_iff : d.lexemes.flatMap Lexeme.text = s ↔ d.failure = none

theorem Tiles.cons {d : Division} {kind : LexemeKind} {b : Byte} {t rest : Bytes}
    (h : d.Tiles rest) : (Division.cons ⟨kind, b :: t⟩ d).Tiles (b :: t ++ rest) where
  nonempty := List.forall_mem_cons.mpr ⟨List.cons_ne_nil b t, h.nonempty⟩
  begins := (List.prefix_append_right_inj (b :: t)).mpr h.begins
  whole_iff := List.append_right_inj (b :: t) |>.trans h.whole_iff

/-- The division of a text goes through the text. -/
theorem tiles_ofBytes (s : Bytes) : (ofBytes s).Tiles s := by
  fun_induction ofBytes s with
  | case1 => exact ⟨List.forall_mem_nil _, List.prefix_rfl, iff_of_true rfl rfl⟩
  | case2 b tail cause hnext =>
    refine ⟨List.forall_mem_nil _, List.nil_prefix, iff_of_false ?_ (Option.some_ne_none cause)⟩
    exact (List.cons_ne_nil b tail).symm
  | case3 b tail kind rest hnext _ ih =>
    obtain ⟨t, rfl⟩ := Lexeme.suffix_of_next hnext
    have hbefore : Lexeme.before (b :: (t ++ rest)) rest = b :: t :=
      Lexeme.before_append (b :: t) rest
    rw [hbefore]
    exact ih.cons

end Division

theorem Layout.failure_eq_none_of_tokens {keepComments : Bool} {failure : Option LexicalCause}
    {lexemes : List Lexeme} {layout : Layout} {tokens : List Token}
    (h : layout.tokens keepComments failure lexemes = .ok tokens) : failure = none := by
  induction lexemes generalizing layout tokens with
  | nil =>
    cases failure with
    | none => rfl
    | some cause => cases h
  | cons lexeme rest ih =>
    obtain ⟨_, -, h⟩ := exists_of_bind_eq_ok h
    obtain ⟨more, hmore, -⟩ := exists_of_bind_eq_ok h
    exact ih hmore

/-! ## The tokens of a cursor -/

namespace Cursor

/-- The tokens of a cursor are those of the list that are no comments, and the end of the input if
it is missing. -/
theorem tokens_ofTokens (lines : List Bytes) (tokens : List Token) :
    (ofTokens lines tokens).tokens = withoutComments tokens ∨
      ∃ stop, (ofTokens lines tokens).tokens =
        withoutComments tokens ++ [.empty .endOfInput [] stop] := by
  unfold ofTokens
  dsimp only
  cases hlast : (tokens.filter (·.kind ≠ .comment)).getLast? with
  | none =>
    have hnil := List.getLast?_eq_none_iff.mp hlast
    exact .inr ⟨.origin, by rw [withoutComments, hnil]; rfl⟩
  | some last =>
    dsimp only
    by_cases hkind : last.kind = .endOfInput
    · rw [if_pos hkind]
      refine .inl ?_
      show [] ++ (_ ++ [last]) = withoutComments tokens
      rw [List.nil_append]
      exact List.dropLast_append_getLast? last hlast
    · rw [if_neg hkind]
      exact .inr ⟨last.stop, rfl⟩

/-- What is ahead begins with the token at the cursor. -/
theorem exists_rest_append_eq (c : Cursor) : ∃ behind, c.rest ++ [c.final] = c.peek :: behind := by
  obtain ⟨_, _, rest, final, _⟩ := c
  cases rest with
  | nil => exact ⟨[], rfl⟩
  | cons t rest => exact ⟨rest ++ [final], rfl⟩

/-- A cursor stands at one of its tokens. -/
theorem getElem?_tokens_before (c : Cursor) : c.tokens[c.before.length]? = some c.peek := by
  obtain ⟨behind, hrest⟩ := c.exists_rest_append_eq
  rw [tokens, hrest, List.getElem?_append_right (by rw [List.length_reverse])]
  simp

/-- A look ahead shows the token at that distance, or the last one. -/
theorem getElem?_tokens_peekAt (c : Cursor) (distance : Nat) :
    c.tokens[min (c.before.length + distance) (c.tokens.length - 1)]? =
      some (c.peekAt distance) := by
  have hlength : c.tokens.length - 1 = c.before.length + c.rest.length := by
    simp [tokens, ← Nat.add_assoc]
  have hahead (n : Nat) : c.tokens[c.before.length + n]? = (c.rest ++ [c.final])[n]? := by
    rw [tokens, List.getElem?_append_right (by simp), List.length_reverse, Nat.add_sub_cancel_left]
  rw [hlength, peekAt, List.getD_eq_getElem?_getD]
  rcases Nat.lt_or_ge distance c.rest.length with hlt | hge
  · rw [Nat.min_eq_left (Nat.add_le_add_left hlt.le _), hahead, List.getElem?_append_left hlt,
      List.getElem?_eq_getElem hlt]
    rfl
  · rw [Nat.min_eq_right (Nat.add_le_add_left hge _), hahead, List.getElem?_concat_length,
      List.getElem?_eq_none hge]
    rfl

theorem exists_getElem?_lastOfReversed (first : Token) (before behind : List Token) :
    ∃ i ≤ before.length,
      (before.reverse ++ first :: behind)[i]? = some (lastOfReversed first before) := by
  induction before generalizing first behind with
  | nil => exact ⟨0, Nat.le_refl 0, rfl⟩
  | cons t before ih =>
    unfold lastOfReversed
    split
    · obtain ⟨i, hi, ht⟩ := ih t (first :: behind)
      exact ⟨i, Nat.le_succ_of_le hi, by simpa using ht⟩
    · exact ⟨before.length, Nat.le_succ _, by simp⟩

/-- A look back shows a token that is not behind the cursor. -/
theorem exists_getElem?_tokens_last (c : Cursor) :
    ∃ i ≤ c.before.length, c.tokens[i]? = some c.last := by
  obtain ⟨behind, hrest⟩ := c.exists_rest_append_eq
  rw [tokens, hrest]
  exact exists_getElem?_lastOfReversed c.peek c.before behind

/-- A cursor over tokens of which it looks at no other: it stands at one of them, and so does the
cursor behind the next one. -/
structure IsAmong (tokens : List Token) (c : Cursor) : Prop where
  tokens_eq : c.tokens = tokens
  peek : tokens[c.before.length]? = some c.peek
  ahead : ∀ distance,
    tokens[min (c.before.length + distance) (tokens.length - 1)]? = some (c.peekAt distance)
  back : ∃ i ≤ c.before.length, tokens[i]? = some c.last
  advance : c.advance.tokens = tokens ∧ tokens[c.advance.before.length]? = some c.advance.peek

theorem isAmong_tokens (c : Cursor) : c.IsAmong c.tokens where
  tokens_eq := rfl
  peek := c.getElem?_tokens_before
  ahead := c.getElem?_tokens_peekAt
  back := c.exists_getElem?_tokens_last
  advance := ⟨c.tokens_advance, c.tokens_advance ▸ c.advance.getElem?_tokens_before⟩

end Cursor

/-! ## The texts of literals -/

/-- What is read of a literal stands in its text: the body of the literal, and in the body the
pieces of a formatted one. -/
structure Literal.Parts.StandIn (s : Bytes) (parts : Parts) : Prop where
  body : ∃ behind, s.drop parts.offset = parts.body ++ behind
  pieces : ∀ piece ∈ FString.divide parts.isRaw parts.body, piece.StandsIn parts.body

theorem Literal.Parts.standIn_of (s : Bytes) : (Parts.of s).StandIn s where
  body := exists_body_append s
  pieces := fun _ => FString.standsIn_of_mem_divide

end SyntaxTree
