import SyntaxTree.Proofs.Token.Place
import SyntaxTree.Proofs.Token.Plain

/-
# Tokens in their source

A token that stands for a piece of a source is a lexeme of it, and starts where a walk over the text
in front of it leads.  A string literal is made of the letters of a prefix, a quote and what follows
up to the closing quote, and its kind is what the prefix says.
-/

namespace SyntaxTree

/-! ## Lexemes of a text -/

theorem PartsNoLineEnd.left {s t u : Bytes} (h : PartsNoLineEnd s (t ++ u)) :
    PartsNoLineEnd s t := by
  cases t with
  | nil => exact fun _ hfeed => by cases hfeed
  | cons b t => exact h

theorem PartsNoLineEnd.append {s t u : Bytes} (h : PartsNoLineEnd s (t ++ u))
    (h' : PartsNoLineEnd t u) : PartsNoLineEnd (s ++ t) u := by
  cases t with
  | nil => rwa [List.append_nil]
  | cons b t =>
    rw [PartsNoLineEnd, List.getLast?_append_of_ne_nil s (List.cons_ne_nil b t)]
    exact h'

/-- A token is a lexeme of a text, which begins at a place. -/
structure Token.IsLexemeOf (place : Position) (s : Bytes) (t : Token) : Prop where
  exists_lexeme : ∃ front b u rest, s = front ++ (b :: u ++ rest) ∧
    PartsNoLineEnd front (b :: u ++ rest) ∧ t.start = place.advance front ∧
    t.text = Layout.tokenText t.kind (b :: u) ∧
    Lexeme.next b (u ++ rest) = .ok (.token t.kind, rest)

/-- The lexemes of the rest of a text are some of its own. -/
theorem Token.IsLexemeOf.behind {place : Position} {s rest : Bytes} {t : Token}
    (h : t.IsLexemeOf (place.advance s) rest) (hparts : PartsNoLineEnd s rest) :
    t.IsLexemeOf place (s ++ rest) := by
  obtain ⟨front, b, u, behind, rfl, hfront, hstart, htext, hnext⟩ := h.exists_lexeme
  refine ⟨s ++ front, b, u, behind, (List.append_assoc ..).symm, hparts.append hfront, ?_, htext,
    hnext⟩
  rw [hstart, Position.advance_append hparts.left]

namespace Layout

theorem Adds.isLexemeOf {keepComments : Bool} {layout layout' : Layout} {b : Byte}
    {u rest : Bytes} {kind : LexemeKind} {emitted : List Token}
    (h : Adds keepComments layout ⟨kind, b :: u⟩ emitted layout')
    (hnext : Lexeme.next b (u ++ rest) = .ok (kind, rest)) :
    ∀ t ∈ emitted, t.kind.isProper → t.IsLexemeOf layout.place (b :: u ++ rest) := by
  intro t ht hproper
  have hnot (hkind : t.kind.isProper = false) : t.IsLexemeOf layout.place (b :: u ++ rest) :=
    absurd hproper (by simp [hkind])
  cases h with
  | blank => cases ht
  | comment =>
    obtain ⟨-, rfl⟩ : keepComments ∧ t = _ := by simpa using ht
    exact hnot rfl
  | lineEnd =>
    obtain ⟨-, rfl⟩ : layout.lineOpen ∧ t = _ := by simpa using ht
    exact hnot rfl
  | innerEnd => cases ht
  | join _ h => exact hnot (h.not_isProper t ht)
  | token _ hkind h =>
    rcases List.mem_append.mp ht with ht | ht
    · exact hnot (h.not_isProper t ht)
    · obtain rfl := List.mem_singleton.mp ht
      refine ⟨[], b, u, rest, rfl, ?_, h.place_eq, rfl, hnext⟩
      intro hlast
      cases hlast

/-- Every token of a run that is none of the layout is a lexeme of what is read. -/
theorem Run.isLexemeOf {keepComments : Bool} {s : Bytes} {layout final : Layout}
    {tokens : List Token} (h : Run keepComments s layout tokens final) :
    ∀ t ∈ tokens, t.kind.isProper → t.IsLexemeOf layout.place s := by
  induction h with
  | nil => exact List.forall_mem_nil _
  | cons hnext hadds _ ih =>
    refine List.forall_mem_append.mpr ⟨hadds.isLexemeOf hnext, fun t ht hproper => ?_⟩
    have hplace := hadds.place_eq
    exact (hplace ▸ ih t ht hproper).behind (Lexeme.partsNoLineEnd_of_next hnext)

end Layout

theorem isLexemeOf_of_tokenize {keepComments : Bool} {source : Bytes} {tokens : List Token}
    (h : tokenize keepComments source = .ok tokens) :
    ∀ t ∈ tokens, t.kind.isProper → t.IsLexemeOf .origin (dropMark source) := by
  obtain ⟨body, final, rfl, hrun⟩ := exists_run_of_tokenize h
  refine List.forall_mem_append.mpr ⟨hrun.isLexemeOf, fun t ht hproper => ?_⟩
  rw [Layout.not_isProper_of_mem_finish ht] at hproper
  cases hproper

/-! ## String literals -/

theorem isStringPrefix_iff {word : Bytes} : isStringPrefix word ↔ word.toLower ∈ stringPrefixes :=
  List.contains_iff_mem

/-- No literal is one of bytes and an f-string. -/
theorem notMem_of_isStringPrefix {word : Bytes} (h : isStringPrefix word)
    (hbytes : ascii 'b' ∈ word.toLower) : ascii 'f' ∉ word.toLower := by
  have hall : ∀ p ∈ stringPrefixes, ascii 'b' ∈ p → ascii 'f' ∉ p := by decide
  exact hall _ (isStringPrefix_iff.mp h) hbytes

/-- A literal without a prefix is plain. -/
theorem textKind_nil : textKind [] = .string := by decide

/-- The kind of a literal by the letters of its prefix. -/
theorem textKind_of_isStringPrefix {word : Bytes} (h : isStringPrefix word) :
    textKind word = if ascii 'f' ∈ word.toLower then .fstring
      else if ascii 'b' ∈ word.toLower then .bytes else .string := by
  rw [textKind, Frame.ofPrefix, if_pos h]
  by_cases hf : ascii 'f' ∈ word.toLower
  · simp [hf]
  · by_cases hb : ascii 'b' ∈ word.toLower <;> simp [hf, hb]

namespace Lexeme

/-- A text is a string literal of a kind, in front of `rest`: the letters of a prefix, if there is
one, a quote and what follows up to the closing quote. -/
structure IsLiteral (kind : TokenKind) (s rest : Bytes) : Prop where
  exists_parts : ∃ word quote u, s = word ++ quote :: u ∧ (word = [] ∨ isStringPrefix word) ∧
    (∀ b ∈ word, b.isQuote = false) ∧ quote.isQuote ∧ kind = textKind word ∧
    afterText word quote (u ++ rest) = .ok rest

variable {b : Byte} {kind : TokenKind} {s t rest : Bytes}

theorem isLiteral_of_afterName (hb : b.isNameByte) (h : afterName b (t ++ rest) = .ok (kind, rest))
    (htext : kind.isText) : IsLiteral kind (b :: t) rest := by
  obtain ⟨u, after, hsplit, hname, h⟩ := exists_word_of_afterName hb h
  have hofWord (h : (TokenKind.ofWord (b :: u), after) = (kind, rest)) : False := by
    obtain ⟨rfl, -⟩ := Prod.mk.inj h
    exact Bool.noConfusion ((TokenKind.isText_ofWord (b :: u)).symm.trans htext)
  unfold afterWordOrText at h
  split at h
  · next quote body =>
    split at h
    · next hquote =>
      obtain ⟨hquote, hletters⟩ := Bool.and_eq_true_iff.mp hquote
      obtain ⟨behind, hbehind, h⟩ := exists_of_map_eq_ok h
      obtain ⟨rfl, rfl⟩ := Prod.mk.inj h
      obtain ⟨inner, rfl⟩ := suffix_of_afterText hbehind
      obtain rfl : t = u ++ quote :: inner := by
        refine List.append_cancel_right (hsplit.trans ?_)
        simp
      exact ⟨b :: u, quote, inner, rfl, .inr hletters,
        fun c hc => Byte.isQuote_of_isNameByte (hname c hc), hquote, rfl, hbehind⟩
    · exact (hofWord (Except.ok.inj h)).elim
  · exact (hofWord (Except.ok.inj h)).elim

theorem isLiteral_of_afterToken (h : afterToken b (t ++ rest) = .ok (kind, rest))
    (htext : kind.isText) : IsLiteral kind (b :: t) rest := by
  have hoperators : ∀ entry ∈ TokenKind.operators, entry.2.isText = false := by decide
  unfold afterToken at h
  split at h
  · have hnumber := Number.isNumber_of_after h
    unfold TokenKind.isNumber at hnumber
    grind [TokenKind.isText]
  split at h
  · next hb => exact isLiteral_of_afterName (by grind [Byte.isNameByte, isWordByte]) h htext
  split at h
  · next hquote =>
    obtain ⟨behind, hbehind, h⟩ := exists_of_map_eq_ok h
    obtain ⟨rfl, rfl⟩ := Prod.mk.inj h
    exact ⟨[], b, t, rfl, .inl rfl, List.forall_mem_nil _, hquote, textKind_nil.symm, hbehind⟩
  · unfold afterOperator at h
    split at h
    · next hfind =>
      obtain ⟨rfl, -⟩ := Prod.mk.inj (Except.ok.inj h)
      exact absurd htext (by simp [hoperators _ (List.mem_of_find?_eq_some hfind)])
    · cases h

/-- The parts of a literal are those that its prefix says. -/
theorem IsLiteral.parts (h : IsLiteral kind s rest) :
    (Literal.Parts.of s).isBytes = decide (kind = .bytes) ∧
      (Literal.Parts.of s).isFormatted = decide (kind = .fstring) := by
  obtain ⟨word, quote, u, rfl, hprefix, hword, hquote, rfl, -⟩ := h.exists_parts
  have hletters : (word ++ quote :: u).takeWhile (!·.isQuote) = word := by
    rw [List.takeWhile_append_of_pos (by simpa using hword), List.takeWhile_cons, hquote]
    simp
  rw [Literal.Parts.of, hletters]
  rcases hprefix with rfl | hprefix
  · exact ⟨rfl, rfl⟩
  · rw [textKind_of_isStringPrefix hprefix]
    by_cases hf : ascii 'f' ∈ Bytes.toLower word
    · have hb : ascii 'b' ∉ Bytes.toLower word := fun hb => notMem_of_isStringPrefix hprefix hb hf
      simp [hf, hb]
    · by_cases hb : ascii 'b' ∈ Bytes.toLower word <;> simp [hf, hb]

end Lexeme

/-- A string literal of a text stands there as it is. -/
theorem Token.IsLexemeOf.exists_literal {place : Position} {s : Bytes} {t : Token}
    (h : t.IsLexemeOf place s) (htext : t.kind.isText) :
    ∃ front rest, s = front ++ (t.text ++ rest) ∧ PartsNoLineEnd front (t.text ++ rest) ∧
      t.start = place.advance front ∧ Lexeme.IsLiteral t.kind t.text rest := by
  obtain ⟨front, b, u, rest, hs, hparts, hstart, hspelling, hnext⟩ := h.exists_lexeme
  have hsame : t.text = b :: u := by
    rw [hspelling]
    refine if_neg fun hname => ?_
    rw [hname.1] at htext
    cases htext
  refine ⟨front, rest, hsame ▸ hs, hsame ▸ hparts, hstart, ?_⟩
  exact hsame ▸ Lexeme.isLiteral_of_afterToken (Lexeme.afterToken_of_next hnext) htext

end SyntaxTree
