import SyntaxTree.Grammar.Literal
import SyntaxTree.Proofs.Token.Run
import SyntaxTree.Proofs.Unicode.Dotless

/-
# Plain tokens

Among the tokens of a source, only those of an f-string have a prefix that makes them one, and no
identifier has a dot.  The spelling of a name has no byte that could be either, and neither has its
normal form.
-/

namespace SyntaxTree

/-- No f-string, and no identifier with a dot. -/
structure Token.IsPlain (t : Token) : Prop where
  notFormatted : t.kind.isText → (Literal.Parts.of t.text).isFormatted = false
  dotless : t.kind = .identifier → ascii '.' ∉ t.text

/-! ## The bytes of a name -/

namespace Byte

/-- A byte of a name. -/
def isNameByte (b : Byte) : Bool := Lexeme.isWordByte b || b.isNonAscii

theorem isNonAscii_of_isContinuation {b : Byte} (h : b.isContinuation) : b.isNonAscii := by
  have hbits : b &&& 0xC0 = 0x80 := eq_of_beq h
  have htoNat : b.toNat &&& 0xC0 = 0x80 := (UInt8.toNat_and b 0xC0).symm.trans (congrArg _ hbits)
  have hle : 0x80 ≤ b.toNat := htoNat ▸ Nat.and_le_left
  exact decide_eq_true (UInt8.le_iff_toNat_le.mpr hle)

theorem isQuote_of_isNameByte {b : Byte} (h : b.isNameByte) : b.isQuote = false := by
  refine Bool.eq_false_iff.mpr fun hquote => ?_
  rcases Bool.or_eq_true_iff.mp hquote with hb | hb
  · rw [eq_of_beq hb] at h
    exact absurd h (by decide)
  · rw [eq_of_beq hb] at h
    exact absurd h (by decide)

theorem ne_dot_of_isNameByte {b : Byte} (h : b.isNameByte) : b ≠ ascii '.' := by
  rintro rfl
  exact absurd h (by decide)

end Byte

namespace Lexeme

/-- What continues a name is made of bytes of a name. -/
theorem exists_of_afterWord (s : Bytes) :
    ∃ t, s = t ++ afterWord s ∧ ∀ b ∈ t, b.isNameByte := by
  fun_induction afterWord s with
  | case1 => exact ⟨[], rfl, List.forall_mem_nil _⟩
  | case2 b tail hb code rest hdecode _ _ ih =>
    obtain ⟨t, htail, ht⟩ := Utf8.exists_of_decode? hb hdecode
    obtain ⟨u, hrest, hu⟩ := ih
    have hbeyond : ∀ c ∈ b :: t, c.isNonAscii := List.forall_mem_cons.mpr ⟨hb, ht⟩
    refine ⟨b :: t ++ u, ?_, List.forall_mem_append.mpr ⟨fun c hc => ?_, hu⟩⟩
    · rw [List.append_assoc, ← hrest, htail]
      rfl
    · exact Bool.or_eq_true_iff.mpr (.inr (hbeyond c hc))
  | case5 b tail _ hb ih =>
    obtain ⟨t, htail, ht⟩ := ih
    refine ⟨b :: t, ?_, List.forall_mem_cons.mpr ⟨Bool.or_eq_true_iff.mpr (.inl hb), ht⟩⟩
    rw [List.cons_append, ← htail]
  | _ => exact ⟨[], rfl, List.forall_mem_nil _⟩

/-- A name or the prefix of a literal begins with a word. -/
theorem exists_word_of_afterName {b : Byte} {s rest : Bytes} {kind : TokenKind}
    (hb : b.isNameByte) (h : afterName b s = .ok (kind, rest)) :
    ∃ u after, s = u ++ after ∧ (∀ c ∈ b :: u, c.isNameByte) ∧
      afterWordOrText (b :: u) after = .ok (kind, rest) := by
  -- The first character is the byte and what it needs behind itself, if it is beyond ASCII.
  have hword {t behind : Bytes} (ht : ∀ c ∈ t, c.isNameByte) (hs : s = t ++ behind)
      (h : afterWordOrText (before (b :: s) (afterWord behind)) (afterWord behind) =
        .ok (kind, rest)) :
      ∃ u after, s = u ++ after ∧ (∀ c ∈ b :: u, c.isNameByte) ∧
        afterWordOrText (b :: u) after = .ok (kind, rest) := by
    obtain ⟨u, hu, hname⟩ := exists_of_afterWord behind
    have hsplit : s = t ++ u ++ afterWord behind := by
      rw [List.append_assoc, ← hu, hs]
    refine ⟨t ++ u, afterWord behind, hsplit,
      List.forall_mem_cons.mpr ⟨hb, List.forall_mem_append.mpr ⟨ht, hname⟩⟩, ?_⟩
    rwa [hsplit, ← List.cons_append, before_append] at h
  unfold afterName at h
  split at h
  · next hbeyond =>
    split at h
    · cases h
    · next code behind hdecode =>
      split at h
      · obtain ⟨t, hs, ht⟩ := Utf8.exists_of_decode? hbeyond hdecode
        exact hword (fun c hc => Bool.or_eq_true_iff.mpr (.inr (ht c hc))) hs h
      · cases h
  · exact hword (List.forall_mem_nil _) rfl h

end Lexeme

/-! ## Prefixes -/

/-- The prefix of a literal is the word in front of its quote. -/
theorem Literal.isFormatted_of_append {word : Bytes} {quote : Byte}
    (hword : ∀ b ∈ word, b.isQuote = false) (hquote : quote.isQuote) (body : Bytes) :
    (Parts.of (word ++ quote :: body)).isFormatted = decide (ascii 'f' ∈ word.toLower) := by
  have htake : (word ++ quote :: body).takeWhile (!·.isQuote) = word := by
    rw [List.takeWhile_append_of_pos (by simpa using hword), List.takeWhile_cons, hquote]
    simp
  rw [Parts.of, htake]

theorem notMem_of_textKind_ne {word : Bytes} (hletters : isStringPrefix word)
    (h : textKind word ≠ .fstring) : ascii 'f' ∉ word.toLower := by
  intro hmem
  refine h ?_
  rw [textKind, Frame.ofPrefix, if_pos hletters, if_pos hmem]

/-! ## The tokens of a source -/

theorem TokenKind.isText_ofWord (word : Bytes) : (ofWord word).isText = false :=
  forall_ofWord (p := fun kind => kind.isText = false) rfl (by decide) word

namespace Token

/-- A token that is neither a literal in quotes nor a name. -/
theorem isPlain_of_kind {t : Token} (htext : t.kind.isText = false)
    (hname : (t.kind == .identifier) = false) : t.IsPlain :=
  ⟨fun h => absurd h (by simp [htext]), fun h => absurd h (beq_eq_false_iff_ne.mp hname)⟩

theorem isPlain_of_not_isProper {t : Token} (h : t.kind.isProper = false) : t.IsPlain := by
  refine ⟨fun htext => ?_, fun hname => ?_⟩
  · rw [TokenKind.isProper_of_isText htext] at h
    cases h
  · rw [hname] at h
    cases h

theorem isPlain_of_isNumber {t : Token} (h : t.kind.isNumber) : t.IsPlain := by
  unfold TokenKind.isNumber at h
  refine isPlain_of_kind ?_ ?_ <;> grind [TokenKind.isText]

end Token

namespace Lexeme

variable {kind : TokenKind} {b : Byte} {t rest : Bytes} {start stop : Position}

theorem isPlain_of_afterName (hb : b.isNameByte) (h : afterName b (t ++ rest) = .ok (kind, rest))
    (hkind : kind ≠ .fstring) : Token.IsPlain ⟨kind, b :: t, start, stop⟩ := by
  obtain ⟨u, after, hsplit, hname, h⟩ := exists_word_of_afterName hb h
  have hofWord (h : (TokenKind.ofWord (b :: u), after) = (kind, rest)) :
      Token.IsPlain ⟨kind, b :: t, start, stop⟩ := by
    obtain ⟨rfl, rfl⟩ := Prod.mk.inj h
    obtain rfl : t = u := List.append_cancel_right hsplit
    refine ⟨fun htext => absurd htext (by simp [TokenKind.isText_ofWord]), fun _ hdot => ?_⟩
    exact Byte.ne_dot_of_isNameByte (hname _ hdot) rfl
  unfold afterWordOrText at h
  split at h
  · next quote body =>
    split at h
    · next hquote =>
      obtain ⟨hquote, hletters⟩ := Bool.and_eq_true_iff.mp hquote
      obtain ⟨behind, hbehind, h⟩ := exists_of_map_eq_ok h
      obtain ⟨rfl, rfl⟩ := Prod.mk.inj h
      obtain ⟨inner, rfl⟩ := suffix_of_afterText hbehind
      obtain rfl : t = u ++ quote :: inner := by
        refine List.append_cancel_right (hsplit.trans ?_)
        simp
      refine ⟨fun _ => ?_, fun hidentifier => ?_⟩
      · have hformatted := Literal.isFormatted_of_append
          (fun c hc => Byte.isQuote_of_isNameByte (hname c hc)) hquote inner
        exact hformatted.trans (decide_eq_false (notMem_of_textKind_ne hletters hkind))
      · unfold textKind at hidentifier
        split at hidentifier <;> cases hidentifier
    · exact hofWord (Except.ok.inj h)
  · exact hofWord (Except.ok.inj h)

theorem isPlain_of_afterToken (h : afterToken b (t ++ rest) = .ok (kind, rest))
    (hkind : kind ≠ .fstring) : Token.IsPlain ⟨kind, b :: t, start, stop⟩ := by
  have hoperators : ∀ entry ∈ TokenKind.operators,
      entry.2.isText = false ∧ (entry.2 == .identifier) = false := by decide
  unfold afterToken at h
  split at h
  · exact Token.isPlain_of_isNumber (Number.isNumber_of_after h)
  split at h
  · next hb => exact isPlain_of_afterName (by grind [Byte.isNameByte, isWordByte]) h hkind
  split at h
  · next hquote =>
    obtain ⟨behind, -, h⟩ := exists_of_map_eq_ok h
    obtain ⟨rfl, rfl⟩ := Prod.mk.inj h
    refine ⟨fun _ => ?_, fun hname => by cases hname⟩
    exact Literal.isFormatted_of_append (List.forall_mem_nil _) hquote t
  · unfold afterOperator at h
    split at h
    · next hfind =>
      obtain ⟨rfl, -⟩ := Prod.mk.inj (Except.ok.inj h)
      obtain ⟨htext, hname⟩ := hoperators _ (List.mem_of_find?_eq_some hfind)
      exact Token.isPlain_of_kind htext hname
    · cases h

theorem isPlain_of_next (h : next b (t ++ rest) = .ok (.token kind, rest))
    (hkind : kind ≠ .fstring) : Token.IsPlain ⟨kind, b :: t, start, stop⟩ :=
  isPlain_of_afterToken (afterToken_of_next h) hkind

end Lexeme

namespace Layout

/-- The normal form of a name is as plain as its spelling. -/
theorem isPlain_token {layout : Layout} {kind : TokenKind} {s : Bytes}
    (h : Token.IsPlain ⟨kind, s, layout.place, layout.place.advance s⟩) :
    (layout.token kind s).IsPlain := by
  refine ⟨fun htext => ?_, fun hname => ?_⟩
  · have hne : kind ≠ .identifier := by
      rintro rfl
      cases htext
    rw [token, tokenText, if_neg fun hand => hne hand.1]
    exact h.notFormatted htext
  · rw [token, tokenText]
    split
    · exact Unicode.dot_notMem_normalize (h.dotless hname)
    · exact h.dotless hname

/-- A lexeme adds plain tokens. -/
theorem Adds.isPlain {keepComments : Bool} {layout layout' : Layout} {b : Byte} {t rest : Bytes}
    {kind : LexemeKind} {emitted : List Token}
    (h : Adds keepComments layout ⟨kind, b :: t⟩ emitted layout')
    (hnext : Lexeme.next b (t ++ rest) = .ok (kind, rest)) :
    ∀ u ∈ emitted, u.kind ≠ .fstring → u.IsPlain := by
  cases h with
  | blank => exact List.forall_mem_nil _
  | comment =>
    intro u hu _
    obtain ⟨-, rfl⟩ : keepComments ∧ u = _ := by simpa using hu
    exact Token.isPlain_of_kind rfl rfl
  | lineEnd =>
    intro u hu _
    obtain ⟨-, rfl⟩ : layout.lineOpen ∧ u = _ := by simpa using hu
    exact Token.isPlain_of_kind rfl rfl
  | innerEnd => exact List.forall_mem_nil _
  | join _ hopens => exact fun u hu _ => Token.isPlain_of_not_isProper (hopens.not_isProper u hu)
  | token _ hproper hopens =>
    refine List.forall_mem_append.mpr
      ⟨fun u hu _ => Token.isPlain_of_not_isProper (hopens.not_isProper u hu),
      List.forall_mem_singleton.mpr fun hkind => ?_⟩
    exact isPlain_token (Lexeme.isPlain_of_next hnext hkind)

theorem Run.isPlain {keepComments : Bool} {s : Bytes} {layout final : Layout} {tokens : List Token}
    (h : Run keepComments s layout tokens final) :
    ∀ t ∈ tokens, t.kind ≠ .fstring → t.IsPlain := by
  induction h with
  | nil => exact List.forall_mem_nil _
  | cons hnext hadds _ ih => exact List.forall_mem_append.mpr ⟨hadds.isPlain hnext, ih⟩

end Layout

/-- The tokens of a source other than its f-strings are plain. -/
theorem isPlain_of_tokenize {keepComments : Bool} {source : Bytes} {tokens : List Token}
    (h : tokenize keepComments source = .ok tokens) :
    ∀ t ∈ tokens, t.kind ≠ .fstring → t.IsPlain := by
  obtain ⟨body, final, rfl, hrun⟩ := exists_run_of_tokenize h
  exact List.forall_mem_append.mpr
    ⟨hrun.isPlain,
      fun t ht _ => Token.isPlain_of_not_isProper (Layout.not_isProper_of_mem_finish ht)⟩

end SyntaxTree
