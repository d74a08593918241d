import SyntaxTree.Proofs.Grammar.Whole
import SyntaxTree.Proofs.Token.Line

/-
# Single string literals

A literal that stands alone is an atom, and the only token of a source makes a whole expression.
What it denotes depends on the letters in front of its quotes and on its body.
-/

namespace SyntaxTree

open Parse

/-! ## The parts of a literal -/

namespace Literal

/-- A body that does not begin with the quote stands between single quotes. -/
theorem quoteCount_cons {quote : Byte} {s : Bytes} (hs : ∀ b ∈ s.head?, b ≠ quote) :
    quoteCount (quote :: (s ++ [quote])) = 1 := by
  unfold quoteCount
  split
  · rename_i q q₁ q₂ _ _ _ _ heq
    obtain ⟨rfl, hbehind⟩ := List.cons.inj heq
    refine if_neg fun hquotes => ?_
    obtain _ | ⟨b, s⟩ := s
    · exact nomatch hbehind
    · obtain ⟨rfl, -⟩ := List.cons.inj hbehind
      exact hs b rfl hquotes.1
  · rfl

/-- The letters of a prefix and the body of a literal between single quotes. -/
theorem Parts.of_quoted {letters s : Bytes} {quote : Byte} (hquote : quote.isQuote)
    (hletters : ∀ b ∈ letters, b.isQuote = false) (hs : ∀ b ∈ s.head?, b ≠ quote) :
    Parts.of (letters ++ quote :: (s ++ [quote])) =
      { isRaw := ascii 'r' ∈ Bytes.toLower letters
        isBytes := ascii 'b' ∈ Bytes.toLower letters
        isFormatted := ascii 'f' ∈ Bytes.toLower letters
        offset := letters.length + 1
        body := s } := by
  have hnot : ∀ b ∈ letters, (!b.isQuote) = true := by simpa using hletters
  have htake : (letters ++ quote :: (s ++ [quote])).takeWhile (!·.isQuote) = letters := by
    rw [List.takeWhile_append_of_pos hnot, List.takeWhile_cons_of_neg (by simpa using hquote),
      List.append_nil]
  have hdrop : (letters ++ quote :: (s ++ [quote])).dropWhile (!·.isQuote) =
      quote :: (s ++ [quote]) := by
    rw [List.dropWhile_append_of_pos hnot, List.dropWhile_cons_of_neg (by simpa using hquote)]
  have hbody : ((quote :: (s ++ [quote])).drop 1).take ((quote :: (s ++ [quote])).length - 2) =
      s := by
    rw [List.drop_one, List.tail_cons, List.length_cons, List.length_append]
    exact List.take_left' rfl
  rw [Parts.of, htake, hdrop, quoteCount_cons hs, hbody, Bytes.toLower, List.length_map]

end Literal

/-! ## The reading of a single literal -/

namespace Parse

variable {field : FieldReading} {c : Cursor} {w f : Word} {more : List Word} {draft : Draft}

/-- A single literal is added to an empty draft. -/
theorem strings_run (hc : c.words = w :: f :: more) (hw : w.kind.isText)
    (hf : f.kind.isText = false)
    (hadd : addToken field (w.kind = .bytes) .empty c.peek c.advance = .ok draft c.advance) :
    strings field c = .ok (.node (c.advance.spanFrom c.peek.start)
      (if w.kind = .bytes then .constant (.bytes draft.pending)
        else if (Literal.Parts.of w.text).isFormatted then
          .fstring (draft.flush c.peek.span).values
        else .constant (.string draft.pending))) c.advance := by
  have hadvance := Cursor.words_advance hc (by simp)
  have hkind : c.peek.kind = w.kind := Cursor.kind_peek hc
  have htext : c.peek.text = w.text := congrArg Word.text (Cursor.word_peek hc)
  rw [strings, bind_ok (peek_run c), hkind]
  dsimp only
  -- the loop takes the literal and stops at the word behind it
  refine (bind_ok
    (?_ : _ = EStateM.Result.ok (draft, (Literal.Parts.of w.text).isFormatted) c.advance)).trans ?_
  · rw [iterate_run _ _ hc, List.length_cons]
    refine (iterateUpTo_yield (?_ : _ = EStateM.Result.ok
      (ForInStep.yield (draft, (Literal.Parts.of w.text).isFormatted)) c.advance) _).trans ?_
    · rw [bind_ok (kind_run hc), if_pos hw, bind_ok (next_run c), bind_ok hadd, htext,
        Bool.false_or]
      rfl
    · refine iterateUpTo_done ?_ _
      rw [bind_ok (kind_run hadvance), hf]
      rfl
  · by_cases hbytes : w.kind = .bytes
    · rw [if_pos (by simpa using hbytes), if_pos hbytes]
      rfl
    · rw [if_neg (by simpa using hbytes), if_neg hbytes]
      split <;> rfl

/-- A literal is an atom. -/
theorem atom_text (read : Reading) (hc : c.words = w :: more) (hw : w.kind.isText) :
    atom read field c = strings field c := by
  rw [atom, bind_ok (peek_run c), Cursor.kind_peek hc]
  cases hkind : w.kind <;> rw [hkind] at hw <;> first | rfl | cases hw

/-- A word that is an atom alone is a whole expression. -/
theorem wholeExpression_atom {newline final : Word} {v : Expr} (hc : c.words = [w, newline, final])
    (hw : w.kind.Begins .atom) (hnewline : newline.kind = .newline)
    (hfinal : final.kind = .endOfInput)
    (hatom : ∀ n, atom (readUpTo field n) field c = .ok v c.advance) :
    ∃ c', wholeExpression field c = .ok v c' := by
  have hadvance := Cursor.words_advance hc (by simp)
  have hprimary (n : Nat) : primary (readUpTo field n) field c = .ok v c.advance := by
    rw [primary, bind_ok (hatom n), iterate_run _ _ hadvance]
    exact iterateUpTo_done (Level.step_done (readUpTo field n) field v hadvance
      (by rw [hnewline]; decide) (.inr rfl)) _
  have hread (n : Nat) : readUpTo field (n + 1) .expression c = .ok v c.advance := by
    rw [readUpTo, goal_eq]
    have hrank : Level.expression.rank ≤ Level.atom.rank := by decide
    exact Level.parse_mono hrank hc hw (hprimary n) hadvance (by rw [hnewline]; decide)
  have hlist := starExpressions_single hc (hw.ne (by decide)) (hread 2) hadvance
    (by rw [hnewline]; decide)
  exact ⟨_, wholeExpression_run hc (hw.ne (by decide)) (hw.ne (by decide)) hlist hadvance hnewline
    hfinal⟩

end Parse

/-- The cursor in front of a single line. -/
theorem IsLine.exists_cursor {tokens : Except LexicalError (List Token)} {ws : List Word}
    (h : IsLine tokens ws) : ∃ ts newline final, tokens = .ok ts ∧
      newline.kind = .newline ∧ final.kind = .endOfInput ∧
      ∀ lines, (Cursor.ofTokens lines ts).words = ws ++ [newline, final] := by
  obtain ⟨ts, newline, final, htokens, rfl, hcomment, hnewline, hfinal⟩ := h
  have hcomment' : ∀ t ∈ ts ++ [newline], t.kind ≠ .comment := by
    refine List.forall_mem_append.mpr ⟨hcomment, List.forall_mem_singleton.mpr ?_⟩
    rw [hnewline]
    decide
  refine ⟨_, newline.word, final.word, htokens, hnewline, hfinal, fun lines => ?_⟩
  obtain ⟨hc, -⟩ := Cursor.words_ofTokens lines hcomment' hfinal
  rw [List.append_assoc, List.singleton_append] at hc
  rw [hc, List.map_append, List.append_assoc]
  rfl

/-- A source that is a single atom forms the expression that the atom is read as. -/
theorem Expr.ofSource_atom [names : Unicode.CharacterNames] {s : Bytes} {w : Word} {e : Expr}
    (hline : IsLine (tokenize false s) [w]) (hw : w.kind.Begins .atom)
    (hatom : ∀ (depth : Nat) (c : Cursor) (newline final : Word),
      c.words = [w, newline, final] → newline.kind = .newline →
      ∃ v, (∀ read, atom read (fieldUpTo names (depth + 1)) c = .ok v c.advance) ∧ v.bare = e) :
    ∃ v, Expr.ofSource s = .ok v ∧ v.bare = e := by
  obtain ⟨ts, newline, final, htokens, hnewline, hfinal, hwords⟩ := hline.exists_cursor
  have hc := hwords (Bytes.lines s)
  generalize hcursor : Cursor.ofTokens (Bytes.lines s) ts = c at hc
  obtain ⟨depth, hfield⟩ : ∃ depth, field c = .ok (fieldUpTo names (depth + 1)) c := ⟨_, rfl⟩
  obtain ⟨v, hrun, hv⟩ := hatom depth c newline final hc hnewline
  obtain ⟨c', hwhole⟩ := wholeExpression_atom hc hw hnewline hfinal fun n => hrun _
  have honly : Parse.onlyExpression c = .ok v c' := by
    rw [Parse.onlyExpression, bind_ok hfield, hwhole]
  refine ⟨v, ?_, hv⟩
  rw [Expr.ofSource, Parse.ofSource, htokens]
  exact ofTokens_eq_ok.mpr ⟨c', hcursor ▸ honly⟩

end SyntaxTree
