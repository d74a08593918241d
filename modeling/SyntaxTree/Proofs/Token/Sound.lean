import SyntaxTree.Proofs.Token.Bracketing
import SyntaxTree.Proofs.Token.Numeral

/-
# Sound tokens

The tokens of a source stand one behind the other between its beginning and its end.  A text literal
stops where a walk over its text leads, and an integer token is a literal of the grammar.  All this
is kept when the tokens of a field are carried over to the places they have in the source.
-/

namespace SyntaxTree

/-- What the kind of a token says about its text and its places. -/
structure Token.IsFaithful (t : Token) : Prop where
  stop_of_isText : t.kind.isText → t.stop = t.start.advance t.text
  isInteger : t.kind = .integer → Number.IsInteger t.text

/-- The value of an integer token is canonical. -/
theorem Token.IsFaithful.canonical {t : Token} (h : t.IsFaithful) (hkind : t.kind = .integer) :
    Number.IsCanonical (Literal.integerNumeral (t.text.filter (· ≠ Byte.underscore))) :=
  (h.isInteger hkind).isCanonical

/-- What a token of a source is by itself. -/
structure Token.IsSound (t : Token) : Prop extends t.IsFaithful where
  start_le_stop : t.start ≤ t.stop
  one_le_line : 1 ≤ t.start.line

/-- Sound tokens between two places, each behind the one in front of it. -/
structure AreSound (start stop : Position) (ts : List Token) : Prop where
  isSound : ∀ t ∈ ts, t.IsSound
  ordered : ts.Pairwise fun t u => t.stop ≤ u.start
  start_le : ∀ t ∈ ts, start ≤ t.start
  le_stop : ∀ t ∈ ts, t.stop ≤ stop

/-! ## The order of tokens -/

/-- Tokens that follow one another lie between the place in front and the place behind them. -/
theorem Follows.between {p : Position} {ts : List Token} (h : Follows p ts) :
    ts.Pairwise (fun t u => t.stop ≤ u.start) ∧
      (∀ t ∈ ts, p ≤ t.start ∧ t.start ≤ t.stop ∧ t.stop ≤ stopBehind p ts) ∧
      p ≤ stopBehind p ts := by
  induction ts generalizing p with
  | nil => exact ⟨.nil, List.forall_mem_nil _, Position.le_refl p⟩
  | cons t ts ih =>
    obtain ⟨hstart, hstop, hts⟩ := h
    obtain ⟨hordered, hbetween, hbehind⟩ := ih hts
    have hfront : p ≤ t.stop := Position.le_trans hstart hstop
    refine ⟨List.pairwise_cons.mpr ⟨fun u hu => (hbetween u hu).1, hordered⟩,
      List.forall_mem_cons.mpr ⟨⟨hstart, hstop, hbehind⟩, fun u hu => ?_⟩,
      Position.le_trans hfront hbehind⟩
    obtain ⟨hu, hrest⟩ := hbetween u hu
    exact ⟨Position.le_trans hfront hu, hrest⟩

/-! ## Literals -/

/-- A token that stands for no piece of the source. -/
theorem Token.isFaithful_of_not_isProper {t : Token} (h : t.kind.isProper = false) :
    t.IsFaithful := by
  refine ⟨fun htext => ?_, fun hinteger => ?_⟩
  · rw [TokenKind.isProper_of_isText htext] at h
    cases h
  · rw [hinteger] at h
    cases h

namespace Lexeme

variable {b : Byte} {t rest : Bytes}

/-- The text of an integer token is a literal of its kind. -/
theorem isInteger_of_next (h : next b (t ++ rest) = .ok (.token .integer, rest)) :
    Number.IsInteger (b :: t) := by
  have htoken := afterToken_of_next h
  have hoperators : ∀ entry ∈ TokenKind.operators, entry.2 ≠ .integer := by decide
  unfold afterToken at htoken
  split at htoken
  · next hb =>
    have hbegins : Number.Begins b (t ++ rest) :=
      (Bool.or_eq_true_iff.mp hb).imp_right fun hb => by simpa using hb
    obtain ⟨u, hsplit, hliteral, -⟩ := Number.isLiteral_of_after hbegins htoken
    obtain rfl : b :: t = u := List.append_cancel_right hsplit
    cases hliteral with
    | integer hinteger => exact hinteger
  split at htoken
  · have hword : ∀ word, TokenKind.ofWord word ≠ .integer :=
      TokenKind.forall_ofWord (p := (· ≠ .integer)) nofun (by decide)
    have htext (word : Bytes) : textKind word ≠ .integer := by
      unfold textKind
      split <;> decide
    exact absurd rfl (forall_of_afterName (p := (· ≠ .integer)) hword htext htoken)
  split at htoken
  · obtain ⟨rest', -, hkind⟩ := exists_of_map_eq_ok htoken
    cases hkind
  · unfold afterOperator at htoken
    split at htoken
    · next hfind =>
      obtain ⟨hkind, -⟩ := Prod.mk.inj (Except.ok.inj htoken)
      exact absurd hkind (hoperators _ (List.mem_of_find?_eq_some hfind))
    · cases htoken

end Lexeme

namespace Layout

theorem Adds.isFaithful {layout layout' : Layout} {b : Byte} {t rest : Bytes} {kind : LexemeKind}
    {emitted : List Token} (h : Adds false layout ⟨kind, b :: t⟩ emitted layout')
    (hnext : Lexeme.next b (t ++ rest) = .ok (kind, rest)) : ∀ u ∈ emitted, u.IsFaithful := by
  cases h with
  | blank => exact List.forall_mem_nil _
  | comment => exact List.forall_mem_nil _
  | lineEnd =>
    intro u hu
    obtain ⟨-, rfl⟩ : layout.lineOpen ∧ u = _ := by simpa using hu
    exact Token.isFaithful_of_not_isProper rfl
  | innerEnd => exact List.forall_mem_nil _
  | join _ hopens => exact fun u hu => Token.isFaithful_of_not_isProper (hopens.not_isProper u hu)
  | @token opened _ kind _ hproper hopens =>
    refine List.forall_mem_append.mpr
      ⟨fun u hu => Token.isFaithful_of_not_isProper (hopens.not_isProper u hu),
        List.forall_mem_singleton.mpr ?_⟩
    have htext (hne : kind ≠ .identifier) : (opened.token kind (b :: t)).text = b :: t :=
      if_neg fun hand => hne hand.1
    refine ⟨fun hkind => ?_, fun hkind => ?_⟩
    · rw [htext (by rintro rfl; cases hkind)]
      rfl
    · obtain rfl : kind = .integer := hkind
      rw [htext nofun]
      exact Lexeme.isInteger_of_next hnext

theorem Run.isFaithful {s : Bytes} {layout final : Layout} {body : List Token}
    (h : Run false s layout body final) : ∀ t ∈ body, t.IsFaithful := by
  induction h with
  | nil => exact List.forall_mem_nil _
  | cons hnext hadds _ ih => exact List.forall_mem_append.mpr ⟨hadds.isFaithful hnext, ih⟩

end Layout

/-! ## The tokens of a source -/

/-- The tokens of a source are sound between its beginning and its end, and the last one ends the
input. -/
theorem areSound_of_tokenize {source : Bytes} {tokens : List Token}
    (h : tokenize false source = .ok tokens) :
    AreSound .origin (Position.origin.advance (dropMark source)) tokens ∧
      ∃ ts final, tokens = ts ++ [final] ∧ final.kind = .endOfInput := by
  obtain ⟨body, final, rfl, hrun⟩ := exists_run_of_tokenize h
  have hstart : Layout.start.IsBehind .origin :=
    ⟨Position.le_refl _, fun _ => Position.le_refl _, Int.le_refl 1⟩
  obtain ⟨hfollows, hbehind⟩ := hrun.follows hstart
  obtain ⟨hfinish, hstop⟩ := follows_of_forall_empty final.forall_mem_finish hbehind.le_place
  have hplace : final.place = Position.origin.advance (dropMark source) := hrun.place_eq
  obtain ⟨hordered, hbetween, -⟩ := (follows_append.mpr ⟨hfollows, hfinish⟩).between
  rw [stopBehind_append] at hbetween
  refine ⟨⟨fun t ht => ?_, hordered, fun t ht => (hbetween t ht).1, fun t ht => ?_⟩, ?_⟩
  · obtain ⟨horigin, hle, -⟩ := hbetween t ht
    have hfaithful : t.IsFaithful := by
      rcases List.mem_append.mp ht with ht | ht
      · exact hrun.isFaithful t ht
      · exact Token.isFaithful_of_not_isProper (Layout.not_isProper_of_mem_finish ht)
    exact ⟨hfaithful, hle, Position.line_le_of_le horigin⟩
  · rw [← hplace]
    exact Position.le_trans (hbetween t ht).2.2 hstop
  · obtain ⟨closing, last, hclosing, hlast, -⟩ := final.exists_finish_eq_append
    exact ⟨body ++ closing, last, by rw [hclosing, List.append_assoc], hlast⟩

/-! ## The tokens of a field -/

namespace AreSound

/-- Tokens that are carried over from a field stay sound. -/
theorem inField {start stop place : Position} {ts : List Token} (h : AreSound start stop ts)
    (hplace : 1 ≤ place.line) :
    AreSound (place.inField start) (place.inField stop) (ts.map (·.inField place)) where
  isSound := List.forall_mem_map.mpr fun t ht => by
    have hsound := h.isSound t ht
    refine ⟨⟨fun hkind => ?_, hsound.isInteger⟩, Position.inField_le place hsound.start_le_stop,
      Position.one_le_line_inField hplace hsound.one_le_line⟩
    show place.inField t.stop = (place.inField t.start).advance t.text
    rw [← Position.inField_advance hsound.one_le_line, hsound.stop_of_isText hkind]
  ordered := List.pairwise_map.mpr (h.ordered.imp fun htu => Position.inField_le place htu)
  start_le := List.forall_mem_map.mpr fun t ht => Position.inField_le place (h.start_le t ht)
  le_stop := List.forall_mem_map.mpr fun t ht => Position.inField_le place (h.le_stop t ht)

/-- Fewer tokens stay sound. -/
theorem sublist {start stop : Position} {ts us : List Token} (h : AreSound start stop ts)
    (hsub : us.Sublist ts) : AreSound start stop us where
  isSound := fun t ht => h.isSound t (hsub.mem ht)
  ordered := h.ordered.sublist hsub
  start_le := fun t ht => h.start_le t (hsub.mem ht)
  le_stop := fun t ht => h.le_stop t (hsub.mem ht)

end AreSound

end SyntaxTree
