import SyntaxTree.Proofs.Text.Place
import SyntaxTree.Proofs.Token.Plain

/-
# Places of tokens

No lexeme parts a carriage return from its line feed, so walking over the lexemes one by one is
walking over the source: a token starts where the walk over what stands in front of it leads, and
the tokens end where the walk over the whole source does.
-/

namespace SyntaxTree

/-! ## Lexemes part no line end -/

/-- A text that ends in anything but a carriage return, if it has an end. -/
def EndsFirmly (s : Bytes) : Prop := s.getLast? ≠ some Byte.carriageReturn

theorem endsFirmly_of_notMem {s : Bytes} (h : Byte.carriageReturn ∉ s) : EndsFirmly s :=
  fun hlast => h (List.mem_of_getLast? hlast)

theorem endsFirmly_append {s t : Bytes} (ht : t ≠ []) (h : EndsFirmly t) : EndsFirmly (s ++ t) := by
  rwa [EndsFirmly, List.getLast?_append_of_ne_nil s ht]

theorem EndsFirmly.partsNoLineEnd {s : Bytes} (h : EndsFirmly s) (t : Bytes) : PartsNoLineEnd s t :=
  fun hlast => absurd hlast h

namespace Number

/-- What a scanner of numbers passes over ends no line. -/
def Spares (s rest : Bytes) : Prop := ∃ t, s = t ++ rest ∧ ∀ b ∈ t, b.isLineEnd = false

theorem Spares.refl (s : Bytes) : Spares s s := ⟨[], rfl, List.forall_mem_nil _⟩

theorem Spares.cons {b : Byte} {s rest : Bytes} (hb : b.isLineEnd = false)
    (h : Spares s rest) : Spares (b :: s) rest := by
  obtain ⟨t, rfl, ht⟩ := h
  exact ⟨b :: t, rfl, List.forall_mem_cons.mpr ⟨hb, ht⟩⟩

theorem Spares.trans {s s' rest : Bytes} (h : Spares s s') (h' : Spares s' rest) :
    Spares s rest := by
  obtain ⟨t, rfl, ht⟩ := h
  obtain ⟨t', rfl, ht'⟩ := h'
  exact ⟨t ++ t', (List.append_assoc ..).symm, List.forall_mem_append.mpr ⟨ht, ht'⟩⟩

theorem not_isDigit_of_isLineEnd {base : NumberBase} {b : Byte} (h : b.isLineEnd) :
    base.isDigit b = false := by
  rcases Byte.isLineEnd_iff.mp h with rfl | rfl <;> cases base <;> rfl

theorem not_isLineEnd_of_isDigit {base : NumberBase} {b : Byte} (h : base.isDigit b) :
    b.isLineEnd = false :=
  Bool.eq_false_iff.mpr fun hend => absurd h (by simp [not_isDigit_of_isLineEnd hend])

theorem not_isLineEnd_of_toLower {b c : Byte} (h : b.toLower = c) (hc : c.isLineEnd = false) :
    b.isLineEnd = false := by
  refine Bool.eq_false_iff.mpr fun hend => ?_
  rcases Byte.isLineEnd_iff.mp hend with rfl | rfl <;> subst h <;> cases hc

theorem spares_of_afterDigits {base : NumberBase} {underscore : Bool} {s rest : Bytes}
    (h : afterDigits base underscore s = .ok rest) : Spares s rest := by
  fun_induction afterDigits base underscore s with
  | case1 => exact Except.ok.inj h ▸ .refl []
  | case2 => cases h
  | case3 underscore next tail hdigit ih => exact (ih h).cons (by decide)
  | case4 => cases h
  | case5 underscore b s hunderscore hdigit ih =>
    exact (ih h).cons (not_isLineEnd_of_isDigit hdigit)
  | case6 => exact Except.ok.inj h ▸ .refl _

theorem spares_of_afterMarked {base : NumberBase} {s rest : Bytes}
    (h : afterMarked base s = .ok rest) : Spares s rest := by
  obtain ⟨behind, hdigits, h⟩ := exists_of_bind_eq_ok h
  have hbehind : behind = rest := by grind
  exact hbehind ▸ spares_of_afterDigits hdigits

theorem spares_of_afterWhole {b : Byte} {s rest : Bytes} (hb : b.isLineEnd = false)
    (h : afterWhole b s = .ok rest) : Spares (b :: s) rest := by
  unfold afterWhole at h
  split at h
  · exact Except.ok.inj h ▸ .refl _
  · exact (spares_of_afterDigits h).cons hb

theorem spares_of_afterFraction {s rest : Bytes} (h : afterFraction s = .ok rest) :
    Spares s rest := by
  unfold afterFraction at h
  split at h
  · split at h
    · next hpoint => exact (spares_of_afterDigits h).cons (by rw [hpoint]; decide)
    · exact Except.ok.inj h ▸ .refl _
  · exact Except.ok.inj h ▸ .refl _

theorem spares_of_afterExponent {s rest : Bytes} (h : afterExponent s = .ok rest) :
    Spares s rest := by
  unfold afterExponent at h
  split at h
  · next b tail =>
    split at h
    · next hletter =>
      refine Spares.cons (not_isLineEnd_of_toLower hletter (by decide)) ?_
      cases tail with
      | nil => cases h
      | cons sign unsigned =>
        have hspares : Spares (if sign = ascii '+' ∨ sign = ascii '-' then unsigned
            else sign :: unsigned) rest := by
          dsimp only at h
          generalize (if sign = ascii '+' ∨ sign = ascii '-' then unsigned
            else sign :: unsigned) = digits at h ⊢
          split at h
          · split at h
            · exact spares_of_afterDigits h
            · cases h
          · cases h
        by_cases hsign : sign = ascii '+' ∨ sign = ascii '-'
        · rw [if_pos hsign] at hspares
          refine hspares.cons ?_
          rcases hsign with rfl | rfl <;> decide
        · rwa [if_neg hsign] at hspares
    · exact Except.ok.inj h ▸ .refl _
  · exact Except.ok.inj h ▸ .refl _

theorem spares_of_afterSuffix {whole : Option Bytes} {kind : TokenKind} {s rest : Bytes}
    (h : afterSuffix whole s = .ok (kind, rest)) : Spares s rest := by
  unfold afterSuffix at h
  split at h
  · next himaginary =>
    obtain ⟨-, rfl⟩ := Prod.mk.inj (Except.ok.inj h)
    cases s with
    | nil => exact .refl []
    | cons b s =>
      exact (Spares.refl s).cons (not_isLineEnd_of_toLower (by simpa using himaginary) (by decide))
  · have hrest : s = rest := by grind
    exact hrest ▸ .refl s

theorem spares_of_afterDecimal {kind : TokenKind} {b : Byte} {s rest : Bytes}
    (hb : b.isLineEnd = false) (h : afterDecimal b s = .ok (kind, rest)) :
    Spares (b :: s) rest := by
  unfold afterDecimal at h
  obtain ⟨point, hpoint, h⟩ := exists_of_bind_eq_ok h
  obtain ⟨exponent, hexponent, h⟩ := exists_of_bind_eq_ok h
  obtain ⟨suffix, hsuffix, h⟩ := exists_of_bind_eq_ok h
  obtain ⟨⟨kind', rest'⟩, hrest, h⟩ := exists_of_bind_eq_ok h
  have hsame : rest' = rest := by grind
  exact (spares_of_afterWhole hb hpoint).trans ((spares_of_afterFraction hexponent).trans
    ((spares_of_afterExponent hsuffix).trans (hsame ▸ spares_of_afterSuffix hrest)))

theorem spares_of_after {kind : TokenKind} {b : Byte} {s rest : Bytes}
    (hb : b.isLineEnd = false) (h : after b s = .ok (kind, rest)) : Spares (b :: s) rest := by
  unfold after at h
  split at h
  · next marker tail =>
    split at h
    · next base hbase =>
      obtain ⟨rest', hrest, h⟩ := exists_of_map_eq_ok h
      obtain ⟨-, rfl⟩ := Prod.mk.inj h
      have hmarker : marker.isLineEnd = false := by
        refine Bool.eq_false_iff.mpr fun hend => ?_
        rcases Byte.isLineEnd_iff.mp hend with rfl | rfl <;> split at hbase <;> cases hbase
      exact ((spares_of_afterMarked hrest).cons hmarker).cons hb
    · exact spares_of_afterDecimal hb h
  · exact spares_of_afterDecimal hb h

end Number

/-- The quote that closes a frame is a quote. -/
def Frame.IsQuoted : Frame → Prop
  | plain d _ | formatted d | field d _ _ | spec d => d.quote.isQuote

/-- All frames are quoted. -/
def Frame.AreQuoted : List Frame → Prop
  | [] => True
  | frame :: outer => frame.IsQuoted ∧ AreQuoted outer

theorem Frame.isQuoted_ofPrefix (word : Bytes) {d : Delimiter} (h : d.quote.isQuote) :
    (Frame.ofPrefix word d).IsQuoted := by
  unfold Frame.ofPrefix
  dsimp only
  generalize (if isStringPrefix word then word.toLower else []) = letters
  split <;> exact h

theorem Byte.ne_return_of_isQuote {b : Byte} (h : b.isQuote) : b ≠ Byte.carriageReturn := by
  rintro rfl
  exact absurd h (by decide)

/-- What stands in front of `rest` ends in a byte other than a carriage return. -/
def EndsIn (s rest : Bytes) : Prop := ∃ t c, s = t ++ c :: rest ∧ c ≠ Byte.carriageReturn

theorem EndsIn.cons {b : Byte} {s rest : Bytes} (h : EndsIn s rest) : EndsIn (b :: s) rest := by
  obtain ⟨t, c, rfl, hc⟩ := h
  exact ⟨b :: t, c, rfl, hc⟩

theorem EndsIn.self {b : Byte} {s : Bytes} (hb : b ≠ Byte.carriageReturn) : EndsIn (b :: s) s :=
  ⟨[], b, rfl, hb⟩

/-- The byte that closes the last of some frames is a quote or a brace. -/
theorem endsIn_of_afterFrames {frames : List Frame} {s rest : Bytes}
    (hquotes : Frame.AreQuoted frames) (h : afterFrames frames s = .ok rest) (hne : frames ≠ []) :
    EndsIn s rest := by
  fun_induction afterFrames frames s with
  | case1 => exact absurd rfl hne
  | _ =>
    grind [afterFrames, EndsIn.cons, EndsIn.self, Frame.AreQuoted, Frame.IsQuoted,
      Frame.isQuoted_ofPrefix, Byte.ne_return_of_isQuote]

theorem endsIn_of_afterText {word : Bytes} {quote : Byte} (hquote : quote.isQuote) {s rest : Bytes}
    (h : afterText word quote s = .ok rest) : EndsIn s rest := by
  have hframe (triple : Bool) : Frame.AreQuoted [Frame.ofPrefix word ⟨quote, triple⟩] :=
    ⟨Frame.isQuoted_ofPrefix word hquote, trivial⟩
  unfold afterText at h
  split at h
  · split at h
    · exact (endsIn_of_afterFrames (hframe true) h (List.cons_ne_nil _ _)).cons.cons
    · exact endsIn_of_afterFrames (hframe false) h (List.cons_ne_nil _ _)
  · exact endsIn_of_afterFrames (hframe false) h (List.cons_ne_nil _ _)

theorem EndsIn.endsFirmly {t rest : Bytes} (h : EndsIn (t ++ rest) rest) :
    t ≠ [] ∧ EndsFirmly t := by
  obtain ⟨front, c, hsplit, hc⟩ := h
  obtain rfl : t = front ++ [c] := List.append_cancel_right (hsplit.trans (by simp))
  refine ⟨by simp, ?_⟩
  rw [EndsFirmly, List.getLast?_concat]
  exact fun hreturn => hc (Option.some.inj hreturn)

namespace Lexeme

variable {b : Byte} {t rest : Bytes} {kind : TokenKind}

theorem endsFirmly_of_afterName (hb : b.isNameByte)
    (h : afterName b (t ++ rest) = .ok (kind, rest)) : EndsFirmly (b :: t) := by
  obtain ⟨u, after, hsplit, hname, h⟩ := exists_word_of_afterName hb h
  have hword (h : (TokenKind.ofWord (b :: u), after) = (kind, rest)) : EndsFirmly (b :: t) := by
    obtain ⟨-, rfl⟩ := Prod.mk.inj h
    obtain rfl : t = u := List.append_cancel_right hsplit
    exact endsFirmly_of_notMem fun hreturn => absurd (hname _ hreturn) (by decide)
  unfold afterWordOrText at h
  split at h
  · next quote body =>
    split at h
    · next hquote =>
      obtain ⟨rest', htext, h⟩ := exists_of_map_eq_ok h
      obtain ⟨-, rfl⟩ := Prod.mk.inj h
      obtain ⟨inner, rfl⟩ := suffix_of_afterText htext
      obtain ⟨hne, hfirm⟩ :=
        (endsIn_of_afterText (Bool.and_eq_true_iff.mp hquote).1 htext).endsFirmly
      obtain rfl : t = u ++ quote :: inner := by
        refine List.append_cancel_right (hsplit.trans ?_)
        simp
      rw [show b :: (u ++ quote :: inner) = b :: u ++ [quote] ++ inner by simp]
      exact endsFirmly_append hne hfirm
    · exact hword (Except.ok.inj h)
  · exact hword (Except.ok.inj h)

/-- Operators have texts, and those are in one line. -/
theorem operator_inLine :
    ∀ x ∈ TokenKind.operators, x.1 ≠ [] ∧ ∀ b ∈ x.1, b.isLineEnd = false := by
  have hall : TokenKind.operators.all fun x => x.1 ≠ [] && x.1.all (!·.isLineEnd) := by
    decide +kernel
  intro x hx
  obtain ⟨hne, hends⟩ := Bool.and_eq_true_iff.mp (List.all_eq_true.mp hall x hx)
  exact ⟨of_decide_eq_true hne,
    fun b hb => (Bool.not_eq_true' _).mp (List.all_eq_true.mp hends b hb)⟩

theorem not_isLineEnd_of_afterOperator (h : afterOperator b (t ++ rest) = .ok (kind, rest)) :
    ∀ c ∈ b :: t, c.isLineEnd = false := by
  unfold afterOperator at h
  split at h
  · next spelling kind' hfind =>
    obtain ⟨-, hrest⟩ := Prod.mk.inj (Except.ok.inj h)
    obtain ⟨hne, hspelling⟩ := operator_inLine _ (List.mem_of_find?_eq_some hfind)
    have hprefix : spelling.isPrefixOf (b :: (t ++ rest)) := by simpa using List.find?_some hfind
    obtain ⟨behind, hbehind⟩ := List.isPrefixOf_iff_prefix.mp hprefix
    obtain ⟨c, tail, rfl⟩ := List.exists_cons_of_ne_nil hne
    obtain ⟨rfl, htail⟩ : c = b ∧ tail ++ behind = t ++ rest := List.cons.inj hbehind
    rw [List.length_cons, Nat.add_sub_cancel, ← htail, List.drop_left] at hrest
    obtain rfl : t = tail := List.append_cancel_right (htail.symm.trans (by rw [hrest]))
    exact hspelling
  · cases h

/-- The byte with which a number begins. -/
theorem not_isLineEnd_of_number {s : Bytes}
    (h : (b.isDigit || (b == ascii '.' && s.head?.any Byte.isDigit)) = true) :
    b.isLineEnd = false := by
  refine Bool.eq_false_iff.mpr fun hend => ?_
  rcases Byte.isLineEnd_iff.mp hend with rfl | rfl <;> exact absurd h (by simp +decide)

theorem endsFirmly_of_afterToken (h : afterToken b (t ++ rest) = .ok (kind, rest)) :
    EndsFirmly (b :: t) := by
  unfold afterToken at h
  split at h
  · next hdigit =>
    obtain ⟨front, hsplit, hfront⟩ := Number.spares_of_after (not_isLineEnd_of_number hdigit) h
    obtain rfl : b :: t = front := List.append_cancel_right hsplit
    exact endsFirmly_of_notMem fun hreturn => absurd (hfront _ hreturn) (by decide)
  split at h
  · next hb => exact endsFirmly_of_afterName (by grind [Byte.isNameByte, isWordByte]) h
  split at h
  · next hquote =>
    obtain ⟨rest', htext, h⟩ := exists_of_map_eq_ok h
    obtain ⟨-, rfl⟩ := Prod.mk.inj h
    obtain ⟨hne, hfirm⟩ := (endsIn_of_afterText hquote htext).endsFirmly
    exact endsFirmly_append (s := [b]) hne hfirm
  · exact endsFirmly_of_notMem fun hreturn =>
      absurd (not_isLineEnd_of_afterOperator h _ hreturn) (by decide)

/-- A line end is a lexeme as a whole. -/
theorem partsNoLineEnd_of_afterLineEnd (h : afterLineEnd b (t ++ rest) = rest) :
    PartsNoLineEnd (b :: t) rest := by
  intro hreturn hfeed
  unfold afterLineEnd at h
  split at h
  · next hpair =>
    cases t with
    | nil =>
      -- What stands behind the line feed is shorter than what begins with it.
      have hlength := congrArg List.length h
      have hpos : 0 < rest.length := List.length_pos_iff.mpr (by rintro rfl; cases hfeed)
      simp at hlength
      omega
    | cons c t =>
      obtain rfl : t = [] := by simpa using h
      obtain rfl : c = Byte.lineFeed := by simpa using hpair.2
      cases hreturn
  · next hpair =>
    obtain rfl : t = [] := by simpa using h
    exact hpair ⟨Option.some.inj hreturn, hfeed⟩

/-- No lexeme parts a carriage return from its line feed. -/
theorem partsNoLineEnd_of_next {kind : LexemeKind} (h : next b (t ++ rest) = .ok (kind, rest)) :
    PartsNoLineEnd (b :: t) rest := by
  unfold next at h
  split at h
  · next hblank =>
    obtain ⟨-, hrest⟩ := Prod.mk.inj (Except.ok.inj h)
    have hblanks : ∀ c ∈ b :: t, c.isBlank :=
      List.forall_mem_cons.mpr ⟨hblank, (forall_mem_of_dropWhile hrest).1⟩
    exact (endsFirmly_of_notMem fun hreturn =>
      absurd (hblanks _ hreturn) (by decide)).partsNoLineEnd rest
  split at h
  · exact partsNoLineEnd_of_afterLineEnd (Prod.mk.inj (Except.ok.inj h)).2
  split at h
  · next hmark =>
    obtain ⟨-, hrest⟩ := Prod.mk.inj (Except.ok.inj h)
    obtain ⟨ht, -⟩ := forall_mem_of_dropWhile hrest
    refine (endsFirmly_of_notMem fun hreturn => ?_).partsNoLineEnd rest
    rcases List.mem_cons.mp hreturn with hb | hmem
    · exact absurd (hb.trans hmark) (by decide)
    · exact absurd (ht _ hmem) (by decide)
  split at h
  · obtain ⟨rest', hjoin, hrest⟩ := exists_of_map_eq_ok h
    obtain rfl : rest' = rest := (Prod.mk.inj hrest).2
    unfold afterJoin at hjoin
    split at hjoin
    · cases hjoin
    · next c s hs =>
      split at hjoin
      · split at hjoin
        · cases hjoin
        · have hafter : afterLineEnd c s = rest' := Except.ok.inj hjoin
          cases t with
          | nil =>
            -- The line end is not part of the rest, which is no longer than what stands behind it.
            have hlength := (suffix_afterLineEnd c s).length_le
            have hrest : rest'.length = s.length + 1 := congrArg List.length hs
            rw [hafter] at hlength
            omega
          | cons c' t =>
            obtain ⟨rfl, rfl⟩ := List.cons.inj hs
            exact fun hreturn => partsNoLineEnd_of_afterLineEnd hafter hreturn
      · cases hjoin
  · obtain ⟨⟨kind', rest'⟩, htoken, hrest⟩ := exists_of_map_eq_ok h
    obtain rfl : rest' = rest := (Prod.mk.inj hrest).2
    exact (endsFirmly_of_afterToken htoken).partsNoLineEnd rest'

end Lexeme

/-! ## Places -/

namespace Layout

theorem Adds.place_eq {keepComments : Bool} {layout layout' : Layout} {lexeme : Lexeme}
    {emitted : List Token} (h : Adds keepComments layout lexeme emitted layout') :
    layout'.place = layout.place.advance lexeme.text := by
  cases h with
  | blank => rfl
  | comment => rfl
  | lineEnd => rfl
  | innerEnd => rfl
  | join s hopens => exact congrArg (Position.advance · s) hopens.place_eq
  | token s hkind hopens => exact congrArg (Position.advance · s) hopens.place_eq

/-- A run leads as far as a walk over what is read. -/
theorem Run.place_eq {keepComments : Bool} {s : Bytes} {layout final : Layout} {body : List Token}
    (h : Run keepComments s layout body final) : final.place = layout.place.advance s := by
  induction h with
  | nil => rfl
  | cons hnext hadds _ ih =>
    rw [ih, hadds.place_eq, Position.advance_append (Lexeme.partsNoLineEnd_of_next hnext)]

end Layout

end SyntaxTree
