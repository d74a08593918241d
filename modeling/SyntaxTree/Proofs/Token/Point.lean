import SyntaxTree.Proofs.Ending.Range
import SyntaxTree.Proofs.Token.Line

/-
# Points

A token that is a point is a point of the source.  Where digits stand in front of a point, the point
belongs to the number and is no token of its own.
-/

namespace SyntaxTree

namespace Lexeme

/-- A token that is a point begins with a point. -/
theorem eq_dot_of_next {b : Byte} {s rest : Bytes}
    (h : next b s = .ok (.token .dot, rest)) : b = ascii '.' := by
  have htoken := afterToken_of_next h
  have hoperators : ∀ entry ∈ TokenKind.operators, entry.2 = .dot → entry.1 = [ascii '.'] := by
    decide
  unfold afterToken at htoken
  split at htoken
  · exact absurd (Number.isNumber_of_after htoken) (by decide)
  split at htoken
  · have hword : ∀ word, TokenKind.ofWord word ≠ .dot :=
      TokenKind.forall_ofWord (p := (· ≠ .dot)) nofun (by decide)
    have htext (word : Bytes) : textKind word ≠ .dot := by
      unfold textKind
      split <;> decide
    exact absurd rfl (forall_of_afterName (p := (· ≠ .dot)) hword htext htoken)
  split at htoken
  · obtain ⟨rest', -, hkind⟩ := exists_of_map_eq_ok htoken
    cases hkind
  · unfold afterOperator at htoken
    split at htoken
    · next spelling found hfind =>
      obtain ⟨hkind, -⟩ := Prod.mk.inj (Except.ok.inj htoken)
      obtain rfl : spelling = [ascii '.'] :=
        hoperators _ (List.mem_of_find?_eq_some hfind) hkind
      have hprefix : [ascii '.'].isPrefixOf (b :: s) = true := by simpa using List.find?_some hfind
      exact (List.cons_prefix_cons.mp (List.isPrefixOf_iff_prefix.mp hprefix)).1.symm
    · cases htoken

end Lexeme

/-! ## Numbers in front of a point -/

namespace Number

/-- Digits in front of a point are read together with it. -/
theorem suffix_of_after_point {b : Byte} {t post rest : Bytes} {kind : TokenKind}
    (hdigits : IsCanonical (b :: t)) (h : after b (t ++ ascii '.' :: post) = .ok (kind, rest)) :
    rest <:+ post := by
  have hall := List.all_eq_true.mp hdigits.1
  have hmarker : b = ascii '0' → ∀ base : NumberBase, ∀ c ∈ (t ++ ascii '.' :: post).head?,
      c ∉ base.markers := by
    rintro rfl base c hc
    obtain ⟨-, rfl⟩ := List.cons.inj (hdigits.2.2 rfl)
    obtain rfl : ascii '.' = c := Option.some.inj hc
    cases base <;> decide
  rw [after_unmarked hmarker, afterDecimal] at h
  obtain ⟨point, hpoint, h⟩ := exists_of_bind_eq_ok h
  obtain ⟨behind, hfraction, h⟩ := exists_of_bind_eq_ok h
  obtain ⟨suffix, hexponent, h⟩ := exists_of_bind_eq_ok h
  obtain ⟨⟨kind', rest'⟩, hsuffix, h⟩ := exists_of_bind_eq_ok h
  have hne : b ≠ ascii '.' := Byte.ne_of_class (hall b List.mem_cons_self) rfl
  have hhalts : Halts .decimal (ascii '.' :: post) := halts_cons (by decide) post
  have hrun : DigitRun .decimal t :=
    digitRun_of_all (List.all_eq_true.mpr fun c hc => hall c (List.mem_cons_of_mem b hc))
  rw [afterWhole, if_neg hne, afterDigits_run hrun hhalts fun h => absurd h (by decide)] at hpoint
  cases hpoint
  rw [afterFraction, if_pos rfl] at hfraction
  obtain rfl : rest' = rest := by grind
  exact (suffix_of_afterSuffix hsuffix).trans
    ((suffix_of_afterExponent hexponent).trans (suffix_of_afterDigits hfraction))

end Number

namespace Lexeme

/-- Digits in front of a point begin a lexeme that the point belongs to. -/
theorem exists_number_of_next {b : Byte} {t post rest : Bytes} {kind : LexemeKind}
    (hdigits : Number.IsCanonical (b :: t))
    (h : next b (t ++ ascii '.' :: post) = .ok (kind, rest)) :
    kind ≠ .token .dot ∧ ∃ u, post = u ++ rest := by
  have hdigit : b.isDigit := List.all_eq_true.mp hdigits.1 b List.mem_cons_self
  obtain ⟨hblank, hend, -, hmark, hbackslash⟩ := plain_of_begins (s := []) (.inl hdigit)
  rw [next, hblank, hend, if_neg Bool.false_ne_true, if_neg Bool.false_ne_true, if_neg hmark,
    if_neg hbackslash, afterToken, hdigit, Bool.true_or, if_pos rfl] at h
  obtain ⟨⟨kind', rest'⟩, hafter, h⟩ := exists_of_map_eq_ok h
  cases h
  obtain ⟨u, hu⟩ := Number.suffix_of_after_point hdigits hafter
  refine ⟨?_, u, hu.symm⟩
  rintro ⟨⟩
  exact absurd (Number.isNumber_of_after hafter) (by decide)

end Lexeme

/-! ## Points among lexemes -/

namespace Lexeme

/-- Whether a lexeme is a point. -/
def isPoint (lexeme : Lexeme) : Bool := lexeme.kind = .token .dot

/-- Whether a lexeme has a point in its text. -/
def hasPoint (lexeme : Lexeme) : Bool := lexeme.text.contains (ascii '.')

/-- As many points stand in a text as lexemes have one. -/
theorem countP_hasPoint_le (ls : List Lexeme) :
    ls.countP hasPoint ≤ (ls.flatMap Lexeme.text).count (ascii '.') := by
  induction ls with
  | nil => exact Nat.le_refl _
  | cons l ls ih =>
    rw [List.flatMap_cons, List.count_append, List.countP_cons]
    split
    · next hpoint =>
      have hcount : 0 < l.text.count (ascii '.') :=
        List.count_pos_iff.mpr (List.contains_iff_mem.mp hpoint)
      omega
    · omega

/-- Where each point has one in its text and another lexeme does too, points are fewer. -/
theorem countP_isPoint_lt {ls : List Lexeme} (hpoints : ∀ l ∈ ls, l.isPoint → l.hasPoint)
    {l : Lexeme} (hl : l ∈ ls) (hhas : l.hasPoint) (hnot : l.isPoint = false) :
    ls.countP isPoint < ls.countP hasPoint := by
  obtain ⟨front, behind, rfl⟩ := List.append_of_mem hl
  have hfront : front.countP isPoint ≤ front.countP hasPoint :=
    List.countP_mono_left fun l' hl' => hpoints l' (List.mem_append_left _ hl')
  have hbehind : behind.countP isPoint ≤ behind.countP hasPoint :=
    List.countP_mono_left fun l' hl' =>
      hpoints l' (List.mem_append_right _ (List.mem_cons_of_mem l hl'))
  simp only [List.countP_append, List.countP_cons, hhas, hnot, if_true]
  simp only [Bool.false_eq_true, if_false]
  omega

end Lexeme

/-! ## Points among tokens -/

/-- Whether a token is a point. -/
def Token.isPoint (t : Token) : Bool := t.kind = .dot

theorem Token.not_isPoint {t : Token} (h : t.kind.isProper = false) : ¬ t.isPoint := by
  intro hpoint
  rw [of_decide_eq_true hpoint] at h
  cases h

namespace Layout

theorem Opens.countP_isPoint {layout opened : Layout} {emitted : List Token}
    (h : layout.Opens emitted opened) : emitted.countP Token.isPoint = 0 :=
  List.countP_eq_zero.mpr fun t ht => Token.not_isPoint (h.not_isProper t ht)

theorem Adds.countP_isPoint {layout layout' : Layout} {lexeme : Lexeme} {emitted : List Token}
    (h : Adds false layout lexeme emitted layout') :
    emitted.countP Token.isPoint = if lexeme.isPoint then 1 else 0 := by
  cases h with
  | blank => rfl
  | comment => rfl
  | lineEnd => cases layout.lineOpen <;> rfl
  | innerEnd => rfl
  | join _ hopens => exact hopens.countP_isPoint
  | @token opened emitted kind s _ hopens =>
    rw [List.countP_append, hopens.countP_isPoint, Nat.zero_add, List.countP_singleton]
    simp only [Token.isPoint, Lexeme.isPoint, LexemeKind.token.injEq]
    rfl

/-- A run gives as many points as there are among the lexemes of its text. -/
theorem Run.countP_isPoint {s : Bytes} {layout final : Layout} {tokens : List Token}
    (h : Run false s layout tokens final) :
    tokens.countP Token.isPoint = (Division.ofBytes s).lexemes.countP Lexeme.isPoint := by
  induction h with
  | nil => rw [Division.ofBytes]; rfl
  | @cons b t rest kind _ _ _ _ _ hnext hadds _ ih =>
    rw [List.countP_append, hadds.countP_isPoint, ih, List.cons_append,
      Division.ofBytes_append hnext, Division.cons, List.countP_cons, Nat.add_comm]

theorem countP_isPoint_finish (layout : Layout) : layout.finish.countP Token.isPoint = 0 :=
  List.countP_eq_zero.mpr fun _ ht => Token.not_isPoint (not_isProper_of_mem_finish ht)

end Layout

namespace Division

/-- Each lexeme that is a point has one in its text. -/
theorem hasPoint_of_isPoint (s : Bytes) : ∀ l ∈ (ofBytes s).lexemes, l.isPoint → l.hasPoint := by
  fun_induction ofBytes s with
  | case1 => exact List.forall_mem_nil _
  | case2 => exact List.forall_mem_nil _
  | case3 b tail kind rest hnext _ ih =>
    refine List.forall_mem_cons.mpr ⟨fun hpoint => ?_, ih⟩
    obtain rfl : kind = .token .dot := of_decide_eq_true hpoint
    obtain rfl := Lexeme.eq_dot_of_next hnext
    obtain ⟨t, rfl⟩ := Lexeme.suffix_of_next hnext
    rw [← List.cons_append, Lexeme.before_append, Lexeme.hasPoint]
    exact List.contains_iff_mem.mpr List.mem_cons_self

/-- The first lexeme of digits in front of a point has the point in its text. -/
theorem exists_hasPoint {digits post : Bytes} (hdigits : Number.IsCanonical digits)
    (h : (ofBytes (digits ++ ascii '.' :: post)).failure = none) :
    ∃ l ∈ (ofBytes (digits ++ ascii '.' :: post)).lexemes, l.hasPoint ∧ l.isPoint = false := by
  obtain ⟨b, t, rfl⟩ := List.exists_cons_of_ne_nil hdigits.2.1
  rw [List.cons_append] at h ⊢
  rw [ofBytes] at h ⊢
  split at h
  · cases h
  · next kind rest hnext =>
    obtain ⟨hkind, u, rfl⟩ := Lexeme.exists_number_of_next hdigits hnext
    refine ⟨_, List.mem_cons_self, ?_, decide_eq_false hkind⟩
    have hbefore : Lexeme.before (b :: (t ++ ascii '.' :: (u ++ rest))) rest =
        b :: (t ++ ascii '.' :: u) := by
      simpa using Lexeme.before_append (b :: (t ++ ascii '.' :: u)) rest
    rw [Lexeme.hasPoint, hbefore]
    exact List.contains_iff_mem.mpr (by simp)

/-- Where digits in front of a point stand behind whole lexemes, points are fewer than points in the
text. -/
theorem countP_isPoint_lt {ls : List Lexeme} {front digits post : Bytes}
    (hdigits : Number.IsCanonical digits)
    (hfront : ofBytes (front ++ (digits ++ ascii '.' :: post)) =
      ls.foldr cons (ofBytes (digits ++ ascii '.' :: post)))
    (h : (ofBytes (front ++ (digits ++ ascii '.' :: post))).failure = none) :
    (ofBytes (front ++ (digits ++ ascii '.' :: post))).lexemes.countP Lexeme.isPoint <
      (front ++ (digits ++ ascii '.' :: post)).count (ascii '.') := by
  have hpoints := hasPoint_of_isPoint (front ++ (digits ++ ascii '.' :: post))
  have hwhole := (tiles_ofBytes _).whole_iff.mpr h
  rw [hfront, foldr_cons] at h
  obtain ⟨l, hl, hhas, hnot⟩ := exists_hasPoint hdigits h
  have hmem : l ∈ (ofBytes (front ++ (digits ++ ascii '.' :: post))).lexemes := by
    rw [hfront, foldr_cons]
    exact List.mem_append_right _ hl
  have hle := Lexeme.countP_hasPoint_le (ofBytes (front ++ (digits ++ ascii '.' :: post))).lexemes
  rw [hwhole] at hle
  exact Nat.lt_of_lt_of_le (Lexeme.countP_isPoint_lt hpoints hmem hhas hnot) hle

end Division

/-- The points among the tokens of a source are those among its lexemes. -/
theorem countP_isPoint_of_tokenize {source : Bytes} {tokens : List Token}
    (h : tokenize false source = .ok tokens) :
    tokens.countP Token.isPoint =
      (Division.ofBytes (dropMark source)).lexemes.countP Lexeme.isPoint := by
  obtain ⟨body, final, rfl, hrun⟩ := exists_run_of_tokenize h
  rw [List.countP_append, final.countP_isPoint_finish, hrun.countP_isPoint, Nat.add_zero]

end SyntaxTree
