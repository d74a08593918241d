import Mathlib.Data.List.Find
import SyntaxTree.Proofs.Token.Frame

/-
# Tokens under other line ends

With another line end in place of each line feed a source is divided in the same way, and its tokens
are the same, but for the lines within literals.  Every scanner reads a line end of either form as
it reads the other, and where it stops there it stops in front of all of it.
-/

namespace SyntaxTree

open Bytes

variable {e : LineEnd}

/-! ## Numbers -/

namespace Number

theorem afterDigits_of_isLineEnd {base : NumberBase} {underscore : Bool} {b : Byte} {s : Bytes}
    (h : b.isLineEnd) : afterDigits base underscore (b :: s) = .ok (b :: s) := by
  have hb : b ≠ Byte.underscore := by
    rintro rfl
    exact absurd h (by decide)
  unfold afterDigits
  rw [if_neg hb, not_isDigit_of_isLineEnd h]
  rfl

theorem afterDigits_withLineEnds {base : NumberBase} {underscore : Bool} (s : Bytes) :
    afterDigits base underscore (withLineEnds e s) =
      (afterDigits base underscore s).map (withLineEnds e) := by
  induction s generalizing underscore with
  | nil => rfl
  | cons b s ih =>
    by_cases hb : b = Byte.lineFeed
    · -- The digits end in front of a line end, of which nothing is taken.
      subst hb
      rw [withLineEnds_lineFeed, afterDigits_of_isLineEnd rfl, afterDigits_of_isLineEnd rfl,
        Except.map, withLineEnds_lineFeed]
    · rw [withLineEnds_cons hb]
      unfold afterDigits
      split
      · cases s with
        | nil => rfl
        | cons next s =>
          by_cases hnext : next = Byte.lineFeed
          · subst hnext
            simp [not_isDigit_of_isLineEnd, Byte.isLineEnd, Except.map]
          · rw [withLineEnds_cons hnext] at ih ⊢
            simp only [ih]
            split <;> rfl
      · split
        · exact ih
        · rw [Except.map, withLineEnds_cons hb]

theorem runsIntoName_withLineEnds (s : Bytes) :
    runsIntoName (withLineEnds e s) = runsIntoName s := by
  cases s with
  | nil => rfl
  | cons b s =>
    by_cases hb : b = Byte.lineFeed
    · rw [hb, withLineEnds_lineFeed]
      rfl
    · rw [withLineEnds_cons hb]
      rfl

theorem afterMarked_withLineEnds {base : NumberBase} (s : Bytes) :
    afterMarked base (withLineEnds e s) = (afterMarked base s).map (withLineEnds e) := by
  unfold afterMarked
  rw [afterDigits_withLineEnds]
  cases hrest : afterDigits base true s with
  | error => rfl
  | ok rest =>
    have hlength := length_withLineEnds_eq (e := e) (suffix_of_afterDigits hrest)
    have hname := runsIntoName_withLineEnds (e := e) rest
    cases rest with
    | nil =>
      simp only [Except.map, bind, Except.bind, withLineEnds_nil, withLineEnds_eq_nil]
      split <;> rfl
    | cons b tail =>
      simp only [Except.map, bind, Except.bind]
      by_cases hb : b = Byte.lineFeed
      · subst hb
        have hnone : runsIntoName (Byte.lineFeed :: tail) = false := rfl
        simp only [withLineEnds_lineFeed, hnone] at hlength hname ⊢
        simp only [hlength, hname]
        split
        · rfl
        · simp
      · simp only [withLineEnds_cons hb] at hlength hname ⊢
        simp only [hlength, hname]
        split
        · rfl
        split
        · rfl
        · exact congrArg Except.ok (withLineEnds_cons hb).symm

theorem afterWhole_withLineEnds {b : Byte} (hb : b ≠ Byte.lineFeed) (s : Bytes) :
    afterWhole b (withLineEnds e s) = (afterWhole b s).map (withLineEnds e) := by
  unfold afterWhole
  split
  · rw [Except.map, withLineEnds_cons hb]
  · exact afterDigits_withLineEnds s

theorem afterFraction_withLineEnds (s : Bytes) :
    afterFraction (withLineEnds e s) = (afterFraction s).map (withLineEnds e) := by
  cases s with
  | nil => rfl
  | cons b s =>
    by_cases hb : b = Byte.lineFeed
    · subst hb
      rw [withLineEnds_lineFeed]
      rfl
    · rw [withLineEnds_cons hb]
      simp only [afterFraction]
      split
      · exact afterDigits_withLineEnds s
      · rw [Except.map, withLineEnds_cons hb]

theorem afterExponent_withLineEnds (s : Bytes) :
    afterExponent (withLineEnds e s) = (afterExponent s).map (withLineEnds e) := by
  have hdigits {d : Byte} (hd : d ≠ Byte.lineFeed) (digits : Bytes) :
      (if d.isDigit then afterDigits .decimal false (d :: withLineEnds e digits)
        else .error (.invalidNumber .decimal)) =
      (if d.isDigit then afterDigits .decimal false (d :: digits)
        else .error (.invalidNumber .decimal)).map (withLineEnds e) := by
    rw [← withLineEnds_cons hd, afterDigits_withLineEnds]
    split <;> rfl
  cases s with
  | nil => rfl
  | cons b s =>
    by_cases hb : b = Byte.lineFeed
    · subst hb
      rw [withLineEnds_lineFeed]
      rfl
    rw [withLineEnds_cons hb]
    simp only [afterExponent]
    split
    · cases s with
      | nil => rfl
      | cons sign unsigned =>
        by_cases hend : sign = Byte.lineFeed
        · subst hend
          rw [withLineEnds_lineFeed]
          rfl
        rw [withLineEnds_cons hend]
        by_cases hsign : sign = ascii '+' ∨ sign = ascii '-'
        · simp only [if_pos hsign]
          cases unsigned with
          | nil => rfl
          | cons d digits =>
            by_cases hd : d = Byte.lineFeed
            · subst hd
              rw [withLineEnds_lineFeed]
              rfl
            · rw [withLineEnds_cons hd]
              exact hdigits hd digits
        · simp only [if_neg hsign]
          exact hdigits hend unsigned
    · rw [Except.map, withLineEnds_cons hb]

theorem afterSuffix_withLineEnds {whole : Option Bytes} (s : Bytes) :
    afterSuffix whole (withLineEnds e s) =
      (afterSuffix whole s).map (Prod.map id (withLineEnds e)) := by
  have hclass := head?_any_withLineEnds (e := e) (s := s) (p := (·.toLower = ascii 'j')) rfl
  unfold afterSuffix
  rw [hclass]
  split
  · next hletter =>
    cases s with
    | nil => cases hletter
    | cons b s =>
      have hb : b ≠ Byte.lineFeed := by
        rintro rfl
        cases hletter
      rw [withLineEnds_cons hb]
      rfl
  · cases whole with
    | none => rfl
    | some digits =>
      dsimp only
      split <;> rfl

theorem afterDecimal_withLineEnds {b : Byte} (hb : b.isLineEnd = false) (s : Bytes) :
    afterDecimal b (withLineEnds e s) = (afterDecimal b s).map (Prod.map id (withLineEnds e)) := by
  have hne : b ≠ Byte.lineFeed := by
    rintro rfl
    cases hb
  unfold afterDecimal
  rw [afterWhole_withLineEnds hne]
  cases hpoint : afterWhole b s with
  | error => rfl
  | ok point =>
  simp only [Except.map, bind, Except.bind, afterFraction_withLineEnds]
  cases hexponent : afterFraction point with
  | error => rfl
  | ok exponent =>
  simp only [Except.map, afterExponent_withLineEnds]
  cases hsuffix : afterExponent exponent with
  | error => rfl
  | ok suffix =>
  -- What stands in front of the point is in one line, so the digits are the same.
  obtain ⟨digits, hsplit, hdigits⟩ := spares_of_afterWhole hb hpoint
  have hbefore {s' point' : Bytes} (h : b :: s' = digits ++ point') :
      (b :: s').take (s'.length + 1 - point'.length) = digits := by
    have hlength : s'.length + 1 = (digits ++ point').length := congrArg List.length h
    rw [hlength, h]
    exact Lexeme.before_append digits point'
  have hsplit' : b :: withLineEnds e s = digits ++ withLineEnds e point := by
    rw [← withLineEnds_cons hne, hsplit, withLineEnds_append, withLineEnds_of_notMem]
    exact fun hfeed => absurd (hdigits _ hfeed) (by decide)
  have hlength := length_withLineEnds_eq (e := e)
    ((suffix_of_afterExponent hsuffix).trans (suffix_of_afterFraction hexponent))
  simp only [Except.map, hbefore hsplit, hbefore hsplit', hlength, afterSuffix_withLineEnds]
  cases afterSuffix _ suffix with
  | error => rfl
  | ok result =>
    simp only [Prod.map, runsIntoName_withLineEnds]
    split <;> rfl

theorem after_withLineEnds {b : Byte} (hb : b.isLineEnd = false) (s : Bytes) :
    after b (withLineEnds e s) = (after b s).map (Prod.map id (withLineEnds e)) := by
  have hdecimal := afterDecimal_withLineEnds (e := e) hb s
  cases s with
  | nil => exact hdecimal
  | cons marker s =>
    by_cases hmarker : marker = Byte.lineFeed
    · subst hmarker
      have hnone {c : Byte} (hc : NumberBase.ofMarker? c = none) :
          (if b = ascii '0' then NumberBase.ofMarker? c else none) = none := by
        rw [hc, ite_self]
      rw [withLineEnds_lineFeed] at hdecimal ⊢
      simp only [after, hnone (show NumberBase.ofMarker? Byte.lineFeed = none from rfl),
        hnone (show NumberBase.ofMarker? Byte.carriageReturn = none from rfl)]
      exact hdecimal
    · rw [withLineEnds_cons hmarker] at hdecimal ⊢
      simp only [after]
      split
      · rw [afterMarked_withLineEnds]
        cases afterMarked _ s <;> rfl
      · exact hdecimal

end Number

/-! ## Words -/

namespace Utf8

theorem decodeTail?_withLineEnds (count code : Nat) (s : Bytes) :
    decodeTail? count code (withLineEnds e s) =
      (decodeTail? count code s).map (Prod.map id (withLineEnds e)) := by
  induction count generalizing code s with
  | zero => rfl
  | succ count ih =>
    cases s with
    | nil => rfl
    | cons b s =>
      by_cases hb : b = Byte.lineFeed
      · subst hb
        rw [withLineEnds_lineFeed]
        rfl
      · rw [withLineEnds_cons hb, decodeTail?, decodeTail?]
        cases payload? b with
        | none => rfl
        | some bits => exact ih _ s

/-- A character is read alike under other line ends. -/
theorem decode?_withLineEnds (b : Byte) (s : Bytes) :
    decode? (b :: withLineEnds e s) = (decode? (b :: s)).map (Prod.map id (withLineEnds e)) := by
  have hfilter (p : Nat → Bool) (o : Option (Nat × Bytes)) :
      (o.map (Prod.map id (withLineEnds e))).filter (p ·.1) =
        (o.filter (p ·.1)).map (Prod.map id (withLineEnds e)) := by
    cases o with
    | none => rfl
    | some result => simp only [Option.map, Option.filter, Prod.map, id]; split <;> rfl
  simp only [decode?, decodeTail?_withLineEnds, hfilter]
  repeat' split
  all_goals rfl

end Utf8

namespace Lexeme

theorem afterWord_of_malformed {b : Byte} {s : Bytes} (hb : b.isNonAscii)
    (h : Utf8.decode? (b :: s) = none) : afterWord (b :: s) = b :: s := by
  rw [afterWord, if_pos hb]
  split
  · next hdecode => cases h.symm.trans hdecode
  · rfl

/-- A word ends at the same place under other line ends. -/
theorem afterWord_withLineEnds (s : Bytes) :
    afterWord (withLineEnds e s) = withLineEnds e (afterWord s) := by
  have hfeed {b : Byte} (hb : b.isNonAscii ∨ isWordByte b) : b ≠ Byte.lineFeed := by
    rintro rfl
    rcases hb with hb | hb <;> cases hb
  have hdecode {b : Byte} {s rest : Bytes} {code : Nat}
      (h : Utf8.decode? (b :: s) = some (code, rest)) :
      Utf8.decode? (b :: withLineEnds e s) = some (code, withLineEnds e rest) := by
    rw [Utf8.decode?_withLineEnds, h]
    rfl
  fun_induction afterWord s with
  | case1 => rw [withLineEnds_nil, afterWord]
  | case2 b tail hb code rest hcode _ hcontinue ih =>
    rw [withLineEnds_cons (hfeed (.inl hb)), afterWord_of_decode? hb (hdecode hcode),
      if_pos hcontinue, ih]
  | case3 b tail hb code rest hcode _ hcontinue =>
    rw [withLineEnds_cons (hfeed (.inl hb)), afterWord_of_decode? hb (hdecode hcode),
      if_neg hcontinue]
  | case4 b tail hb hcode =>
    rw [withLineEnds_cons (hfeed (.inl hb)), afterWord_of_malformed hb]
    rw [Utf8.decode?_withLineEnds, hcode]
    rfl
  | case5 b tail hb hword ih =>
    rw [withLineEnds_cons (hfeed (.inr hword)), afterWord, if_neg hb, if_pos hword, ih]
  | case6 b tail hb hword =>
    by_cases hend : b = Byte.lineFeed
    · subst hend
      rw [withLineEnds_lineFeed, afterWord]
      rfl
    · rw [withLineEnds_cons hend, afterWord, if_neg hb, if_neg hword]

theorem afterWordOrText_withLineEnds {word rest : Bytes} (h : Byte.carriageReturn ∉ rest) :
    afterWordOrText word (withLineEnds e rest) =
      (afterWordOrText word rest).map (Prod.map id (withLineEnds e)) := by
  cases rest with
  | nil => rfl
  | cons b body =>
    obtain ⟨-, hbody⟩ := List.ne_and_not_mem_of_not_mem_cons h
    by_cases hfeed : b = Byte.lineFeed
    · subst hfeed
      rw [withLineEnds_lineFeed]
      rfl
    · rw [withLineEnds_cons hfeed]
      unfold afterWordOrText
      dsimp only
      split
      · next hquote =>
        rw [afterText_withLineEnds (Bool.and_eq_true_iff.mp hquote).1 hbody]
        cases afterText word b body <;> rfl
      · rw [Except.map, Prod.map, withLineEnds_cons hfeed]
        rfl

/-- What stands in one line in front of the rest is the same under other line ends. -/
theorem before_withLineEnds {s rest t : Bytes} (h : s = t ++ rest) (ht : Byte.lineFeed ∉ t) :
    before (withLineEnds e s) (withLineEnds e rest) = before s rest := by
  rw [h, withLineEnds_append, withLineEnds_of_notMem ht, before_append, before_append]

theorem afterName_withLineEnds {b : Byte} {s : Bytes} (hb : b.isNameByte)
    (h : Byte.carriageReturn ∉ s) :
    afterName b (withLineEnds e s) = (afterName b s).map (Prod.map id (withLineEnds e)) := by
  have hfeed {t : Bytes} (ht : ∀ c ∈ t, c.isNameByte) : Byte.lineFeed ∉ b :: t := by
    intro hmem
    rcases List.mem_cons.mp hmem with rfl | hmem
    · cases hb
    · cases ht _ hmem
  -- The word is the same, for it is in one line.
  have hword {t behind : Bytes} (ht : ∀ c ∈ t, c.isNameByte) (hs : s = t ++ behind) :
      afterWordOrText (before (b :: withLineEnds e s) (afterWord (withLineEnds e behind)))
          (afterWord (withLineEnds e behind)) =
        (afterWordOrText (before (b :: s) (afterWord behind)) (afterWord behind)).map
          (Prod.map id (withLineEnds e)) := by
    obtain ⟨u, hu, hname⟩ := exists_of_afterWord behind
    have hsplit : b :: s = b :: (t ++ u) ++ afterWord behind := by
      rw [List.cons_append, List.append_assoc, ← hu, hs]
    have hnames : ∀ c ∈ t ++ u, c.isNameByte := List.forall_mem_append.mpr ⟨ht, hname⟩
    have hbefore := before_withLineEnds (e := e) hsplit (hfeed hnames)
    have hne : b ≠ Byte.lineFeed := fun hb => hfeed hnames (hb ▸ List.mem_cons_self)
    rw [withLineEnds_cons hne] at hbefore
    rw [afterWord_withLineEnds, hbefore, afterWordOrText_withLineEnds]
    exact fun hmem => h (hs ▸ List.mem_append_right _ ((suffix_afterWord behind).mem hmem))
  unfold afterName
  split
  · next hbeyond =>
    rw [Utf8.decode?_withLineEnds]
    cases hdecode : Utf8.decode? (b :: s) with
    | none => rfl
    | some result =>
      obtain ⟨code, behind⟩ := result
      obtain ⟨t, hs, ht⟩ := Utf8.exists_of_decode? hbeyond hdecode
      have hnames : ∀ c ∈ t, c.isNameByte := fun c hc => Bool.or_eq_true_iff.mpr (.inr (ht c hc))
      simp only [Option.map, Prod.map, id]
      split
      · exact hword hnames hs
      · rfl
  · exact hword (List.forall_mem_nil _) rfl

/-! ## Operators -/

theorem afterOperator_withLineEnds {b : Byte} (hb : b ≠ Byte.lineFeed) (s : Bytes) :
    afterOperator b (withLineEnds e s) =
      (afterOperator b s).map (Prod.map id (withLineEnds e)) := by
  -- No operator holds a line end, so the same one is found.
  have hfind : TokenKind.operators.find? (·.1.isPrefixOf (b :: withLineEnds e s)) =
      TokenKind.operators.find? (·.1.isPrefixOf (b :: s)) :=
    List.find?_congr fun x hx => by
      rw [← withLineEnds_cons hb, isPrefixOf_withLineEnds (operator_inLine x hx).2]
  rw [afterOperator, afterOperator, hfind]
  cases hfound : TokenKind.operators.find? (·.1.isPrefixOf (b :: s)) with
  | none => rfl
  | some found =>
    obtain ⟨spelling, kind⟩ := found
    obtain ⟨hne, hline⟩ := operator_inLine _ (List.mem_of_find?_eq_some hfound)
    obtain ⟨c, tail, rfl⟩ := List.exists_cons_of_ne_nil hne
    have hprefix : (c :: tail).isPrefixOf (b :: s) := by simpa using List.find?_some hfound
    obtain ⟨rest, hrest⟩ := List.isPrefixOf_iff_prefix.mp hprefix
    obtain ⟨rfl, rfl⟩ : c = b ∧ tail ++ rest = s := List.cons.inj hrest
    have htail : Byte.lineFeed ∉ tail := fun hmem =>
      absurd (hline _ (List.mem_cons_of_mem c hmem)) (by decide)
    simp [Except.map, withLineEnds_of_notMem htail]

/-! ## Lexemes -/

theorem afterToken_withLineEnds {b : Byte} {s : Bytes} (hb : b.isLineEnd = false)
    (h : Byte.carriageReturn ∉ s) :
    afterToken b (withLineEnds e s) = (afterToken b s).map (Prod.map id (withLineEnds e)) := by
  have hne : b ≠ Byte.lineFeed := by
    rintro rfl
    cases hb
  unfold afterToken
  rw [head?_any_withLineEnds rfl]
  split
  · exact Number.after_withLineEnds hb s
  split
  · next hname => exact afterName_withLineEnds (by grind [Byte.isNameByte, isWordByte]) h
  split
  · next hquote =>
    rw [afterText_withLineEnds hquote h]
    cases afterText [] b s <;> rfl
  · exact afterOperator_withLineEnds hne s

theorem next_of_isLineEnd {b : Byte} (h : b.isLineEnd) (s : Bytes) :
    next b s = .ok (.lineEnd, afterLineEnd b s) := by
  rcases Byte.isLineEnd_iff.mp h with rfl | rfl <;> rfl

theorem afterLineEnd_withLineEnds (s : Bytes) :
    afterLineEnd Byte.carriageReturn (e.behind ++ withLineEnds e s) = withLineEnds e s := by
  cases e with
  | single => exact if_neg fun hpair => head?_withLineEnds_ne hpair.2
  | pair => rfl

theorem afterJoin_withLineEnds {s : Bytes} (h : Byte.carriageReturn ∉ s) :
    afterJoin (withLineEnds e s) = (afterJoin s).map (withLineEnds e) := by
  cases s with
  | nil => rfl
  | cons b s =>
    obtain ⟨hb, -⟩ := List.ne_and_not_mem_of_not_mem_cons h
    by_cases hfeed : b = Byte.lineFeed
    · subst hfeed
      rw [withLineEnds_lineFeed]
      have hstay : afterLineEnd Byte.lineFeed s = s := if_neg fun hpair => hb hpair.1.symm
      simp only [afterJoin, afterLineEnd_withLineEnds, hstay]
      cases s with
      | nil => rfl
      | cons c s =>
        cases hrest : withLineEnds e (c :: s) with
        | nil => cases withLineEnds_eq_nil.mp hrest
        | cons => exact congrArg Except.ok hrest.symm
    · rw [withLineEnds_cons hfeed]
      have hline : b.isLineEnd = false := by
        simp [Byte.isLineEnd, hfeed, Ne.symm hb]
      simp only [afterJoin, hline]
      rfl

/-- The lexeme that a text begins with ends at the same place under other line ends. -/
theorem next_withLineEnds {b : Byte} {s : Bytes} (hb : b.isLineEnd = false)
    (h : Byte.carriageReturn ∉ s) :
    next b (withLineEnds e s) = (next b s).map (Prod.map id (withLineEnds e)) := by
  unfold next
  split
  · rw [dropWhile_withLineEnds rfl rfl]
    rfl
  rw [hb]
  split
  · contradiction
  split
  · rw [dropWhile_withLineEnds rfl rfl]
    rfl
  split
  · rw [afterJoin_withLineEnds h]
    cases afterJoin s <;> rfl
  · rw [afterToken_withLineEnds hb h]
    cases afterToken b s <;> rfl

end Lexeme

end SyntaxTree
