import SyntaxTree.Proofs.Grammar.Doubled

/-
# Doubled braces between quotes

A walk over a string and one over the f-string with doubled braces reach the same closing quotes.  A
doubled brace is text to the second walk.  Where the name of a character begins it opens a field,
which the name itself closes.
-/

namespace SyntaxTree

open Literal Parse

/-! ## Names of characters -/

/-- A byte of the name of a character. -/
def Byte.isNameLetter (b : Byte) : Bool :=
  b.isLetter || b.isDigit || b == Byte.space || b == ascii '-'

namespace Unicode

theorem isNameLetter_of_toUpper {b : Byte} (h : b.toUpper.isNameLetter) : b.isNameLetter := by
  unfold Byte.toUpper at h
  split at h
  · next hlower => simp [Byte.isNameLetter, Byte.isLetter, hlower]
  · exact h

theorem isNameLetter_of_isNameByte {b : Byte} (h : isNameByte b) : b.isNameLetter := by
  simp only [isNameByte, Bool.or_eq_true] at h
  simp only [Byte.isNameLetter, Byte.isLetter, Bool.or_eq_true]
  tauto

/-- Standard names are spelled with letters, digits, spaces and hyphens. -/
theorem CharacterNames.AreStandard.isNameLetter {names : CharacterNames}
    (hnames : names.AreStandard) {name : Bytes} {code : Nat} (h : names.code? name = some code)
    (hnul : 0 ∉ name) :
    ∀ b ∈ name, b.isNameLetter := by
  have huntil : name.untilNul = name :=
    List.takeWhile_eq_self_iff.mpr fun b hb => decide_eq_true fun hzero => hnul (hzero ▸ hb)
  rw [code?, huntil] at h
  intro b hb
  exact isNameLetter_of_toUpper
    (isNameLetter_of_isNameByte (hnames h _ (List.mem_map_of_mem hb)))

theorem not_isLineEnd_of_isNameLetter {b : Byte} (h : b.isNameLetter) : b.isLineEnd = false := by
  have hfeed : b ≠ Byte.lineFeed := Byte.ne_of_class h rfl
  have hreturn : b ≠ Byte.carriageReturn := Byte.ne_of_class h rfl
  simp [Byte.isLineEnd, hfeed, hreturn]

theorem not_isQuote_of_isNameLetter {b : Byte} (h : b.isNameLetter) : b.isQuote = false := by
  have hdouble : b ≠ Byte.doubleQuote := Byte.ne_of_class h rfl
  have hsingle : b ≠ Byte.singleQuote := Byte.ne_of_class h rfl
  simp [Byte.isQuote, hdouble, hsingle]

end Unicode

/-! ## Bodies with doubled braces -/

/-- A body and the same with doubled braces, as the walk over a literal takes them. -/
inductive IsDoubled : Bytes → Bytes → Prop where
  | nil : IsDoubled [] []
  | brace {b : Byte} {s s' : Bytes} (hb : FString.isBrace b) (hs : IsDoubled s s') :
    IsDoubled (b :: s) (b :: b :: s')
  | plain {b : Byte} {s s' : Bytes} (hback : b ≠ Byte.backslash) (hb : FString.isBrace b = false)
    (hs : IsDoubled s s') : IsDoubled (b :: s) (b :: s')
  | last : IsDoubled [Byte.backslash] [Byte.backslash]
  | lone {b : Byte} {s s' : Bytes} (hb : FString.isBrace b) (hs : IsDoubled s s') :
    IsDoubled (Byte.backslash :: b :: s) (Byte.backslash :: b :: b :: s')
  | pair {b : Byte} {s s' : Bytes} (hb : FString.isBrace b = false)
    (hline : ¬ (b = Byte.carriageReturn ∧ s.head? = some Byte.lineFeed)) (hs : IsDoubled s s') :
    IsDoubled (Byte.backslash :: b :: s) (Byte.backslash :: b :: s')
  | line {s s' : Bytes} (hs : IsDoubled s s') :
    IsDoubled (Byte.backslash :: Byte.carriageReturn :: Byte.lineFeed :: s)
      (Byte.backslash :: Byte.carriageReturn :: Byte.lineFeed :: s')
  | name {name s s' : Bytes} (hname : ∀ b ∈ name, b.isNameLetter) (hs : IsDoubled s s') :
    IsDoubled (Byte.backslash :: ascii 'N' :: Byte.openBrace :: (name ++ Byte.closeBrace :: s))
      (Byte.backslash :: ascii 'N' :: Byte.openBrace :: (name ++ Byte.closeBrace :: s'))

theorem Bytes.mem_unifyLineEnds {b : Byte} (hb : b.isLineEnd = false) {s : Bytes} :
    b ∈ unifyLineEnds s ↔ b ∈ s := by
  have hne {c : Byte} (hc : c.isLineEnd) : b ≠ c := by
    rintro rfl
    exact Bool.noConfusion (hb.symm.trans hc)
  fun_induction unifyLineEnds s with
  | case1 => rfl
  | case2 s _ ih => simpa [hne (c := Byte.carriageReturn) rfl] using ih
  | case3 s _ ih =>
    simpa [hne (c := Byte.carriageReturn) rfl, hne (c := Byte.lineFeed) rfl] using ih
  | case4 c s _ ih => simp [ih]

/-- A text without line ends in front of a unified text stands there as it is. -/
theorem Bytes.exists_of_unifyLineEnds_eq {front s t : Bytes}
    (hfront : ∀ b ∈ front, b.isLineEnd = false) (h : unifyLineEnds s = front ++ t) :
    ∃ rest, s = front ++ rest ∧ unifyLineEnds rest = t := by
  induction front generalizing s with
  | nil => exact ⟨s, rfl, h⟩
  | cons b front ih =>
    obtain ⟨hb, hfront⟩ := List.forall_mem_cons.mp hfront
    have hhead : s.head? = some b := by
      rw [← head?_unifyLineEnds hb, h]
      rfl
    obtain ⟨s, rfl⟩ := List.head?_eq_some_iff.mp hhead
    have hreturn : b ≠ Byte.carriageReturn := by
      rintro rfl
      cases hb
    rw [unifyLineEnds_cons hreturn] at h
    obtain ⟨rest, rfl, hrest⟩ := ih hfront (List.cons.inj h).2
    exact ⟨rest, rfl, hrest⟩

namespace Literal

variable {names : Unicode.CharacterNames} {b c : Byte} {s v : Bytes}

/-- Bodies whose escapes can be read. -/
def IsReadable (names : Unicode.CharacterNames) (s : Bytes) : Prop :=
  ∃ v, unescape names false s.unifyLineEnds = .ok v

theorem IsReadable.tail (hb : b ≠ Byte.backslash) (h : IsReadable names (b :: s)) :
    IsReadable names s := by
  obtain ⟨v, h⟩ := h
  by_cases hreturn : b = Byte.carriageReturn
  · rw [hreturn, Bytes.unifyLineEnds_return] at h
    split at h
    · exact ⟨v, h⟩
    · rw [unescape_cons (by decide)] at h
      obtain ⟨v, hv, -⟩ := exists_of_map_eq_ok h
      exact ⟨v, hv⟩
  · rw [Bytes.unifyLineEnds_cons hreturn, unescape_cons hb] at h
    obtain ⟨v, hv, -⟩ := exists_of_map_eq_ok h
    exact ⟨v, hv⟩

/-- Digits in front of escapes that can be read change nothing of that. -/
theorem exists_unescape_digits {digits : Bytes} (hdigits : ∀ b ∈ digits, b.isHexDigit)
    (h : unescape names false s = .ok v) : ∃ v', unescape names false (digits ++ s) = .ok v' := by
  induction digits with
  | nil => exact ⟨v, h⟩
  | cons b digits ih =>
    obtain ⟨hb, hdigits⟩ := List.forall_mem_cons.mp hdigits
    obtain ⟨v', hv'⟩ := ih hdigits
    refine ⟨b :: v', ?_⟩
    rw [List.cons_append, unescape_cons (not_special_of_isHexDigit hb).1, hv']
    rfl

/-- What stands behind the letter of an escape can be read as if it began there. -/
theorem exists_unescape_behind (hc : c ≠ ascii 'N')
    (h : unescape names false (Byte.backslash :: c :: s) = .ok v) :
    ∃ v', unescape names false s = .ok v' := by
  obtain ⟨value, rest, hread⟩ := exists_readEscape h
  obtain ⟨part, rfl, htaken, -⟩ := takesPart_readEscape hread
  rw [unescape_escape hread] at h
  obtain ⟨v', hv', -⟩ := exists_of_map_eq_ok h
  cases htaken with
  | digits _ hdigits => exact exists_unescape_digits hdigits hv'
  | name => exact absurd rfl hc

theorem IsReadable.escaped (h : IsReadable names (Byte.backslash :: c :: s)) (hc : c ≠ ascii 'N') :
    IsReadable names s := by
  obtain ⟨v, h⟩ := h
  rw [Bytes.unifyLineEnds_cons (by decide)] at h
  by_cases hreturn : c = Byte.carriageReturn
  · rw [hreturn, Bytes.unifyLineEnds_return] at h
    split at h
    · next hhead =>
      obtain ⟨s, rfl⟩ := List.head?_eq_some_iff.mp hhead
      rw [Bytes.unifyLineEnds_cons (by decide)] at h
      obtain ⟨v', hv'⟩ := exists_unescape_behind (by decide) h
      refine ⟨Byte.lineFeed :: v', ?_⟩
      rw [Bytes.unifyLineEnds_cons (by decide), unescape_cons (by decide), hv']
      rfl
    · exact exists_unescape_behind (by decide) h
  · rw [Bytes.unifyLineEnds_cons hreturn] at h
    exact exists_unescape_behind hc h

/-- No name of a character, which ends at the next closing brace, contains a NUL byte. -/
def NoNulInNames (s : Bytes) : Prop :=
  ∀ name rest : Bytes,
    Byte.backslash :: ascii 'N' :: Byte.openBrace :: (name ++ Byte.closeBrace :: rest) <:+ s →
      (∀ b ∈ name, b ≠ Byte.closeBrace) → 0 ∉ name

theorem NoNulInNames.of_suffix {t : Bytes} (h : NoNulInNames s) (ht : t <:+ s) : NoNulInNames t :=
  fun name rest hname => h name rest (hname.trans ht)

theorem noNulInNames_of_notMem (h : 0 ∉ s) : NoNulInNames s := by
  intro name rest hname _ hmem
  refine h (hname.mem ?_)
  exact List.mem_cons_of_mem _ (List.mem_cons_of_mem _ (List.mem_cons_of_mem _
    (List.mem_append_left _ hmem)))

/-- The line ends of a name may have been unified. -/
theorem notMem_of_noNulInNames {name rest : Bytes}
    (h : NoNulInNames (Byte.backslash :: ascii 'N' :: s)) (hclose : ∀ b ∈ name, b ≠ Byte.closeBrace)
    (hs : s.unifyLineEnds = Byte.openBrace :: (name ++ Byte.closeBrace :: rest)) : 0 ∉ name := by
  have hopen : s.head? = some Byte.openBrace := by
    rw [← Bytes.head?_unifyLineEnds rfl, hs]
    rfl
  obtain ⟨s, rfl⟩ := List.head?_eq_some_iff.mp hopen
  rw [Bytes.unifyLineEnds_cons (by decide)] at hs
  have hs := (List.cons.inj hs).2
  have hmem : Byte.closeBrace ∈ s := by
    rw [← Bytes.mem_unifyLineEnds rfl, hs]
    exact List.mem_append_right name List.mem_cons_self
  obtain ⟨name', rest', rfl, hfirst⟩ := List.eq_append_cons_of_mem hmem
  have hclose' : ∀ b ∈ name', b ≠ Byte.closeBrace := fun b hb heq => hfirst (heq ▸ hb)
  have hunified : ∀ b ∈ Bytes.unifyLineEnds name', b ≠ Byte.closeBrace := by
    rintro b hb rfl
    exact hfirst ((Bytes.mem_unifyLineEnds rfl).mp hb)
  have hsame : Bytes.unifyLineEnds name' = name := by
    rw [Bytes.unifyLineEnds_append_of_head name' (by simp +decide),
      Bytes.unifyLineEnds_cons (by decide)] at hs
    have hnames := congrArg (List.takeWhile (· ≠ Byte.closeBrace)) hs
    rwa [takeWhile_name hunified, takeWhile_name hclose] at hnames
  rw [← hsame, Bytes.mem_unifyLineEnds rfl]
  exact h name' rest' List.suffix_rfl hclose'

/-- Behind the letter of names stands a known one. -/
theorem IsReadable.name (hnames : names.AreStandard)
    (h : IsReadable names (Byte.backslash :: ascii 'N' :: s))
    (hnul : NoNulInNames (Byte.backslash :: ascii 'N' :: s)) :
    ∃ name rest, s = Byte.openBrace :: (name ++ Byte.closeBrace :: rest) ∧
      (∀ b ∈ name, b.isNameLetter) ∧ IsReadable names rest := by
  obtain ⟨v, h⟩ := h
  rw [Bytes.unifyLineEnds_cons (by decide), Bytes.unifyLineEnds_cons (by decide)] at h
  obtain ⟨value, rest, hread⟩ := exists_readEscape h
  obtain ⟨part, hpart, htaken, -⟩ := takesPart_readEscape hread
  rw [unescape_escape hread] at h
  obtain ⟨v', hv', -⟩ := exists_of_map_eq_ok h
  cases htaken with
  | digits hletter => exact absurd rfl hletter
  | @name name code hname hclose =>
    have hzero : 0 ∉ name := notMem_of_noNulInNames hnul hclose <| by
      rw [hpart, List.cons_append, List.append_assoc, List.singleton_append]
    have hletters := hnames.isNameLetter hname hzero
    have hline : ∀ b ∈ Byte.openBrace :: (name ++ [Byte.closeBrace]), b.isLineEnd = false :=
      List.forall_mem_cons.mpr ⟨rfl, List.forall_mem_append.mpr
        ⟨fun b hb => Unicode.not_isLineEnd_of_isNameLetter (hletters b hb),
          List.forall_mem_singleton.mpr rfl⟩⟩
    obtain ⟨rest', rfl, rfl⟩ := Bytes.exists_of_unifyLineEnds_eq hline hpart
    refine ⟨name, rest', ?_, hletters, v', hv'⟩
    rw [List.cons_append, List.append_assoc, List.singleton_append]

end Literal

namespace IsDoubled

variable {b c : Byte} {s s' : Bytes}

/-- An escaped byte may be a line end. -/
theorem escape (hc : FString.isBrace c = false) (hs : IsDoubled s s') :
    IsDoubled (Byte.backslash :: c :: s) (Byte.backslash :: c :: s') := by
  by_cases hline : c = Byte.carriageReturn ∧ s.head? = some Byte.lineFeed
  · obtain ⟨rfl, hhead⟩ := hline
    obtain ⟨s, rfl⟩ := List.head?_eq_some_iff.mp hhead
    cases hs with
    | brace hb _ => cases hb
    | plain _ _ hs => exact .line hs
  · exact .pair hc hline hs

/-- The braces of a raw body are doubled. -/
theorem raw (s : Bytes) : IsDoubled s (FString.doubleBraces true false s) := by
  -- The induction is on the length, for a backslash is taken together with the byte behind it.
  induction hlength : s.length using Nat.strong_induction_on generalizing s with
  | _ n ih =>
    cases s with
    | nil => exact .nil
    | cons b s =>
      have hs : IsDoubled s _ := ih s.length (hlength ▸ Nat.lt_succ_self _) s rfl
      cases hb : FString.isBrace b with
      | true =>
        rw [FString.doubleBraces_brace hb]
        exact .brace hb hs
      | false =>
        rw [FString.doubleBraces_ordinary (.inl rfl) hb]
        by_cases hback : b = Byte.backslash
        · subst hback
          cases s with
          | nil => exact .last
          | cons c s =>
            have hlt : s.length < n := by
              simp only [List.length_cons] at hlength
              omega
            have hs : IsDoubled s _ := ih s.length hlt s rfl
            cases hc : FString.isBrace c with
            | true =>
              rw [FString.doubleBraces_brace hc]
              exact .lone hc hs
            | false =>
              rw [FString.doubleBraces_ordinary (.inl rfl) hc]
              exact .escape hc hs
        · exact .plain hback hb hs

/-- The braces of a body whose escapes can be read are doubled, but for those around names. -/
theorem of_isReadable {names : Unicode.CharacterNames} (hnames : names.AreStandard)
    (h : IsReadable names s) (hnul : NoNulInNames s) :
    IsDoubled s (FString.doubleBraces false false s) := by
  -- An escape takes two bytes or a whole name at once, so the induction is on the length.
  induction hlength : s.length using Nat.strong_induction_on generalizing s with
  | _ n ih =>
    cases s with
    | nil => exact .nil
    | cons b s =>
      have hs := fun hback : b ≠ Byte.backslash => ih s.length (hlength ▸ Nat.lt_succ_self _)
        (h.tail hback) (hnul.of_suffix (List.suffix_cons b s)) rfl
      cases hb : FString.isBrace b with
      | true =>
        have hback : b ≠ Byte.backslash := by
          rintro rfl
          cases hb
        rw [FString.doubleBraces_brace hb]
        exact .brace hb (hs hback)
      | false =>
        by_cases hback : b = Byte.backslash
        · subst hback
          cases s with
          | nil => exact .last
          | cons c s =>
            by_cases hname : c = ascii 'N'
            · subst hname
              -- A name that is found has neither braces nor quotes in it, so its braces stay as
              -- they are up to the closing one.
              obtain ⟨name, rest, rfl, hname, hrest⟩ := h.name hnames hnul
              have hlt : rest.length < n := by
                simp only [List.length_cons, List.length_append] at hlength
                omega
              have hsuffix : rest <:+ Byte.backslash :: ascii 'N' ::
                  Byte.openBrace :: (name ++ Byte.closeBrace :: rest) :=
                ⟨Byte.backslash :: ascii 'N' :: Byte.openBrace :: (name ++ [Byte.closeBrace]),
                  by simp⟩
              have hclose : ∀ b ∈ Byte.openBrace :: name, b ≠ Byte.closeBrace :=
                List.forall_mem_cons.mpr
                  ⟨by decide, fun b hb => Byte.ne_of_class (hname b hb) rfl⟩
              have hdouble : FString.doubleBraces false true
                  (Byte.openBrace :: (name ++ Byte.closeBrace :: rest)) = _ :=
                FString.doubleBraces_inName hclose rest
              rw [FString.doubleBraces_name rfl, hdouble]
              exact .name hname (ih rest.length hlt hrest (hnul.of_suffix hsuffix) rfl)
            · have hlt : s.length < n := by
                simp only [List.length_cons] at hlength
                omega
              have hsuffix : s <:+ Byte.backslash :: c :: s :=
                (List.suffix_cons c s).trans (List.suffix_cons _ _)
              have hs := ih s.length hlt (h.escaped hname) (hnul.of_suffix hsuffix) rfl
              cases hc : FString.isBrace c with
              | true =>
                rw [FString.doubleBraces_lone hc, FString.doubleBraces_brace hc]
                exact .lone hc hs
              | false =>
                rw [FString.doubleBraces_escaped hc fun h => hname h.1]
                exact .escape hc hs
        · rw [FString.doubleBraces_ordinary (.inr hback) hb]
          exact .plain hback hb (hs hback)

/-- Doubling keeps the first byte. -/
theorem head?_eq (h : IsDoubled s s') : s'.head? = s.head? := by
  cases h <;> rfl

theorem exists_of_isQuote (h : IsDoubled s (b :: s')) (hb : b.isQuote) :
    ∃ t, s = b :: t ∧ IsDoubled t s' := by
  cases h with
  | brace hbrace _ =>
    simp only [FString.isBrace, Bool.or_eq_true, beq_iff_eq] at hbrace
    rcases hbrace with rfl | rfl <;> cases hb
  | plain _ _ hs => exact ⟨_, rfl, hs⟩
  | last | lone | pair | line | name => cases hb

/-- Two quotes stand in front of a doubled body only where they stood before. -/
theorem dropPrefix?_quotes (h : IsDoubled s s') (hb : b.isQuote) {t : Bytes}
    (hnone : Bytes.dropPrefix? [b, b] (s ++ t) = none) :
    Bytes.dropPrefix? [b, b] (s' ++ t) = none := by
  refine Option.eq_none_iff_forall_ne_some.mpr fun rest hrest => ?_
  have hsplit := Bytes.eq_append_of_dropPrefix? hrest
  have hsame : ∃ r, s ++ t = [b, b] ++ r := by
    cases s' with
    | nil =>
      cases h
      exact ⟨rest, hsplit⟩
    | cons c s' =>
      obtain ⟨rfl, hsplit⟩ := List.cons.inj hsplit
      obtain ⟨s, rfl, hs⟩ := h.exists_of_isQuote hb
      cases s' with
      | nil =>
        cases hs
        exact ⟨rest, congrArg _ hsplit⟩
      | cons c s' =>
        obtain ⟨rfl, hsplit⟩ := List.cons.inj hsplit
        obtain ⟨s, rfl, hs⟩ := hs.exists_of_isQuote hb
        exact ⟨s ++ t, rfl⟩
  obtain ⟨r, hr⟩ := hsame
  rw [hr, Bytes.dropPrefix?_append] at hnone
  cases hnone

end IsDoubled

/-! ## The walk to the closing quotes -/

namespace Delimiter

/-- The quotes of a delimiter. -/
def marks (d : Delimiter) : Bytes :=
  if d.triple then [d.quote, d.quote, d.quote] else [d.quote]

end Delimiter

namespace Frame

variable {f : Frame} {d : Delimiter} {b : Byte} {s : Bytes}

/-- The frame of a string or of the literal text of an f-string. -/
def IsBody (d : Delimiter) (f : Frame) : Prop := f = .plain d false ∨ f = .formatted d

/-- What stays in front of a byte of the body: a line end needs three quotes, and so does a quote,
which two more must not follow. -/
structure StaysIn (d : Delimiter) (b : Byte) (s : Bytes) : Prop where
  line : b.isLineEnd → d.triple
  quote : b = d.quote → d.triple ∧ Bytes.dropPrefix? [d.quote, d.quote] s = none

theorem step_of_isBody (hf : IsBody d f) (hback : b ≠ Byte.backslash)
    (hopen : f = .formatted d → b ≠ Byte.openBrace) :
    f.step b s = if b.isLineEnd && !d.triple then .error f.unterminated
      else if b = d.quote then .ok (f.close d s) else .ok ([f], s) := by
  rcases hf with rfl | rfl
  · rw [step, if_neg hback]
    rfl
  · rw [step, if_neg hback, if_neg (hopen rfl)]

/-- A body goes on behind such a byte. -/
theorem afterFrames_of_staysIn (hf : IsBody d f) (hback : b ≠ Byte.backslash)
    (hopen : f = .formatted d → b ≠ Byte.openBrace) (h : StaysIn d b s) (outer : List Frame) :
    afterFrames (f :: outer) (b :: s) = afterFrames (f :: outer) s := by
  have hstep : f.step b s = .ok ([f], s) := by
    have hline : ¬ (b.isLineEnd && !d.triple) := by
      simpa using h.line
    rw [step_of_isBody hf hback hopen, if_neg hline]
    split
    · next hquote =>
      obtain ⟨htriple, hnone⟩ := h.quote hquote
      rw [close, if_pos htriple, hnone]
    · rfl
  rw [afterFrames_cons, hstep]
  rfl

/-- A string that ends at its closing quotes goes on in front of them. -/
theorem staysIn_of_afterFrames (hback : b ≠ Byte.backslash)
    (h : afterFrames [.plain d false] (b :: (s ++ d.marks)) = .ok []) :
    StaysIn d b (s ++ d.marks) ∧ afterFrames [.plain d false] (s ++ d.marks) = .ok [] := by
  have hopen : Frame.plain d false = .formatted d → b ≠ Byte.openBrace := by rintro ⟨⟩
  have hnil {rest : Bytes} (hrest : afterFrames [] rest = .ok []) : rest = [] := by
    rw [afterFrames] at hrest
    exact Except.ok.inj hrest
  have hstays : StaysIn d b (s ++ d.marks) := by
    rw [afterFrames_cons, step_of_isBody (.inl rfl) hback hopen] at h
    split at h
    · cases h
    next hline =>
    refine ⟨by simpa using hline, fun hquote => ?_⟩
    rw [if_pos hquote, close] at h
    cases htriple : d.triple with
    | false =>
      rw [htriple] at h
      have hempty : s ++ d.marks = [] := hnil h
      rw [Delimiter.marks, htriple] at hempty
      exact absurd hempty (by simp)
    | true =>
      refine ⟨rfl, ?_⟩
      rw [htriple, if_pos rfl] at h
      cases hdrop : Bytes.dropPrefix? [d.quote, d.quote] (s ++ d.marks) with
      | none => rfl
      | some rest =>
        rw [hdrop] at h
        obtain rfl : rest = [] := hnil h
        have hlength := congrArg List.length (Bytes.eq_append_of_dropPrefix? hdrop)
        rw [Delimiter.marks, htriple, if_pos rfl] at hlength
        simp at hlength
  rw [afterFrames_of_staysIn (.inl rfl) hback hopen hstays] at h
  exact ⟨hstays, h⟩

/-- A body ends at its closing quotes. -/
theorem afterFrames_marks (hf : IsBody d f) (hquote : d.quote.isQuote) :
    afterFrames [f] d.marks = .ok [] := by
  obtain ⟨quote, triple⟩ := d
  rcases Byte.isQuote_iff.mp hquote with hq | hq <;> obtain rfl : quote = _ := hq <;>
    cases triple <;> rcases hf with rfl | rfl <;> rfl

/-- A byte that neither ends a line nor is a quote stays in the body. -/
theorem staysIn_of_ordinary (hquote : d.quote.isQuote) (hline : b.isLineEnd = false)
    (hb : b.isQuote = false) : StaysIn d b s where
  line hend := Bool.noConfusion (hline.symm.trans hend)
  quote heq := Bool.noConfusion (hb.symm.trans (heq ▸ hquote))

/-- Two braces are literal text. -/
theorem afterFrames_braces (hquote : d.quote.isQuote) (hb : FString.isBrace b) (outer : List Frame)
    (s : Bytes) : afterFrames (.formatted d :: outer) (b :: b :: s) =
      afterFrames (.formatted d :: outer) s := by
  simp only [FString.isBrace, Bool.or_eq_true, beq_iff_eq] at hb
  rcases hb with rfl | rfl
  · rw [afterFrames_cons, step_openBraces hquote]
    rfl
  · have hstays {s : Bytes} : StaysIn d Byte.closeBrace s := staysIn_of_ordinary hquote rfl rfl
    have hskip (s : Bytes) : afterFrames (.formatted d :: outer) (Byte.closeBrace :: s) = _ :=
      afterFrames_of_staysIn (.inr rfl) (by decide) (fun _ => by decide) hstays outer
    rw [hskip, hskip]

/-- A backslash at the end of a body keeps it open. -/
theorem afterFrames_backslash_marks (hquote : d.quote.isQuote) :
    afterFrames [.plain d false] (Byte.backslash :: d.marks) =
      .error (.unterminatedText d.triple) := by
  obtain ⟨quote, triple⟩ := d
  rcases Byte.isQuote_iff.mp hquote with hq | hq <;> obtain rfl : quote = _ := hq <;>
    cases triple <;> rfl

/-- What a backslash escapes is passed over, unless it is a brace of an f-string. -/
theorem afterFrames_escaped (hf : IsBody d f) (hb : f = .formatted d → FString.isBrace b = false)
    (outer : List Frame) (s : Bytes) :
    afterFrames (f :: outer) (Byte.backslash :: b :: s) =
      afterFrames (f :: outer) (escaped (b :: s)) := by
  have hstep : f.step Byte.backslash (b :: s) = .ok ([f], escaped (b :: s)) := by
    rcases hf with rfl | rfl
    · rw [step, if_pos rfl, if_neg (List.cons_ne_nil b s)]
    · have hbrace := hb rfl
      simp only [FString.isBrace, Bool.or_eq_false_iff, beq_eq_false_iff_ne] at hbrace
      have hhead : ¬ ((b :: s).head? = some Byte.openBrace ∨
          (b :: s).head? = some Byte.closeBrace) := by
        simpa using hbrace
      rw [step, if_pos rfl, if_neg (List.cons_ne_nil b s), if_neg hhead]
  rw [afterFrames_cons, hstep]
  rfl

/-- The literal text of an f-string goes on with a brace behind a backslash. -/
theorem afterFrames_lone (hb : FString.isBrace b) (outer : List Frame) (s : Bytes) :
    afterFrames (.formatted d :: outer) (Byte.backslash :: b :: s) =
      afterFrames (.formatted d :: outer) (b :: s) := by
  simp only [FString.isBrace, Bool.or_eq_true, beq_iff_eq] at hb
  have hhead : (b :: s).head? = some Byte.openBrace ∨ (b :: s).head? = some Byte.closeBrace := by
    simpa using hb
  rw [afterFrames_cons, step, if_pos rfl, if_neg (List.cons_ne_nil b s), if_pos hhead]
  rfl

/-- A field goes on behind a byte of the name of a character. -/
theorem exists_step_field (hb : b.isNameLetter) (d : Delimiter) (word s : Bytes) :
    ∃ word', (field d 0 word).step b s = .ok ([field d 0 word'], s) := by
  have hne {c : Byte} (hc : c.isNameLetter = false) : b ≠ c := Byte.ne_of_class hb hc
  have hquote : ¬ b.isQuote := Bool.eq_false_iff.mp (Unicode.not_isQuote_of_isNameLetter hb)
  have hopen : ¬ (b = ascii '(' ∨ b = ascii '[' ∨ b = Byte.openBrace) :=
    not_or.mpr ⟨hne rfl, not_or.mpr ⟨hne rfl, hne rfl⟩⟩
  have hclose : ¬ (b = ascii ')' ∨ b = ascii ']') := not_or.mpr ⟨hne rfl, hne rfl⟩
  have hcolon : ¬ (b = ascii ':' ∧ (0 : Nat) = 0) := fun h => hne rfl h.1
  refine ⟨if b.isLetter then word ++ [b] else [], ?_⟩
  rw [step, if_neg hquote, if_neg hopen, if_neg hclose, if_neg (hne rfl), if_neg hcolon]

variable {name : Bytes}

/-- The closing brace of a name ends the field that its opening brace began. -/
theorem afterFrames_field_name (hname : ∀ b ∈ name, b.isNameLetter) (d : Delimiter) (word : Bytes)
    (outer : List Frame) (s : Bytes) :
    afterFrames (.field d 0 word :: outer) (name ++ Byte.closeBrace :: s) =
      afterFrames outer s := by
  induction name generalizing word with
  | nil =>
    rw [List.nil_append, afterFrames_cons]
    rfl
  | cons b name ih =>
    obtain ⟨hb, hname⟩ := List.forall_mem_cons.mp hname
    obtain ⟨word', hstep⟩ := exists_step_field hb d word (name ++ Byte.closeBrace :: s)
    rw [List.cons_append, afterFrames_cons, hstep]
    exact ih hname word'

theorem afterFrames_formatted_name (hquote : d.quote.isQuote) (hname : ∀ b ∈ name, b.isNameLetter)
    (outer : List Frame) (s : Bytes) :
    afterFrames (.formatted d :: outer) (Byte.openBrace :: (name ++ Byte.closeBrace :: s)) =
      afterFrames (.formatted d :: outer) s := by
  obtain ⟨c, t, hsplit, hc⟩ : ∃ c t, name ++ Byte.closeBrace :: s = c :: t ∧
      c ≠ Byte.openBrace := by
    cases name with
    | nil => exact ⟨_, _, rfl, by decide⟩
    | cons b name => exact ⟨b, _, rfl, Byte.ne_of_class (hname b List.mem_cons_self) rfl⟩
  rw [afterFrames_cons, hsplit, step_openBrace hquote hc, ← hsplit]
  exact afterFrames_field_name hname _ [] _ s

/-- A string goes on behind the name of a character. -/
theorem afterFrames_plain_name (hquote : d.quote.isQuote) (hname : ∀ b ∈ name, b.isNameLetter)
    (s : Bytes) :
    afterFrames [.plain d false] (Byte.openBrace :: (name ++ Byte.closeBrace :: s)) =
      afterFrames [.plain d false] s := by
  have hskip {b : Byte} (hback : b ≠ Byte.backslash) (hline : b.isLineEnd = false)
      (hb : b.isQuote = false) (s : Bytes) :
      afterFrames [.plain d false] (b :: s) = afterFrames [.plain d false] s :=
    afterFrames_of_staysIn (.inl rfl) hback (by rintro ⟨⟩) (staysIn_of_ordinary hquote hline hb) []
  rw [hskip (by decide) rfl rfl]
  induction name with
  | nil => exact hskip (by decide) rfl rfl s
  | cons b name ih =>
    obtain ⟨hb, hname⟩ := List.forall_mem_cons.mp hname
    rw [List.cons_append, hskip (Byte.ne_of_class hb rfl)
      (Unicode.not_isLineEnd_of_isNameLetter hb) (Unicode.not_isQuote_of_isNameLetter hb)]
    exact ih hname

end Frame

theorem Delimiter.head?_marks (d : Delimiter) : d.marks.head? = some d.quote := by
  unfold marks
  split <;> rfl

/-- A byte that is escaped is no line feed behind a carriage return, wherever the body ends. -/
theorem escaped_append {d : Delimiter} (hquote : d.quote.isQuote) {b : Byte} {s : Bytes}
    (hline : ¬ (b = Byte.carriageReturn ∧ s.head? = some Byte.lineFeed)) :
    escaped (b :: (s ++ d.marks)) = s ++ d.marks := by
  refine if_neg fun h => hline ⟨h.1, ?_⟩
  have hhead := h.2
  rw [List.head?_append, d.head?_marks] at hhead
  cases hs : s.head? with
  | none =>
    rw [hs] at hhead
    have hfeed : d.quote = Byte.lineFeed := Option.some.inj hhead
    rw [hfeed] at hquote
    cases hquote
  | some c =>
    rw [hs] at hhead
    exact hhead

/-- If the walk over a string ends at its closing quotes, so does the walk over the f-string. -/
theorem IsDoubled.afterFrames_eq {d : Delimiter} {s s' : Bytes} (h : IsDoubled s s')
    (hquote : d.quote.isQuote) (hs : afterFrames [.plain d false] (s ++ d.marks) = .ok []) :
    afterFrames [.formatted d] (s' ++ d.marks) = .ok [] := by
  have hplain : Frame.IsBody d (.plain d false) := .inl rfl
  have hformatted : Frame.IsBody d (.formatted d) := .inr rfl
  -- Both walks stand in a body all the way; each case takes them over the same piece of text.
  induction h with
  | nil => exact Frame.afterFrames_marks hformatted hquote
  | @brace b s s' hb _ ih =>
    have hback : b ≠ Byte.backslash := by
      rintro rfl
      cases hb
    rw [List.cons_append, List.cons_append, Frame.afterFrames_braces hquote hb]
    exact ih (Frame.staysIn_of_afterFrames hback hs).2
  | @plain b s s' hback hb hdouble ih =>
    obtain ⟨hstays, hs⟩ := Frame.staysIn_of_afterFrames hback hs
    have hstays' : Frame.StaysIn d b (s' ++ d.marks) :=
      ⟨hstays.line, fun heq =>
        ⟨(hstays.quote heq).1, hdouble.dropPrefix?_quotes hquote (hstays.quote heq).2⟩⟩
    have hopen : b ≠ Byte.openBrace := by
      rintro rfl
      cases hb
    rw [List.cons_append, Frame.afterFrames_of_staysIn hformatted hback (fun _ => hopen) hstays']
    exact ih hs
  -- A backslash in front of the closing quotes would escape the first of them.
  | last => cases (Frame.afterFrames_backslash_marks hquote).symm.trans hs
  | @lone b s s' hb _ ih =>
    have hline : ¬ (b = Byte.carriageReturn ∧ s.head? = some Byte.lineFeed) := by
      rintro ⟨rfl, -⟩
      cases hb
    rw [List.cons_append, List.cons_append, Frame.afterFrames_escaped hplain (by rintro ⟨⟩),
      escaped_append hquote hline] at hs
    rw [List.cons_append, List.cons_append, List.cons_append, Frame.afterFrames_lone hb,
      Frame.afterFrames_braces hquote hb]
    exact ih hs
  | @pair b s s' hb hline hdouble ih =>
    have hline' : ¬ (b = Byte.carriageReturn ∧ s'.head? = some Byte.lineFeed) := by
      rwa [hdouble.head?_eq]
    rw [List.cons_append, List.cons_append, Frame.afterFrames_escaped hplain (by rintro ⟨⟩),
      escaped_append hquote hline] at hs
    rw [List.cons_append, List.cons_append, Frame.afterFrames_escaped hformatted fun _ => hb,
      escaped_append hquote hline']
    exact ih hs
  | line _ ih =>
    have hpair (s : Bytes) : escaped (Byte.carriageReturn :: Byte.lineFeed :: s) = s := rfl
    simp only [List.cons_append] at hs ⊢
    rw [Frame.afterFrames_escaped hplain (by rintro ⟨⟩), hpair] at hs
    rw [Frame.afterFrames_escaped hformatted fun _ => rfl, hpair]
    exact ih hs
  | name hname _ ih =>
    simp only [List.cons_append, List.append_assoc] at hs ⊢
    rw [Frame.afterFrames_escaped hplain (by rintro ⟨⟩), escaped_cons rfl,
      Frame.afterFrames_plain_name hquote hname] at hs
    rw [Frame.afterFrames_escaped hformatted fun _ => rfl, escaped_cons rfl,
      Frame.afterFrames_formatted_name hquote hname]
    exact ih hs

end SyntaxTree
