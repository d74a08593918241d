import SyntaxTree.Proofs.Grammar.FString

/-
# Literal text chunk by chunk

Literal text goes on up to a brace that belongs to no name of a character.  No pair of line ends and
no escape is parted there, so what stands in front of the brace and what begins with it denote
together what the whole denotes.
-/

namespace SyntaxTree

/-! ## Line ends -/

namespace Bytes

variable {s t : Bytes} {b : Byte}

/-- Line ends are unified by themselves in front of anything but a line feed. -/
theorem unifyLineEnds_append_of_head (s : Bytes) (ht : t.head? ≠ some Byte.lineFeed) :
    unifyLineEnds (s ++ t) = unifyLineEnds s ++ unifyLineEnds t := by
  induction s with
  | nil => rfl
  | cons b s ih =>
    have hhead : (s ++ t).head? = some Byte.lineFeed ↔ s.head? = some Byte.lineFeed := by
      cases s with
      | nil => simp [ht]
      | cons c s => rfl
    rw [List.cons_append, unifyLineEnds, unifyLineEnds, ih]
    simp only [hhead]
    split
    · split <;> rfl
    · rfl

theorem unifyLineEnds_cons (hb : b ≠ Byte.carriageReturn) (s : Bytes) :
    unifyLineEnds (b :: s) = b :: unifyLineEnds s := by
  rw [unifyLineEnds, if_neg hb]

/-- A pair is one line end, and a carriage return alone is one. -/
theorem unifyLineEnds_return (s : Bytes) :
    unifyLineEnds (Byte.carriageReturn :: s) =
      if s.head? = some Byte.lineFeed then unifyLineEnds s
      else Byte.lineFeed :: unifyLineEnds s := by
  rw [unifyLineEnds, if_pos rfl]

/-- A byte that ends no line stays at the front. -/
theorem head?_unifyLineEnds (hb : b.isLineEnd = false) :
    (unifyLineEnds s).head? = some b ↔ s.head? = some b := by
  cases s with
  | nil => rfl
  | cons c s =>
    by_cases hc : c = Byte.carriageReturn
    · subst hc
      have hne : Byte.carriageReturn ≠ b := by
        rintro rfl
        cases hb
      have hfeed : Byte.lineFeed ≠ b := by
        rintro rfl
        cases hb
      rw [unifyLineEnds_return]
      split
      · next hs =>
        obtain ⟨s, rfl⟩ := List.head?_eq_some_iff.mp hs
        rw [unifyLineEnds_cons (by decide)]
        simp [hne, hfeed]
      · simp [hne, hfeed]
    · rw [unifyLineEnds_cons hc]
      rfl

end Bytes

namespace FString

/-! ## Literal text -/

variable {isRaw : Bool} {b c : Byte} {s : Bytes}

/-- A brace ends literal text. -/
theorem literalEnd_brace (hb : isBrace b) : literalEnd isRaw false (b :: s) = b :: s := by
  cases s with
  | nil => rw [literalEnd, if_pos hb]
  | cons c s => rw [literalEnd, if_pos hb]

/-- A byte that is neither a brace nor begins an escape belongs to literal text. -/
theorem literalEnd_ordinary (hback : isRaw ∨ b ≠ Byte.backslash) (hb : isBrace b = false) :
    literalEnd isRaw false (b :: s) = literalEnd isRaw false s := by
  have hnot : ¬ (b = Byte.backslash ∧ !isRaw) := by
    rcases hback with rfl | hback
    · simp
    · exact fun h => hback h.1
  cases s with
  | nil => rw [literalEnd, literalEnd, hb, if_neg Bool.false_ne_true]
  | cons c s => rw [literalEnd, hb, if_neg Bool.false_ne_true, if_neg hnot]

/-- The name of a character belongs to literal text. -/
theorem literalEnd_name (hs : s.head? = some Byte.openBrace) :
    literalEnd false false (Byte.backslash :: ascii 'N' :: s) = literalEnd false true s := by
  have hbrace : ¬ isBrace Byte.backslash := by decide
  rw [literalEnd, if_neg hbrace, if_pos ⟨rfl, rfl⟩, if_pos ⟨rfl, hs⟩]

/-- A backslash in front of a brace ends literal text. -/
theorem literalEnd_lone (hc : isBrace c) :
    literalEnd false false (Byte.backslash :: c :: s) = c :: s := by
  have hbrace : ¬ isBrace Byte.backslash := by decide
  have hname : c ≠ ascii 'N' := by
    rintro rfl
    cases hc
  rw [literalEnd, if_neg hbrace, if_pos ⟨rfl, rfl⟩, if_neg fun h => hname h.1, if_pos hc]

/-- An escaped byte belongs to literal text. -/
theorem literalEnd_escaped (hc : isBrace c = false)
    (hname : ¬ (c = ascii 'N' ∧ s.head? = some Byte.openBrace)) :
    literalEnd false false (Byte.backslash :: c :: s) = literalEnd false false s := by
  have hbrace : ¬ isBrace Byte.backslash := by decide
  rw [literalEnd, if_neg hbrace, if_pos ⟨rfl, rfl⟩, if_neg hname, hc, if_neg Bool.false_ne_true]

theorem literalEnd_feed : literalEnd isRaw false (Byte.lineFeed :: s) = literalEnd isRaw false s :=
  literalEnd_ordinary (.inr (by decide)) rfl

theorem head?_literalEnd (inName : Bool) (s : Bytes) :
    ∀ b ∈ (literalEnd isRaw inName s).head?, isBrace b := by
  fun_induction literalEnd isRaw inName s with grind

/-- A byte of literal text may be a line end. -/
theorem literalEnd_unify_ordinary (hback : isRaw ∨ b ≠ Byte.backslash) (hb : isBrace b = false) :
    literalEnd isRaw false (Bytes.unifyLineEnds (b :: s)) =
      literalEnd isRaw false (Bytes.unifyLineEnds s) := by
  by_cases hreturn : b = Byte.carriageReturn
  · rw [hreturn, Bytes.unifyLineEnds_return]
    split
    · rfl
    · exact literalEnd_feed
  · rw [Bytes.unifyLineEnds_cons hreturn, literalEnd_ordinary hback hb]

/-- An escaped byte may be a line end. -/
theorem literalEnd_unify_escaped (hc : isBrace c = false)
    (hname : ¬ (c = ascii 'N' ∧ s.head? = some Byte.openBrace)) :
    literalEnd false false (Byte.backslash :: Bytes.unifyLineEnds (c :: s)) =
      literalEnd false false (Bytes.unifyLineEnds s) := by
  have hfeed (t : Bytes) : literalEnd false false (Byte.backslash :: Byte.lineFeed :: t) =
      literalEnd false false t := literalEnd_escaped rfl (by rintro ⟨⟨⟩, -⟩)
  by_cases hreturn : c = Byte.carriageReturn
  · rw [hreturn, Bytes.unifyLineEnds_return]
    split
    · next hs =>
      obtain ⟨s, rfl⟩ := List.head?_eq_some_iff.mp hs
      rw [Bytes.unifyLineEnds_cons (by decide), hfeed, literalEnd_feed]
    · rw [hfeed]
  · rw [Bytes.unifyLineEnds_cons hreturn, literalEnd_escaped hc]
    rwa [Bytes.head?_unifyLineEnds rfl]

/-- Literal text ends at the same brace once line ends are unified. -/
theorem literalEnd_unifyLineEnds (inName : Bool) (s : Bytes) :
    literalEnd isRaw inName s.unifyLineEnds = (literalEnd isRaw inName s).unifyLineEnds := by
  have hreturn {b : Byte} (hb : isBrace b) : b ≠ Byte.carriageReturn := by
    rintro rfl
    cases hb
  -- Along the recursion of `literalEnd`; a backslash takes the byte behind it, which may be the
  -- carriage return of a pair.
  fun_induction literalEnd isRaw inName s with
  | case1 inName => cases inName <;> rfl
  | case2 b s ih =>
    by_cases hb : b = Byte.carriageReturn
    · subst hb
      rw [Bytes.unifyLineEnds_return]
      split <;> exact ih
    · rw [Bytes.unifyLineEnds_cons hb]
      exact ih
  | case3 b hb =>
    rw [Bytes.unifyLineEnds_cons (hreturn hb)]
    exact literalEnd_brace hb
  | case4 b hb =>
    by_cases hend : b = Byte.carriageReturn
    · subst hend
      exact literalEnd_feed
    · rw [Bytes.unifyLineEnds_cons hend]
      exact if_neg hb
  | case5 b c s hb =>
    rw [Bytes.unifyLineEnds_cons (hreturn hb)]
    exact literalEnd_brace hb
  | case6 b c s hb hback hname ih =>
    obtain ⟨rfl, hraw⟩ := hback
    obtain ⟨rfl, hs⟩ := hname
    obtain rfl : isRaw = false := by simpa using hraw
    rw [Bytes.unifyLineEnds_cons (by decide), Bytes.unifyLineEnds_cons (by decide),
      literalEnd_name ((Bytes.head?_unifyLineEnds rfl).mpr hs)]
    exact ih
  | case7 b c s hb hback hname hc =>
    obtain ⟨rfl, hraw⟩ := hback
    obtain rfl : isRaw = false := by simpa using hraw
    rw [Bytes.unifyLineEnds_cons (by decide), Bytes.unifyLineEnds_cons (hreturn hc)]
    exact literalEnd_lone hc
  | case8 b c s hb hback hname hc ih =>
    obtain ⟨rfl, hraw⟩ := hback
    obtain rfl : isRaw = false := by simpa using hraw
    rw [Bytes.unifyLineEnds_cons (by decide),
      literalEnd_unify_escaped (Bool.eq_false_iff.mpr hc) hname]
    exact ih
  | case9 b c s hb hback ih =>
    refine (literalEnd_unify_ordinary ?_ (Bool.eq_false_iff.mpr hb)).trans ih
    by_cases hraw : isRaw
    · exact .inl hraw
    · exact .inr fun h => hback ⟨h, by simpa using hraw⟩

end FString

namespace Literal

/-! ## What an escape takes -/

/-- What stands between the letter of an escape and the text behind it: digits, or the name of a
character in braces. -/
inductive IsTaken (names : Unicode.CharacterNames) : (letter : Byte) → Bytes → Prop where
  | digits {letter : Byte} {digits : Bytes} (hletter : letter ≠ ascii 'N')
    (hdigits : ∀ b ∈ digits, b.isHexDigit) : IsTaken names letter digits
  | name {name : Bytes} {code : Nat} (hname : names.code? name = some code)
    (hclose : ∀ b ∈ name, b ≠ Byte.closeBrace) :
    IsTaken names (ascii 'N') (Byte.openBrace :: (name ++ [Byte.closeBrace]))

/-- A reading takes a part of a text, and reads the same in front of any other text that is empty or
begins with the same byte. -/
def TakesPart (read : Bytes → Except EscapeCause (Bytes × Bytes)) (isPart : Bytes → Prop)
    (s value rest : Bytes) : Prop :=
  ∃ part, s = part ++ rest ∧ isPart part ∧
    ∀ t : Bytes, (∀ b ∈ t.head?, rest.head? = some b) → read (part ++ t) = .ok (value, t)

variable {names : Unicode.CharacterNames} {letter : Byte} {s value rest : Bytes}

theorem TakesPart.nil {read : Bytes → Except EscapeCause (Bytes × Bytes)}
    (h : ∀ t, read t = .ok (value, t)) (hletter : letter ≠ ascii 'N') :
    TakesPart read (IsTaken names letter) s value s :=
  ⟨[], rfl, .digits hletter (List.forall_mem_nil _), fun t _ => h t⟩

theorem TakesPart.digits {read : Bytes → Except EscapeCause (Bytes × Bytes)}
    (h : TakesPart read (fun part => ∀ b ∈ part, b.isHexDigit) s value rest)
    (hletter : letter ≠ ascii 'N') : TakesPart read (IsTaken names letter) s value rest := by
  obtain ⟨part, hs, hpart, hread⟩ := h
  exact ⟨part, hs, .digits hletter hpart, hread⟩

theorem hexDigits?_take_append {count code : Nat} (h : hexDigits? count s = some code) (t : Bytes) :
    hexDigits? count (s.take count ++ t) = some code ∧ (s.take count ++ t).drop count = t ∧
      ∀ b ∈ s.take count, b.isHexDigit := by
  unfold hexDigits? at h ⊢
  dsimp only at h ⊢
  split at h
  · next hdigits =>
    obtain ⟨hlength, hall⟩ := hdigits
    rw [List.take_left' hlength, List.drop_left' hlength, if_pos ⟨hlength, hall⟩]
    exact ⟨h, rfl, List.all_eq_true.mp hall⟩
  · cases h

theorem takesPart_readHex (h : readHex false s = .ok (value, rest)) :
    TakesPart (readHex false) (fun part => ∀ b ∈ part, b.isHexDigit) s value rest := by
  unfold readHex at h
  split at h
  · cases h
  · next code hcode =>
    obtain ⟨rfl, rfl⟩ := Prod.mk.inj (Except.ok.inj h)
    refine ⟨s.take 2, (List.take_append_drop 2 s).symm, (hexDigits?_take_append hcode []).2.2,
      fun t _ => ?_⟩
    obtain ⟨hread, hdrop, -⟩ := hexDigits?_take_append hcode t
    rw [readHex, hread, hdrop]

theorem takesPart_readCode {count : Nat} {truncated : EscapeCause}
    (h : readCode count truncated s = .ok (value, rest)) :
    TakesPart (readCode count truncated) (fun part => ∀ b ∈ part, b.isHexDigit) s value rest := by
  unfold readCode at h
  split at h
  · cases h
  next code hcode =>
  split at h
  · cases h
  next hlegal =>
  obtain ⟨rfl, rfl⟩ := Prod.mk.inj (Except.ok.inj h)
  refine ⟨s.take count, (List.take_append_drop count s).symm,
    (hexDigits?_take_append hcode []).2.2, fun t _ => ?_⟩
  obtain ⟨hread, hdrop, -⟩ := hexDigits?_take_append hcode t
  rw [readCode, hread, hdrop]
  exact if_neg hlegal

theorem isHexDigit_of_isOctalDigit {b : Byte} (h : isOctalDigit b) : b.isHexDigit := by
  simp only [isOctalDigit, NumberBase.isDigit, Bool.and_eq_true, decide_eq_true_eq] at h
  simp only [Byte.isHexDigit, Byte.isDigit, Bool.or_eq_true, Bool.and_eq_true, decide_eq_true_eq]
  have hseven : ascii '7' ≤ (57 : Byte) := by decide
  exact .inl (.inl ⟨h.1, UInt8.le_trans h.2 hseven⟩)

/-- An octal escape takes two digits more, or ends in front of another byte. -/
theorem takeWhile_octal_eq_iff {more : Bytes} (hlength : more.length ≤ 2)
    (hmore : ∀ b ∈ more, isOctalDigit b) {t : Bytes} :
    ((more ++ t).take 2).takeWhile isOctalDigit = more ↔
      ∀ b ∈ (t.take (2 - more.length)).head?, isOctalDigit b = false := by
  rw [List.take_append, List.take_of_length_le hlength, List.takeWhile_append_of_pos hmore,
    List.append_right_eq_self]
  cases t.take (2 - more.length) with
  | nil => simp
  | cons b t => simp [List.takeWhile_cons]

theorem takesPart_readOctal {digit : Byte} (h : readOctal false digit s = .ok (value, rest)) :
    TakesPart (readOctal false digit) (fun part => ∀ b ∈ part, b.isHexDigit) s value rest := by
  obtain ⟨rfl, rfl⟩ := Prod.mk.inj (Except.ok.inj h)
  have hlength : ((s.take 2).takeWhile isOctalDigit).length ≤ 2 :=
    (List.takeWhile_prefix _).length_le.trans (List.length_take_le 2 s)
  have hmore : ∀ b ∈ (s.take 2).takeWhile isOctalDigit, isOctalDigit b :=
    fun b hb => List.mem_takeWhile_imp hb
  obtain ⟨rest, hrest⟩ : (s.take 2).takeWhile isOctalDigit <+: s :=
    (List.takeWhile_prefix _).trans (List.take_prefix 2 s)
  generalize hdigits : (s.take 2).takeWhile isOctalDigit = more at *
  subst hrest
  have hstop := (takeWhile_octal_eq_iff hlength hmore).mp hdigits
  refine ⟨more, by rw [List.drop_left], fun b hb => isHexDigit_of_isOctalDigit (hmore b hb),
    fun t ht => ?_⟩
  rw [List.drop_left] at ht
  have hagain : ((more ++ t).take 2).takeWhile isOctalDigit = more := by
    refine (takeWhile_octal_eq_iff hlength hmore).mpr fun b hb => hstop b ?_
    rw [List.head?_take] at hb ⊢
    split at hb
    · cases hb
    · next hzero => rw [if_neg hzero]; exact ht b hb
  rw [readOctal, hagain, List.drop_left]
  rfl

/-- A name goes on up to the first closing brace. -/
theorem takeWhile_name {name : Bytes} (hclose : ∀ b ∈ name, b ≠ Byte.closeBrace) (t : Bytes) :
    (name ++ Byte.closeBrace :: t).takeWhile (· ≠ Byte.closeBrace) = name := by
  rw [List.takeWhile_append_of_pos (by simpa using hclose), List.takeWhile_cons_of_neg (by simp),
    List.append_nil]

/-- A name that is known is read up to its closing brace. -/
theorem readName_append {name : Bytes} {code : Nat} (hname : names.code? name = some code)
    (hclose : ∀ b ∈ name, b ≠ Byte.closeBrace) (t : Bytes) :
    readName names (Byte.openBrace :: (name ++ Byte.closeBrace :: t)) =
      .ok (Utf8.encode code, t) := by
  rw [readName, takeWhile_name hclose, List.drop_left]
  dsimp only
  rw [if_pos rfl, hname]

theorem takesPart_readName (h : readName names s = .ok (value, rest)) :
    TakesPart (readName names) (IsTaken names (ascii 'N')) s value rest := by
  unfold readName at h
  split at h
  · cases h
  next b s =>
  have hclose : ∀ b ∈ s.takeWhile (· ≠ Byte.closeBrace), b ≠ Byte.closeBrace :=
    fun b hb => by simpa using List.mem_takeWhile_imp hb
  obtain ⟨tail, hs⟩ : s.takeWhile (· ≠ Byte.closeBrace) <+: s := List.takeWhile_prefix _
  have hstop : ∀ b ∈ tail.head?, b = Byte.closeBrace := by
    intro b hb
    obtain ⟨tail, rfl⟩ := List.head?_eq_some_iff.mp hb
    by_contra hne
    have hmore := congrArg (List.takeWhile (· ≠ Byte.closeBrace)) hs
    rw [List.takeWhile_append_of_pos (by simpa using hclose),
      List.takeWhile_cons_of_pos (by simpa using hne)] at hmore
    exact List.cons_ne_nil _ _ (List.append_right_eq_self.mp hmore)
  generalize s.takeWhile (· ≠ Byte.closeBrace) = name at *
  subst hs
  dsimp only at h
  rw [List.drop_left] at h
  split at h
  · cases h
  next c tail =>
  split at h
  next hopen =>
    split at h
    · cases h
    next code hcode =>
    obtain ⟨rfl, rfl⟩ := Prod.mk.inj (Except.ok.inj h)
    obtain rfl := hstop c rfl
    refine ⟨_, ?_, .name hcode hclose, fun t _ => ?_⟩
    · rw [hopen, List.cons_append, List.append_assoc, List.singleton_append]
    · rw [List.cons_append, List.append_assoc, List.singleton_append,
        readName_append hcode hclose]
  · cases h

/-- An escape takes digits or a name. -/
theorem takesPart_readEscape (h : readEscape names false letter s = .ok (value, rest)) :
    TakesPart (readEscape names false letter) (IsTaken names letter) s value rest := by
  by_cases hfeed : letter = Byte.lineFeed
  · have hread : ∀ t, readEscape names false letter t = .ok ([], t) :=
      fun t => by rw [readEscape, if_pos hfeed]
    obtain ⟨rfl, rfl⟩ := Prod.mk.inj (Except.ok.inj ((hread s).symm.trans h))
    exact .nil hread (by rw [hfeed]; decide)
  cases hsimple : simpleEscape? letter with
  | some b =>
    have hread : ∀ t, readEscape names false letter t = .ok ([b], t) :=
      fun t => by rw [readEscape, if_neg hfeed, hsimple]
    have hletter : letter ≠ ascii 'N' := by
      rintro rfl
      cases hsimple
    obtain ⟨rfl, rfl⟩ := Prod.mk.inj (Except.ok.inj ((hread s).symm.trans h))
    exact .nil hread hletter
  | none =>
    -- The choice between digits and a name depends on the letter alone, not on the text behind it.
    have hread : readEscape names false letter = fun t =>
        if isOctalDigit letter then readOctal false letter t
        else if letter = ascii 'x' then readHex false t
        else if letter = ascii 'u' then readCode 4 .truncatedShort t
        else if letter = ascii 'U' then readCode 8 .truncatedLong t
        else if letter = ascii 'N' then readName names t
        else .ok ([Byte.backslash, letter], t) := by
      funext t
      rw [readEscape, if_neg hfeed, hsimple]
      simp only [Bool.not_false, and_true]
    rw [hread] at h ⊢
    by_cases hoctal : isOctalDigit letter
    · simp only [if_pos hoctal] at h ⊢
      exact (takesPart_readOctal h).digits (by rintro rfl; cases hoctal)
    by_cases hx : letter = ascii 'x'
    · simp only [if_neg hoctal, if_pos hx] at h ⊢
      exact (takesPart_readHex h).digits (by rw [hx]; decide)
    by_cases hu : letter = ascii 'u'
    · simp only [if_neg hoctal, if_neg hx, if_pos hu] at h ⊢
      exact (takesPart_readCode h).digits (by rw [hu]; decide)
    by_cases hU : letter = ascii 'U'
    · simp only [if_neg hoctal, if_neg hx, if_neg hu, if_pos hU] at h ⊢
      exact (takesPart_readCode h).digits (by rw [hU]; decide)
    by_cases hN : letter = ascii 'N'
    · simp only [if_neg hoctal, if_neg hx, if_neg hu, if_neg hU, if_pos hN] at h ⊢
      exact hN ▸ takesPart_readName h
    · simp only [if_neg hoctal, if_neg hx, if_neg hu, if_neg hU, if_neg hN] at h ⊢
      obtain ⟨rfl, rfl⟩ := Prod.mk.inj (Except.ok.inj h)
      exact .nil (fun _ => rfl) hN

/-! ## Reading escapes in two parts -/

variable {b : Byte}

theorem not_special_of_isHexDigit (h : b.isHexDigit) :
    b ≠ Byte.backslash ∧ FString.isBrace b = false := by
  have hnot {c : Byte} (hc : c.isHexDigit = false) : b ≠ c := by
    rintro rfl
    cases hc.symm.trans h
  refine ⟨hnot rfl, ?_⟩
  simp only [FString.isBrace, Bool.or_eq_false_iff, beq_eq_false_iff_ne]
  exact ⟨hnot rfl, hnot rfl⟩

theorem unescape_cons {isBytes : Bool} (hb : b ≠ Byte.backslash) (s : Bytes) :
    unescape names isBytes (b :: s) = (unescape names isBytes s).map (b :: ·) := by
  have hplain : Encodes isBytes (fun _ => true) [b] [b] := .plain hb rfl
  exact hplain.unescape names s

theorem unescape_escape {isBytes : Bool}
    (h : readEscape names isBytes letter s = .ok (value, rest)) :
    unescape names isBytes (Byte.backslash :: letter :: s) =
      (unescape names isBytes rest).map (value ++ ·) := by
  rw [unescape, if_pos rfl]
  split
  · next herror => cases h.symm.trans herror
  · next hok =>
    obtain ⟨rfl, rfl⟩ := Prod.mk.inj (Except.ok.inj (h.symm.trans hok))
    rfl

theorem exists_readEscape {v : Bytes}
    (h : unescape names false (Byte.backslash :: letter :: s) = .ok v) :
    ∃ value rest, readEscape names false letter s = .ok (value, rest) := by
  rw [unescape, if_pos rfl] at h
  split at h
  · cases h
  · next hok => exact ⟨_, _, hok⟩

/-- The name of a character is literal text up to its closing brace. -/
theorem literalEnd_inName {isRaw : Bool} {name : Bytes} (hclose : ∀ b ∈ name, b ≠ Byte.closeBrace)
    (t : Bytes) : FString.literalEnd isRaw true (name ++ Byte.closeBrace :: t) =
      FString.literalEnd isRaw false t := by
  induction name with
  | nil => rfl
  | cons b name ih =>
    obtain ⟨hb, hname⟩ := List.forall_mem_cons.mp hclose
    have hdecide : decide (b ≠ Byte.closeBrace) = true := decide_eq_true hb
    rw [List.cons_append, FString.literalEnd, hdecide, ih hname]

/-- An escape is literal text. -/
theorem IsTaken.literalEnd_eq {taken : Bytes} (h : IsTaken names letter taken)
    (hletter : FString.isBrace letter = false) (t : Bytes) :
    FString.literalEnd false false (Byte.backslash :: letter :: (taken ++ t)) =
      FString.literalEnd false false t := by
  cases h with
  | digits hN hdigits =>
    have hescaped : IsEscaped Byte.isHexDigit taken :=
      .of_forall fun b hb => ⟨(not_special_of_isHexDigit (hdigits b hb)).1, hdigits b hb⟩
    rw [FString.literalEnd_escaped hletter fun hname => hN hname.1,
      FString.literalEnd_append (fun b hb => (not_special_of_isHexDigit hb).2) hescaped]
  | name hname hclose =>
    rw [FString.literalEnd_name rfl, List.cons_append, List.append_assoc, List.singleton_append]
    exact literalEnd_inName hclose t

/-- A brace is no escape, and the backslash in front of it stands for itself. -/
theorem readEscape_brace {isBytes : Bool} (hb : FString.isBrace b) (s : Bytes) :
    readEscape names isBytes b s = .ok ([Byte.backslash, b], s) := by
  simp only [FString.isBrace, Bool.or_eq_true, beq_iff_eq] at hb
  rcases hb with rfl | rfl <;> rfl

/-- A backslash in front of a brace, or of nothing, stands for itself. -/
theorem exists_of_unescape_lone {v : Bytes} (hs : ∀ b ∈ s.head?, FString.isBrace b)
    (h : unescape names false (Byte.backslash :: s) = .ok v) :
    ∃ behind, unescape names false s = .ok behind ∧ v = Byte.backslash :: behind := by
  cases s with
  | nil =>
    rw [unescape] at h
    exact ⟨[], by rw [unescape], (Except.ok.inj h).symm⟩
  | cons b s =>
    have hb := hs b rfl
    have hback : b ≠ Byte.backslash := by
      rintro rfl
      cases hb
    rw [unescape_escape (readEscape_brace hb s)] at h
    obtain ⟨behind, hbehind, rfl⟩ := exists_of_map_eq_ok h
    refine ⟨b :: behind, ?_, rfl⟩
    rw [unescape_cons hback, hbehind]
    rfl

/-- An escape in front of the end of literal text takes nothing of what follows that. -/
theorem exists_of_readEscape_append {u r : Bytes} (hletter : FString.isBrace letter = false)
    (hend : FString.literalEnd false false (Byte.backslash :: letter :: (u ++ rest)) = rest)
    (h : readEscape names false letter (u ++ rest) = .ok (value, r)) :
    ∃ w, r = w ++ rest ∧ w.length ≤ u.length ∧ readEscape names false letter u = .ok (value, w) ∧
      FString.literalEnd false false (w ++ rest) = rest := by
  obtain ⟨part, hpart, htaken, hagain⟩ := takesPart_readEscape h
  rw [hpart, htaken.literalEnd_eq hletter] at hend
  obtain ⟨w, rfl⟩ : rest <:+ r := hend ▸ FString.suffix_of_literalEnd false false r
  obtain rfl : u = part ++ w := by
    rw [← List.append_assoc] at hpart
    exact List.append_cancel_right hpart
  refine ⟨w, rfl, (List.suffix_append part w).length_le, hagain w fun b hb => ?_, hend⟩
  rw [List.head?_append, Option.mem_def.mp hb]
  rfl

/-- Where literal text ends, escapes are read in two parts. -/
theorem exists_of_unescape_append {u rest v : Bytes}
    (hend : FString.literalEnd false false (u ++ rest) = rest)
    (h : unescape names false (u ++ rest) = .ok v) :
    ∃ front behind, unescape names false u = .ok front ∧ unescape names false rest = .ok behind ∧
      v = front ++ behind := by
  have hbrace : ∀ b ∈ rest.head?, FString.isBrace b := by
    rw [← hend]
    exact FString.head?_literalEnd false (u ++ rest)
  have hnot {b : Byte} {t : Bytes} (h : b :: (t ++ rest) = rest) : False := by
    have hlength := congrArg List.length h
    rw [List.length_cons, List.length_append] at hlength
    omega
  -- The induction is on the length, for an escape may take more than one byte.
  induction hlength : u.length using Nat.strong_induction_on generalizing u v with
  | _ n ih =>
    cases u with
    | nil => exact ⟨[], v, by rw [unescape], h, rfl⟩
    | cons b u =>
      rw [List.cons_append] at hend h
      by_cases hb : b = Byte.backslash
      · subst hb
        cases u with
        | nil =>
          obtain ⟨behind, hbehind, rfl⟩ := exists_of_unescape_lone hbrace h
          exact ⟨[Byte.backslash], behind, by rw [unescape], hbehind, rfl⟩
        | cons letter u =>
          rw [List.cons_append] at hend h
          have hletter : FString.isBrace letter = false := by
            refine Bool.eq_false_iff.mpr fun hletter => ?_
            rw [FString.literalEnd_lone hletter] at hend
            exact hnot hend
          obtain ⟨value, r, hread⟩ := exists_readEscape h
          obtain ⟨w, rfl, hle, hw, hend⟩ := exists_of_readEscape_append hletter hend hread
          rw [unescape_escape hread] at h
          obtain ⟨v, hv, rfl⟩ := exists_of_map_eq_ok h
          have hlt : w.length < n := by
            simp only [List.length_cons] at hlength
            omega
          obtain ⟨front, behind, hfront, hbehind, rfl⟩ := ih _ hlt hend hv rfl
          refine ⟨value ++ front, behind, ?_, hbehind, (List.append_assoc ..).symm⟩
          rw [unescape_escape hw, hfront]
          rfl
      · have hordinary : FString.isBrace b = false := by
          refine Bool.eq_false_iff.mpr fun hb => ?_
          rw [FString.literalEnd_brace hb] at hend
          exact hnot hend
        rw [FString.literalEnd_ordinary (.inr hb) hordinary] at hend
        rw [unescape_cons hb] at h
        obtain ⟨v, hv, rfl⟩ := exists_of_map_eq_ok h
        obtain ⟨front, behind, hfront, hbehind, rfl⟩ :=
          ih u.length (hlength ▸ Nat.lt_succ_self _) hend hv rfl
        refine ⟨b :: front, behind, ?_, hbehind, rfl⟩
        rw [unescape_cons hb, hfront]
        rfl

/-! ## The value of a body -/

/-- What the body of a string denotes. -/
def valueOf (names : Unicode.CharacterNames) (isRaw : Bool) (body : Bytes) :
    Except EscapeCause Bytes :=
  if isRaw then .ok body.unifyLineEnds else unescape names false body.unifyLineEnds

theorem valueOf_nil (isRaw : Bool) : valueOf names isRaw [] = .ok [] := by
  cases isRaw with
  | true => rfl
  | false =>
    rw [valueOf, if_neg Bool.false_ne_true, Bytes.unifyLineEnds, unescape]

/-- A brace stands for itself. -/
theorem valueOf_brace (isRaw : Bool) (hb : FString.isBrace b) (s : Bytes) :
    valueOf names isRaw (b :: s) = (valueOf names isRaw s).map (b :: ·) := by
  have hreturn : b ≠ Byte.carriageReturn := by
    rintro rfl
    cases hb
  have hback : b ≠ Byte.backslash := by
    rintro rfl
    cases hb
  rw [valueOf, valueOf, Bytes.unifyLineEnds_cons hreturn]
  split
  · rfl
  · exact unescape_cons hback _

/-- The body of a string denotes what its literal text denotes, and what follows that. -/
theorem exists_of_valueOf_append {isRaw : Bool} {u rest v : Bytes}
    (hend : FString.literalEnd isRaw false (u ++ rest) = rest)
    (h : valueOf names isRaw (u ++ rest) = .ok v) :
    ∃ front behind, valueOf names isRaw u = .ok front ∧ valueOf names isRaw rest = .ok behind ∧
      v = front ++ behind := by
  have hhead : rest.head? ≠ some Byte.lineFeed := by
    intro hfeed
    have hbrace : ∀ b ∈ rest.head?, FString.isBrace b := by
      rw [← hend]
      exact FString.head?_literalEnd false (u ++ rest)
    cases hbrace _ hfeed
  have hunified : FString.literalEnd isRaw false (u ++ rest).unifyLineEnds = _ :=
    FString.literalEnd_unifyLineEnds false (u ++ rest)
  rw [hend, Bytes.unifyLineEnds_append_of_head u hhead] at hunified
  rw [valueOf, Bytes.unifyLineEnds_append_of_head u hhead] at h
  cases isRaw with
  | true => exact ⟨_, _, rfl, rfl, (Except.ok.inj h).symm⟩
  | false => exact exists_of_unescape_append hunified h

end Literal

end SyntaxTree
