import Mathlib.Data.List.DropRight
import SyntaxTree.Proofs.Grammar.Enclosed

/-
# The extent of what is scanned

A literal, a replacement field and a format specification are scanned from an index of the source
on.  Such a scan fails for a cause of literals, or it stops further on in the source, behind the
bytes that close what it has scanned.  What is nested is scanned in the same way, and the scan
around it goes on where that has stopped.
-/

namespace SyntaxTree

open Bytes

/-! ## Stacks of frames -/

/-- The inner frames are closed first, and what follows them is left to the outer ones. -/
theorem afterFrames_append (inner outer : List Frame) (s : Bytes) :
    afterFrames (inner ++ outer) s = (afterFrames inner s).bind (afterFrames outer) := by
  induction hlength : s.length using Nat.strong_induction_on generalizing inner s with
  | _ n ih =>
    cases inner with
    | nil => simp [afterFrames, Except.bind]
    | cons f inner =>
      cases s with
      | nil => simp [afterFrames, Except.bind]
      | cons b s =>
        rw [List.cons_append, afterFrames_cons, afterFrames_cons]
        cases hstep : f.step b s with
        | error cause => rfl
        | ok result =>
          obtain ⟨frames, rest⟩ := result
          have hle := (Frame.suffix_of_step hstep).length_le
          have hlt : rest.length < n := by
            simp only [List.length_cons] at hlength
            omega
          have hrest := ih rest.length hlt (frames ++ inner) rest rfl
          rw [List.append_assoc] at hrest
          exact hrest

/-- The causes for which the scan of a literal fails: the source ends within it, or it holds a byte
that it may not hold. -/
def LexicalCause.IsOfText (cause : LexicalCause) : Prop :=
  cause.category = .unterminatedLiteral ∨ cause = .nonAsciiBytes

namespace Frame

variable {f : Frame} {d : Delimiter} {b : Byte} {s rest : Bytes} {frames : List Frame}
  {cause : LexicalCause}

/-! ## Single steps -/

/-- The bytes that close a construct. -/
def marks : Frame → Bytes
  | plain d _ | formatted d => d.marks
  | field .. | spec .. => [Byte.closeBrace]

theorem isOfText_unterminated (f : Frame) : f.unterminated.IsOfText := by
  cases f <;> exact .inl rfl

/-- A step closes its frame, or it leaves frames of which the outermost is closed by the same
bytes. -/
def Leaves (f : Frame) (s : Bytes) (frames : List Frame) (rest : Bytes) : Prop :=
  frames = [] ∧ s = f.marks ++ rest ∨ frames.getLast?.map marks = some f.marks

theorem leaves_close (hf : f.marks = d.marks) (hb : b = d.quote) :
    f.Leaves (b :: s) (f.close d s).1 (f.close d s).2 := by
  unfold close
  split
  · next htriple =>
    split
    · next rest hrest =>
      refine .inl ⟨rfl, ?_⟩
      rw [hf, eq_append_of_dropPrefix? hrest, Delimiter.marks, if_pos htriple, hb]
      rfl
    · exact .inr rfl
  · next htriple =>
    refine .inl ⟨rfl, ?_⟩
    rw [hf, Delimiter.marks, if_neg htriple, hb]
    rfl

theorem leaves_openField (t : Bytes) (h : f.openField d s = .ok (frames, rest)) :
    f.Leaves t frames rest := by
  unfold openField at h
  split at h
  · cases h
  · split at h <;> cases h <;> exact .inr rfl

theorem leaves_of_step (h : f.step b s = .ok (frames, rest)) : f.Leaves (b :: s) frames rest := by
  cases f <;> grind [step, Leaves, marks, leaves_close, leaves_openField, ofPrefix, close]

/-- A step fails for a cause of literals. -/
theorem isOfText_of_step (h : f.step b s = .error cause) : cause.IsOfText := by
  have hfield : LexicalCause.IsOfText .unterminatedField := .inl rfl
  have hascii : LexicalCause.IsOfText .nonAsciiBytes := .inr rfl
  unfold step openField at h
  cases f <;> grind [isOfText_unterminated]

/-! ## Whole constructs -/

/-- What follows a construct stands behind the bytes that close it. -/
theorem exists_of_afterFrames (h : afterFrames [f] s = .ok rest) :
    ∃ taken, s = taken ++ (f.marks ++ rest) := by
  induction hlength : s.length using Nat.strong_induction_on generalizing f s with
  | _ n ih =>
    cases s with
    | nil => cases h
    | cons b s =>
      rw [afterFrames_cons] at h
      cases hstep : f.step b s with
      | error cause =>
        rw [hstep] at h
        cases h
      | ok result =>
        obtain ⟨frames, middle⟩ := result
        have hmiddle := suffix_of_step hstep
        rw [hstep] at h
        change afterFrames (frames ++ []) middle = .ok rest at h
        rw [List.append_nil] at h
        rcases leaves_of_step hstep with ⟨rfl, hclose⟩ | houter
        · obtain rfl : middle = rest := by simpa [afterFrames] using h
          exact ⟨[], hclose⟩
        -- The frames within the outermost one are closed first.
        · obtain ⟨outer, hlast, hmarks⟩ := Option.map_eq_some_iff.mp houter
          rw [← List.dropLast_append_getLast? outer hlast, afterFrames_append] at h
          obtain ⟨inside, hinner, h⟩ := exists_of_bind_eq_ok h
          have hsuffix := (suffix_of_afterFrames hinner).trans hmiddle
          have hlt : inside.length < n := by
            have := hsuffix.length_le
            simp only [List.length_cons] at hlength
            omega
          obtain ⟨taken, htaken⟩ := ih inside.length hlt h rfl
          obtain ⟨front, hfront⟩ := hsuffix
          refine ⟨b :: (front ++ taken), ?_⟩
          rw [← hfront, htaken, hmarks]
          simp

end Frame

theorem isOfText_of_afterFrames {frames : List Frame} {s : Bytes} {cause : LexicalCause}
    (h : afterFrames frames s = .error cause) : cause.IsOfText := by
  induction hlength : s.length using Nat.strong_induction_on generalizing frames s with
  | _ n ih =>
    match frames, s with
    | [], s => simp [afterFrames] at h
    | f :: outer, [] =>
      simp only [afterFrames, Except.error.injEq] at h
      exact h ▸ f.isOfText_unterminated
    | f :: outer, b :: s =>
      rw [afterFrames_cons] at h
      cases hstep : f.step b s with
      | error cause' =>
        rw [hstep] at h
        cases h
        exact Frame.isOfText_of_step hstep
      | ok result =>
        obtain ⟨frames, rest⟩ := result
        rw [hstep] at h
        refine ih rest.length ?_ h rfl
        have := (Frame.suffix_of_step hstep).length_le
        simp only [List.length_cons] at hlength
        omega

/-! ## Indices -/

namespace Bytes

variable {source rest : Bytes} {start : Nat} {b : Byte}

/-- What is left of a text begins at the index where it has been left. -/
theorem drop_length_sub (h : rest <:+ source) :
    source.drop (source.length - rest.length) = rest := by
  obtain ⟨front, rfl⟩ := h
  simp

/-- What is left behind a byte is left further on, directly behind that byte. -/
theorem lt_index_of_suffix (h : b :: rest <:+ source.drop start) :
    start < source.length - rest.length ∧ source.length - rest.length ≤ source.length ∧
      source[source.length - rest.length - 1]? = some b := by
  have hle : rest.length + 1 ≤ source.length - start := by
    simpa using h.length_le
  obtain ⟨before, rfl⟩ := h.trans (List.drop_suffix start source)
  rw [List.length_append, List.length_cons] at hle ⊢
  have hindex : before.length + (rest.length + 1) - rest.length - 1 = before.length := by omega
  rw [hindex]
  exact ⟨by omega, Nat.sub_le _ _, by simp⟩

theorem drop_eq_cons (h : source[start]? = some b) :
    source.drop start = b :: source.drop (start + 1) := by
  obtain ⟨hlt, rfl⟩ := List.getElem?_eq_some_iff.mp h
  exact List.drop_eq_getElem_cons hlt

/-- The letters directly in front of an index. -/
def lettersBefore (source : Bytes) (index : Nat) : Bytes :=
  (source.take index).rtakeWhile Byte.isLetter

theorem lettersBefore_succ (h : source[start]? = some b) :
    source.lettersBefore (start + 1) =
      if b.isLetter then source.lettersBefore start ++ [b] else [] := by
  rw [lettersBefore, List.take_add_one, h, Option.toList_some]
  split
  · next hletter => exact List.rtakeWhile_concat_pos _ _ _ hletter
  · next hletter => exact List.rtakeWhile_concat_neg _ _ _ hletter

end Bytes

/-! ## Scans from an index -/

/-- The index where the construct ends whose inside is scanned from an index on. -/
def Frame.scan (f : Frame) (source : Bytes) (start : Nat) : Except LexicalCause Nat :=
  (afterFrames [f] (source.drop start)).map (source.length - ·.length)

/-- The index where the field ends whose expression is scanned from an index on, inside of `depth`
brackets. -/
def scanField (d : Delimiter) (depth : Nat) (source : Bytes) (start : Nat) :
    Except LexicalCause Nat :=
  (Frame.field d depth (source.lettersBefore start)).scan source start

/-- The index where the literal ends that begins with the quote at an index, behind the letters of
its prefix. -/
def scanText (source : Bytes) (start : Nat) : Except LexicalCause Nat :=
  match source.drop start with
  | [] => .error (.unterminatedText false)
  | quote :: s =>
    (afterText (source.lettersBefore start) quote s).map (source.length - ·.length)

/-- A scan has failed for a cause of literals, or has gone on from an index of the source to a later
one, directly behind the byte `last`. -/
def StopsBehind (source : Bytes) (start : Nat) (last : Byte) : Except LexicalCause Nat → Prop
  | .error cause => cause.IsOfText
  | .ok stop => start < stop ∧ stop ≤ source.length ∧ source[stop - 1]? = some last

variable {source : Bytes} {start depth : Nat} {d : Delimiter} {b : Byte}

/-- A construct whose inside begins at an index or behind it is closed behind that index. -/
theorem stopsBehind_afterFrames {f : Frame} {last : Byte} {s : Bytes} (hs : s <:+ source.drop start)
    (hlast : f.marks.getLast? = some last) :
    StopsBehind source start last ((afterFrames [f] s).map (source.length - ·.length)) := by
  cases h : afterFrames [f] s with
  | error cause => exact isOfText_of_afterFrames h
  | ok rest =>
    obtain ⟨taken, rfl⟩ := Frame.exists_of_afterFrames h
    have hsuffix : last :: rest <:+ taken ++ (f.marks ++ rest) :=
      ⟨taken ++ f.marks.dropLast, by
        conv_rhs => rw [← List.dropLast_append_getLast? last hlast]
        simp⟩
    exact Bytes.lt_index_of_suffix (hsuffix.trans hs)

theorem Delimiter.getLast?_marks (d : Delimiter) : d.marks.getLast? = some d.quote := by
  unfold marks
  split <;> rfl

theorem Frame.getLast?_marks_ofPrefix (word : Bytes) (d : Delimiter) :
    (Frame.ofPrefix word d).marks.getLast? = some d.quote := by
  unfold ofPrefix
  generalize (if isStringPrefix word then word.toLower else []) = letters
  dsimp only
  split
  · exact d.getLast?_marks
  · exact d.getLast?_marks

/-- A literal is closed by its quote. -/
theorem stopsBehind_scanText {quote : Byte} (h : source[start]? = some quote) :
    StopsBehind source start quote (scanText source start) := by
  have hdrop := Bytes.drop_eq_cons h
  have hsuffix : source.drop (start + 1) <:+ source.drop start :=
    hdrop ▸ List.suffix_cons quote _
  rw [scanText, hdrop]
  dsimp only
  rw [afterText_eq]
  cases hprefix : Bytes.dropPrefix? [quote, quote] (source.drop (start + 1)) with
  | none => exact stopsBehind_afterFrames hsuffix (Frame.getLast?_marks_ofPrefix _ _)
  | some rest =>
    have hrest : rest <:+ source.drop (start + 1) :=
      ⟨_, (Bytes.eq_append_of_dropPrefix? hprefix).symm⟩
    exact stopsBehind_afterFrames (hrest.trans hsuffix) (Frame.getLast?_marks_ofPrefix _ _)

/-! ## Scans within scans -/

/-- The inner scan stops where the outer one goes on. -/
theorem map_afterFrames_append (inner outer : List Frame) {s : Bytes} (hs : s <:+ source) :
    (afterFrames (inner ++ outer) s).map (source.length - ·.length) =
      ((afterFrames inner s).map (source.length - ·.length)).bind fun stop =>
        (afterFrames outer (source.drop stop)).map (source.length - ·.length) := by
  rw [afterFrames_append]
  cases h : afterFrames inner s with
  | error cause => rfl
  | ok rest =>
    show (afterFrames outer rest).map _ = (afterFrames outer (source.drop _)).map _
    rw [Bytes.drop_length_sub ((suffix_of_afterFrames h).trans hs)]

theorem Byte.not_isLetter_of_isQuote (hb : b.isQuote) : b.isLetter = false := by
  simp only [Byte.isQuote, Bool.or_eq_true, beq_iff_eq] at hb
  rcases hb with rfl | rfl <;> rfl

/-- In a field, a quote begins a literal, and the scan of the field goes on behind it. -/
theorem scanField_quote (h : source[start]? = some b) (hb : b.isQuote) :
    scanField d depth source start = (scanText source start).bind (scanField d depth source) := by
  have hdrop := Bytes.drop_eq_cons h
  have hsuffix := List.drop_suffix (start + 1) source
  generalize source.drop (start + 1) = s at hdrop hsuffix
  have hfield : scanField d depth source start = (scanText source start).bind fun stop =>
      (Frame.field d depth []).scan source stop := by
    rw [scanField, scanText, Frame.scan, hdrop, afterFrames_cons]
    simp only [Frame.step, if_pos hb, afterText_eq]
    cases hprefix : Bytes.dropPrefix? [b, b] s with
    | none =>
      cases s with
      | nil => rfl
      | cons c s =>
        exact map_afterFrames_append [.ofPrefix _ ⟨b, false⟩] [.field d depth []] hsuffix
    | some rest =>
      have hrest : rest <:+ s := ⟨_, (Bytes.eq_append_of_dropPrefix? hprefix).symm⟩
      exact map_afterFrames_append [.ofPrefix _ ⟨b, true⟩] [.field d depth []] (hrest.trans hsuffix)
  -- No letter stands between the quote that closes the literal and what follows it.
  have hstops := stopsBehind_scanText h
  rw [hfield]
  cases hstop : scanText source start with
  | error cause => rfl
  | ok stop =>
    rw [hstop] at hstops
    obtain ⟨hlt, -, hlast⟩ := hstops
    obtain ⟨index, rfl⟩ := Nat.exists_eq_add_one_of_ne_zero (Nat.ne_zero_of_lt hlt)
    rw [Nat.add_sub_cancel] at hlast
    have hword : source.lettersBefore (index + 1) = [] := by
      rw [Bytes.lettersBefore_succ hlast, Byte.not_isLetter_of_isQuote hb]
      rfl
    show _ = (Frame.field d depth (source.lettersBefore (index + 1))).scan source (index + 1)
    rw [hword]
    rfl

/-- In the text of an f-string and in a format specification, an opening brace that stands alone
begins a field, and the scan goes on behind it. -/
theorem scan_openBrace {f : Frame} (hf : f = .formatted d ∨ f = .spec d) (hquote : d.quote.isQuote)
    (h : source[start]? = some Byte.openBrace)
    (hnext : source[start + 1]? ≠ some Byte.openBrace) :
    f.scan source start = (scanField d 0 source (start + 1)).bind (f.scan source) := by
  have hsuffix := List.drop_suffix (start + 1) source
  have hword : source.lettersBefore (start + 1) = [] := Bytes.lettersBefore_succ h
  rw [← List.head?_drop] at hnext
  rw [scanField, hword, Frame.scan, Frame.scan, Bytes.drop_eq_cons h]
  generalize source.drop (start + 1) = s at hsuffix hnext
  have hstep : f.step Byte.openBrace s = f.openField d s := by
    have hother : Byte.openBrace ≠ d.quote := by
      rintro hbrace
      rw [← hbrace] at hquote
      cases hquote
    rcases hf with rfl | rfl
    · show (if Byte.openBrace = d.quote then _ else _) = _
      rw [if_neg hother]
      rfl
    · rfl
  rw [afterFrames_cons, hstep]
  cases s with
  | nil => rfl
  | cons c s =>
    rw [Frame.openField, if_neg fun hc => hnext (congrArg some hc)]
    exact map_afterFrames_append [.field d 0 []] [f] hsuffix

/-! ## All scans -/

/-- Every scan goes forward and stays in the source.  From any index on, that of a string, of the
text of an f-string, of a field or of a format specification fails for a cause of literals, or it
stops at a later index of the source, behind the quote or the brace that closes it; so does the scan
of the literal that begins at an index. -/
theorem scans_stop_in_source (source : Bytes) (start : Nat) (d : Delimiter) :
    (∀ isBytes, StopsBehind source start d.quote ((Frame.plain d isBytes).scan source start)) ∧
      StopsBehind source start d.quote ((Frame.formatted d).scan source start) ∧
      (∀ depth, StopsBehind source start Byte.closeBrace (scanField d depth source start)) ∧
      StopsBehind source start Byte.closeBrace ((Frame.spec d).scan source start) ∧
      ∀ quote, source[start]? = some quote →
        StopsBehind source start quote (scanText source start) := by
  have hdrop := List.suffix_refl (source.drop start)
  refine ⟨fun isBytes => ?_, ?_, fun depth => ?_, ?_, fun quote => stopsBehind_scanText⟩
  · exact stopsBehind_afterFrames hdrop d.getLast?_marks
  · exact stopsBehind_afterFrames hdrop d.getLast?_marks
  · exact stopsBehind_afterFrames hdrop rfl
  · exact stopsBehind_afterFrames hdrop rfl

/-- A literal in a field whose format specification has a field of its own. -/
theorem scans_stop_in_source_nested :
    (text "f'\x7bb\"x\":\x7bw\x7d\x7d'")[4]? = some Byte.doubleQuote ∧
      scanText (text "f'\x7bb\"x\":\x7bw\x7d\x7d'") 4 = .ok 7 ∧
      StopsBehind (text "f'\x7bb\"x\":\x7bw\x7d\x7d'") 4 Byte.doubleQuote
        (scanText (text "f'\x7bb\"x\":\x7bw\x7d\x7d'") 4) := by
  have hquote : (text "f'\x7bb\"x\":\x7bw\x7d\x7d'")[4]? = some Byte.doubleQuote := by
    decide +kernel
  refine ⟨hquote, by decide +kernel, ?_⟩
  -- The text is left open here: comparing two readings of it would evaluate them.
  generalize text "f'\x7bb\"x\":\x7bw\x7d\x7d'" = source at hquote ⊢
  obtain ⟨-, -, -, -, hscan⟩ := scans_stop_in_source source 4 ⟨Byte.singleQuote, false⟩
  exact hscan _ hquote

end SyntaxTree
