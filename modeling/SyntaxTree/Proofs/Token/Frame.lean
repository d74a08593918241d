import SyntaxTree.Proofs.Text.LineEnd
import SyntaxTree.Proofs.Token.Place

/-
# Frames step by step

The walk over a literal is taken apart into steps: what one byte does to the innermost frame, with
what follows.  Under other line ends each step does the same, so the literal ends at the same place.
-/

namespace SyntaxTree

open Bytes

variable {e : LineEnd}

/-! ## Single steps -/

/-- What stands behind an escaped character, which may be a line end. -/
def escaped : Bytes → Bytes
  | [] => []
  | b :: s => Lexeme.afterLineEnd b s

namespace Frame

/-- A quote closes the frame if it is written as often as the delimiter says. -/
def close (f : Frame) (d : Delimiter) (s : Bytes) : List Frame × Bytes :=
  if d.triple then
    match dropPrefix? [d.quote, d.quote] s with
    | some rest => ([], rest)
    | none => ([f], s)
  else ([], s)

/-- A brace opens a field unless it is written twice. -/
def openField (f : Frame) (d : Delimiter) : Bytes → Except LexicalCause (List Frame × Bytes)
  | [] => .error .unterminatedField
  | b :: s => if b = Byte.openBrace then .ok ([f], s) else .ok ([.field d 0 [], f], b :: s)

/-- What one byte does to the innermost frame: the frames in its place, and what follows. -/
def step (f : Frame) (b : Byte) (s : Bytes) : Except LexicalCause (List Frame × Bytes) :=
  match f with
  | plain d bytes =>
    if b = Byte.backslash then
      if s = [] then .error f.unterminated else .ok ([f], escaped s)
    else if b.isLineEnd && !d.triple then .error f.unterminated
    else if bytes && b.isNonAscii then .error .nonAsciiBytes
    else if b = d.quote then .ok (f.close d s)
    else .ok ([f], s)
  | formatted d =>
    if b = Byte.backslash then
      if s = [] then .error f.unterminated
      else if s.head? = some Byte.openBrace ∨ s.head? = some Byte.closeBrace then .ok ([f], s)
      else .ok ([f], escaped s)
    else if b.isLineEnd && !d.triple then .error f.unterminated
    else if b = d.quote then .ok (f.close d s)
    else if b = Byte.openBrace then f.openField d s
    else .ok ([f], s)
  | field d depth word =>
    if b.isQuote then
      match dropPrefix? [b, b] s with
      | some rest => .ok ([.ofPrefix word ⟨b, true⟩, field d depth []], rest)
      | none =>
        if s = [] then .error (ofPrefix word ⟨b, false⟩).unterminated
        else .ok ([.ofPrefix word ⟨b, false⟩, field d depth []], s)
    else if b = ascii '(' ∨ b = ascii '[' ∨ b = Byte.openBrace then
      .ok ([field d (depth + 1) []], s)
    else if b = ascii ')' ∨ b = ascii ']' then .ok ([field d (depth - 1) []], s)
    else if b = Byte.closeBrace then
      .ok (if depth = 0 then [] else [field d (depth - 1) []], s)
    else if b = ascii ':' ∧ depth = 0 then .ok ([spec d], s)
    else .ok ([field d depth (if b.isLetter then word ++ [b] else [])], s)
  | spec d =>
    if b = Byte.openBrace then f.openField d s
    else if b = Byte.closeBrace then .ok ([], s)
    else if b.isLineEnd && !d.triple then .error f.unterminated
    else if b = d.quote then
      if (f.close d s).1 = [] then .error f.unterminated else .ok ([f], s)
    else .ok ([f], s)

end Frame

/-- A byte at the front is taken by the innermost frame. -/
theorem afterFrames_cons (f : Frame) (outer : List Frame) (b : Byte) (s : Bytes) :
    afterFrames (f :: outer) (b :: s) =
      (f.step b s).bind fun (frames, rest) => afterFrames (frames ++ outer) rest := by
  cases f <;> rcases s with _ | ⟨b₁, _ | ⟨b₂, s⟩⟩ <;>
    grind [afterFrames, Frame.step, Frame.close, Frame.openField, dropPrefix?, escaped,
      Lexeme.afterLineEnd, Except.bind]

/-! ## What a step keeps -/

theorem suffix_escaped (s : Bytes) : escaped s <:+ s := by
  cases s with
  | nil => exact List.suffix_rfl
  | cons b s => exact (Lexeme.suffix_afterLineEnd b s).trans (List.suffix_cons b s)

theorem Byte.not_isLineEnd_of_isQuote {b : Byte} (h : b.isQuote) : b.isLineEnd = false := by
  refine Bool.eq_false_iff.mpr fun hend => ?_
  rcases Byte.isLineEnd_iff.mp hend with rfl | rfl <;> cases h

/-- A line end behind a backslash is passed over in either form. -/
theorem escaped_withLineEnds {s : Bytes} (h : Byte.carriageReturn ∉ s) :
    escaped (withLineEnds e s) = withLineEnds e (escaped s) := by
  cases s with
  | nil => rfl
  | cons b s =>
    obtain ⟨hb, -⟩ := List.ne_and_not_mem_of_not_mem_cons h
    have hstay {c : Byte} {t : Bytes}
        (hpair : ¬ (c = Byte.carriageReturn ∧ t.head? = some Byte.lineFeed)) :
        escaped (c :: t) = t := if_neg hpair
    rw [hstay fun hpair => hb hpair.1.symm]
    by_cases hfeed : b = Byte.lineFeed
    · subst hfeed
      rw [withLineEnds_lineFeed]
      cases e with
      | single => exact hstay fun hpair => head?_withLineEnds_ne hpair.2
      | pair => rfl
    · rw [withLineEnds_cons hfeed]
      exact hstay fun hpair => hb hpair.1.symm

namespace Frame

variable {f : Frame} {d : Delimiter} {b : Byte} {s rest : Bytes} {frames : List Frame}

theorem suffix_close : (f.close d s).2 <:+ s := by
  unfold close
  split
  · split
    · next rest hrest => exact ⟨_, (eq_append_of_dropPrefix? hrest).symm⟩
    · exact List.suffix_rfl
  · exact List.suffix_rfl

theorem suffix_of_openField (h : f.openField d s = .ok (frames, rest)) : rest <:+ s := by
  unfold openField at h
  grind [List.suffix_cons]

/-- What follows a step is a suffix of what follows its byte. -/
theorem suffix_of_step (h : f.step b s = .ok (frames, rest)) : rest <:+ s := by
  have hquotes {t : Bytes} (ht : dropPrefix? [b, b] s = some t) : t <:+ s :=
    ⟨_, (eq_append_of_dropPrefix? ht).symm⟩
  cases f <;> grind [step, suffix_close, suffix_escaped, suffix_of_openField]

theorem areQuoted_of_step {outer : List Frame} (hf : f.IsQuoted) (houter : AreQuoted outer)
    (h : f.step b s = .ok (frames, rest)) : AreQuoted (frames ++ outer) := by
  unfold step openField close at h
  cases f <;> grind [AreQuoted, IsQuoted, isQuoted_ofPrefix]

/-! ## Steps at the end of a line -/

/-- Whether the frame may not go on in the next line. -/
def endsAtLine : Frame → Bool
  | plain d _ | formatted d | spec d => !d.triple
  | field .. => false

/-- The frame in the next line: no letters stand directly in front of what follows. -/
def nextLine : Frame → Frame
  | field d depth _ => field d depth []
  | f => f

/-- A second line end does no more than the first. -/
theorem nextLine_nextLine (f : Frame) : f.nextLine.nextLine = f.nextLine := by
  cases f <;> rfl

theorem endsAtLine_nextLine (f : Frame) : f.nextLine.endsAtLine = f.endsAtLine := by
  cases f <;> rfl

theorem isQuoted_nextLine (hf : f.IsQuoted) : f.nextLine.IsQuoted := by
  cases f <;> exact hf

theorem step_of_isLineEnd (hf : f.IsQuoted) (hb : b.isLineEnd) :
    f.step b s = if f.endsAtLine then .error f.unterminated else .ok ([f.nextLine], s) := by
  have hquote {d : Delimiter} (hd : d.quote.isQuote) : b ≠ d.quote := by
    rintro rfl
    rcases Byte.isLineEnd_iff.mp hb with hb | hb <;> rw [hb] at hd <;> cases hd
  rcases Byte.isLineEnd_iff.mp hb with rfl | rfl <;>
  cases f with
  | field d depth word => rfl
  | plain d bytes =>
    simp +decide [step, hquote hf, endsAtLine, nextLine]
  | formatted d =>
    simp +decide [step, hquote hf, endsAtLine, nextLine]
  | spec d =>
    simp +decide [step, hquote hf, endsAtLine, nextLine]

/-! ## Steps under other line ends -/

theorem close_withLineEnds (hd : d.quote.isQuote) :
    f.close d (withLineEnds e s) = Prod.map id (withLineEnds e) (f.close d s) := by
  have hquotes : ∀ b ∈ [d.quote, d.quote], b.isLineEnd = false := by
    simpa using Byte.not_isLineEnd_of_isQuote hd
  unfold close
  rw [dropPrefix?_withLineEnds hquotes]
  split
  · cases dropPrefix? [d.quote, d.quote] s <;> rfl
  · rfl

theorem openField_withLineEnds :
    f.openField d (withLineEnds e s) = (f.openField d s).map (Prod.map id (withLineEnds e)) := by
  cases s with
  | nil => rfl
  | cons b s =>
    by_cases hb : b = Byte.lineFeed
    · subst hb
      rw [withLineEnds_lineFeed]
      simp +decide [openField, Except.map]
    · rw [withLineEnds_cons hb]
      simp only [openField]
      split
      · rfl
      · rw [Except.map, Prod.map, withLineEnds_cons hb]
        rfl

/-- A byte that ends no line does the same under other line ends. -/
theorem step_withLineEnds (hf : f.IsQuoted) (hb : b.isLineEnd = false)
    (hs : Byte.carriageReturn ∉ s) :
    f.step b (withLineEnds e s) = (f.step b s).map (Prod.map id (withLineEnds e)) := by
  have hnil : withLineEnds e s = [] ↔ s = [] := withLineEnds_eq_nil
  -- Every frame looks at the byte and at the bytes right behind it, none of which ends a line here.
  cases f with
  | plain d bytes =>
    simp only [step, hb, hnil, escaped_withLineEnds hs, close_withLineEnds hf]
    split
    · split <;> rfl
    split
    · rfl
    split
    · rfl
    split <;> rfl
  | formatted d =>
    have hbrace {c : Byte} (hc : c.isLineEnd = false) :
        (withLineEnds e s).head? = some c ↔ s.head? = some c := head?_withLineEnds_eq hc
    simp only [step, hb, hnil, escaped_withLineEnds hs, close_withLineEnds hf,
      openField_withLineEnds, hbrace (c := Byte.openBrace) rfl, hbrace (c := Byte.closeBrace) rfl]
    split
    · split
      · rfl
      split <;> rfl
    split
    · rfl
    split
    · rfl
    split <;> rfl
  | field d depth word =>
    have hquotes : ∀ c ∈ [b, b], c.isLineEnd = false := by simpa using hb
    simp only [step, dropPrefix?_withLineEnds hquotes]
    split
    · cases dropPrefix? [b, b] s with
      | some rest => rfl
      | none =>
        simp only [hnil, Option.map]
        split <;> rfl
    split
    · rfl
    split
    · rfl
    split
    · rfl
    split <;> rfl
  | spec d =>
    simp only [step, hb, close_withLineEnds hf, openField_withLineEnds, Prod.map, id]
    split
    · rfl
    split
    · rfl
    split
    · rfl
    split
    · split <;> rfl
    · rfl

end Frame

/-! ## Whole literals -/

/-- At a line end the innermost frame ends, or all go on in the next line. -/
theorem afterFrames_of_isLineEnd {f : Frame} {outer : List Frame} {b : Byte} {s : Bytes}
    (hf : f.IsQuoted) (hb : b.isLineEnd) :
    afterFrames (f :: outer) (b :: s) =
      if f.endsAtLine then .error f.unterminated else afterFrames (f.nextLine :: outer) s := by
  rw [afterFrames_cons, Frame.step_of_isLineEnd hf hb]
  split <;> rfl

/-- A pair does to the innermost frame what a line feed does. -/
theorem afterFrames_lineEnd {f : Frame} {outer : List Frame} {s : Bytes} (hf : f.IsQuoted) :
    afterFrames (f :: outer) (withLineEnds e (Byte.lineFeed :: s)) =
      if f.endsAtLine then .error f.unterminated
      else afterFrames (f.nextLine :: outer) (withLineEnds e s) := by
  rw [withLineEnds_lineFeed, afterFrames_of_isLineEnd hf rfl]
  cases e with
  | single => rfl
  | pair =>
    -- The carriage return and the line feed are two steps, the second of which changes nothing.
    have hsecond : afterFrames (f.nextLine :: outer) (Byte.lineFeed :: withLineEnds .pair s) =
        if f.nextLine.endsAtLine then .error f.nextLine.unterminated
        else afterFrames (f.nextLine.nextLine :: outer) (withLineEnds .pair s) :=
      afterFrames_of_isLineEnd (Frame.isQuoted_nextLine hf) rfl
    rw [Frame.endsAtLine_nextLine, Frame.nextLine_nextLine] at hsecond
    rw [LineEnd.behind, List.singleton_append, hsecond]
    split <;> rfl

/-- A literal ends at the same place under other line ends. -/
theorem afterFrames_withLineEnds {frames : List Frame} {s : Bytes}
    (hquotes : Frame.AreQuoted frames) (h : Byte.carriageReturn ∉ s) :
    afterFrames frames (withLineEnds e s) = (afterFrames frames s).map (withLineEnds e) := by
  -- The induction is on the length, for a step may pass over more than one byte.
  induction hlength : s.length using Nat.strong_induction_on generalizing frames s with
  | _ n ih =>
    cases frames with
    | nil => simp [afterFrames, Except.map]
    | cons f outer =>
      obtain ⟨hf, houter⟩ := hquotes
      cases s with
      | nil => rfl
      | cons b s =>
        obtain ⟨hb, hs⟩ := List.ne_and_not_mem_of_not_mem_cons h
        by_cases hfeed : b = Byte.lineFeed
        · subst hfeed
          rw [afterFrames_lineEnd hf, afterFrames_of_isLineEnd hf rfl]
          split
          · rfl
          · have hlt : s.length < n := hlength ▸ Nat.lt_succ_self s.length
            exact ih s.length hlt ⟨Frame.isQuoted_nextLine hf, houter⟩ hs rfl
        · have hline : b.isLineEnd = false := by
            simp [Byte.isLineEnd, hfeed, Ne.symm hb]
          rw [withLineEnds_cons hfeed, afterFrames_cons, afterFrames_cons,
            Frame.step_withLineEnds hf hline hs]
          cases hstep : f.step b s with
          | error => rfl
          | ok result =>
            obtain ⟨frames, rest⟩ := result
            have hsuffix := Frame.suffix_of_step hstep
            refine ih rest.length ?_ (Frame.areQuoted_of_step hf houter hstep)
              (fun hmem => hs (hsuffix.mem hmem)) rfl
            have := hsuffix.length_le
            simp only [List.length_cons] at hlength
            omega

theorem afterText_eq (word : Bytes) (quote : Byte) (s : Bytes) :
    afterText word quote s = (dropPrefix? [quote, quote] s).elim
      (afterFrames [.ofPrefix word ⟨quote, false⟩] s)
      (afterFrames [.ofPrefix word ⟨quote, true⟩]) := by
  rcases s with _ | ⟨b₁, _ | ⟨b₂, s⟩⟩ <;> grind [afterText, dropPrefix?]

theorem afterText_withLineEnds {word : Bytes} {quote : Byte} {s : Bytes} (hquote : quote.isQuote)
    (h : Byte.carriageReturn ∉ s) :
    afterText word quote (withLineEnds e s) = (afterText word quote s).map (withLineEnds e) := by
  have hframes (triple : Bool) : Frame.AreQuoted [.ofPrefix word ⟨quote, triple⟩] :=
    ⟨Frame.isQuoted_ofPrefix word hquote, trivial⟩
  have hline := Byte.not_isLineEnd_of_isQuote hquote
  rw [afterText_eq, afterText_eq, dropPrefix?_withLineEnds (by simpa using hline)]
  cases hprefix : dropPrefix? [quote, quote] s with
  | none => exact afterFrames_withLineEnds (hframes false) h
  | some rest =>
    refine afterFrames_withLineEnds (hframes true) fun hmem => h ?_
    rw [eq_append_of_dropPrefix? hprefix]
    exact List.mem_append_right _ hmem

end SyntaxTree
