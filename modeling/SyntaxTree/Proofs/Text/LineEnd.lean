import SyntaxTree.Text.Position

/-
# Other line ends

A text in which line feeds end the lines can be written with carriage returns in their place, or
with pairs of carriage return and line feed.  It has the same lines then, and walking over it leads
to the same places.
-/

namespace SyntaxTree

/-- What ends a line in place of a line feed. -/
inductive LineEnd where
  /-- A carriage return. -/
  | single
  /-- A carriage return and a line feed as a pair. -/
  | pair
  deriving DecidableEq, Repr

/-- What stands behind the carriage return of a line end. -/
@[simp]
def LineEnd.behind : LineEnd → Bytes
  | single => []
  | pair => [Byte.lineFeed]

namespace Bytes

variable {e : LineEnd} {b : Byte} {s t : Bytes}

/-- The text with another line end in place of each line feed. -/
def withLineEnds (e : LineEnd) : Bytes → Bytes
  | [] => []
  | b :: s =>
    if b = Byte.lineFeed then Byte.carriageReturn :: (e.behind ++ withLineEnds e s)
    else b :: withLineEnds e s

@[simp]
theorem withLineEnds_nil : withLineEnds e [] = [] := rfl

theorem withLineEnds_eq :
    withLineEnds e (b :: s) =
      if b = Byte.lineFeed then Byte.carriageReturn :: (e.behind ++ withLineEnds e s)
      else b :: withLineEnds e s := rfl

@[simp]
theorem withLineEnds_lineFeed :
    withLineEnds e (Byte.lineFeed :: s) =
      Byte.carriageReturn :: (e.behind ++ withLineEnds e s) :=
  if_pos rfl

theorem withLineEnds_cons (hb : b ≠ Byte.lineFeed) :
    withLineEnds e (b :: s) = b :: withLineEnds e s :=
  if_neg hb

@[simp]
theorem withLineEnds_append : withLineEnds e (s ++ t) = withLineEnds e s ++ withLineEnds e t := by
  induction s with
  | nil => rfl
  | cons b s ih =>
    rw [List.cons_append, withLineEnds, withLineEnds, ih]
    split <;> simp

/-- A text of one line stays as it is. -/
theorem withLineEnds_of_notMem (h : Byte.lineFeed ∉ s) : withLineEnds e s = s := by
  induction s with
  | nil => rfl
  | cons b s ih =>
    obtain ⟨hb, hs⟩ := List.ne_and_not_mem_of_not_mem_cons h
    rw [withLineEnds_cons (Ne.symm hb), ih hs]

@[simp]
theorem withLineEnds_eq_nil : withLineEnds e s = [] ↔ s = [] := by
  cases s with
  | nil => simp
  | cons b s =>
    rw [withLineEnds_eq]
    split <;> simp

/-- No text begins with a line feed any more. -/
theorem head?_withLineEnds_ne : (withLineEnds e s).head? ≠ some Byte.lineFeed := by
  cases s with
  | nil => simp
  | cons b s =>
    rw [withLineEnds_eq]
    split
    · exact fun hfeed => absurd (Option.some.inj hfeed) (by decide)
    · next hb => simpa using hb

/-- What does not tell the line ends apart sees the same first byte. -/
theorem head?_any_withLineEnds {p : Byte → Bool} (hp : p Byte.carriageReturn = p Byte.lineFeed) :
    (withLineEnds e s).head?.any p = s.head?.any p := by
  cases s with
  | nil => rfl
  | cons b s =>
    rw [withLineEnds_eq]
    split
    · next hb => simp [hb, hp]
    · rfl

/-- A text begins with a byte of a line exactly if it does under other line ends. -/
theorem head?_withLineEnds_eq {c : Byte} (hc : c.isLineEnd = false) :
    (withLineEnds e s).head? = some c ↔ s.head? = some c := by
  cases s with
  | nil => rfl
  | cons b s =>
    by_cases hb : b = Byte.lineFeed
    · subst hb
      rw [withLineEnds_lineFeed]
      constructor <;> intro h <;> cases Option.some.inj h <;> cases hc
    · rw [withLineEnds_cons hb]
      rfl

/-- A text in one line is found in front under other line ends where it is found. -/
theorem dropPrefix?_withLineEnds {start : Bytes} (h : ∀ b ∈ start, b.isLineEnd = false) :
    dropPrefix? start (withLineEnds e s) = (dropPrefix? start s).map (withLineEnds e) := by
  induction start generalizing s with
  | nil => rfl
  | cons a start ih =>
    obtain ⟨ha, hstart⟩ := List.forall_mem_cons.mp h
    cases s with
    | nil => rfl
    | cons b s =>
      by_cases hb : b = Byte.lineFeed
      · subst hb
        rw [withLineEnds_lineFeed, dropPrefix?, dropPrefix?, if_neg, if_neg]
        · rfl
        · rintro rfl
          cases ha
        · rintro rfl
          cases ha
      · rw [withLineEnds_cons hb, dropPrefix?, dropPrefix?, ih hstart]
        split <;> rfl

theorem isPrefixOf_withLineEnds (ht : ∀ b ∈ t, b.isLineEnd = false) :
    t.isPrefixOf (withLineEnds e s) = t.isPrefixOf s := by
  induction t generalizing s with
  | nil => rfl
  | cons c t ih =>
    obtain ⟨hc, ht⟩ := List.forall_mem_cons.mp ht
    cases s with
    | nil => rfl
    | cons b s =>
      by_cases hb : b = Byte.lineFeed
      · subst hb
        have hne {b : Byte} (hb : b.isLineEnd) : (c == b) = false := by
          refine beq_eq_false_iff_ne.mpr ?_
          rintro rfl
          cases hc.symm.trans hb
        rw [withLineEnds_lineFeed, List.isPrefixOf_cons_cons, List.isPrefixOf_cons_cons,
          hne rfl, hne rfl]
        rfl
      · rw [withLineEnds_cons hb, List.isPrefixOf_cons_cons, List.isPrefixOf_cons_cons, ih ht]

/-- What stops at the end of a line stops at the same place. -/
theorem dropWhile_withLineEnds {p : Byte → Bool} (hfeed : p Byte.lineFeed = false)
    (hreturn : p Byte.carriageReturn = false) :
    (withLineEnds e s).dropWhile p = withLineEnds e (s.dropWhile p) := by
  induction s with
  | nil => rfl
  | cons b s ih =>
    by_cases hb : b = Byte.lineFeed
    · simp [hb, hfeed, hreturn]
    · rw [withLineEnds_cons hb, List.dropWhile_cons, List.dropWhile_cons, ih]
      split
      · rfl
      · rw [withLineEnds_cons hb]

/-- A suffix is the whole text under other line ends exactly if it is. -/
theorem length_withLineEnds_eq (h : t <:+ s) :
    (withLineEnds e t).length = (withLineEnds e s).length ↔ t.length = s.length := by
  obtain ⟨front, rfl⟩ := h
  simp

/-- The lines of a text are the same whatever ends them. -/
theorem lines_withLineEnds (h : Byte.carriageReturn ∉ s) : (withLineEnds e s).lines = s.lines := by
  induction s with
  | nil => rfl
  | cons b s ih =>
    obtain ⟨hb, hs⟩ := List.ne_and_not_mem_of_not_mem_cons h
    have hreturn {t : Bytes} : ¬ (b = Byte.carriageReturn ∧ t.head? = some Byte.lineFeed) :=
      fun hpair => hb hpair.1.symm
    by_cases hfeed : b = Byte.lineFeed
    · subst hfeed
      have hend : lines (Byte.carriageReturn :: (e.behind ++ withLineEnds e s)) =
          [] :: (withLineEnds e s).lines := by
        cases e with
        | single => exact (if_neg fun hpair => head?_withLineEnds_ne hpair.2).trans (if_pos rfl)
        | pair => rfl
      rw [withLineEnds_lineFeed, hend, ih hs]
      rfl
    · rw [withLineEnds_cons hfeed, lines, lines, if_neg hreturn, if_neg hreturn, ih hs]

end Bytes

/-- Walking over a text leads to the same place whatever ends its lines. -/
theorem Position.advance_withLineEnds {e : LineEnd} {s : Bytes} (h : Byte.carriageReturn ∉ s)
    (p : Position) : p.advance (Bytes.withLineEnds e s) = p.advance s := by
  induction s generalizing p with
  | nil => rfl
  | cons b s ih =>
    obtain ⟨hb, hs⟩ := List.ne_and_not_mem_of_not_mem_cons h
    have hreturn {t : Bytes} : ¬ (b = Byte.carriageReturn ∧ t.head? = some Byte.lineFeed) :=
      fun hpair => hb hpair.1.symm
    by_cases hfeed : b = Byte.lineFeed
    · subst hfeed
      have hend : p.advance (Byte.carriageReturn :: (e.behind ++ Bytes.withLineEnds e s)) =
          p.nextLine.advance (Bytes.withLineEnds e s) := by
        cases e with
        | single =>
          exact (if_neg fun hpair => Bytes.head?_withLineEnds_ne hpair.2).trans (if_pos rfl)
        | pair => rfl
      rw [Bytes.withLineEnds_lineFeed, hend, ih hs]
      rfl
    · rw [Bytes.withLineEnds_cons hfeed, advance, advance, if_neg hreturn, if_neg hreturn]
      simp only [ih hs]

end SyntaxTree
