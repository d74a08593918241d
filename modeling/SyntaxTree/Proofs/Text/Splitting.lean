import SyntaxTree.Proofs.Text.Column
import SyntaxTree.Report.Diagnostic

/-
# Splitting a text into lines

A text can be split into its lines at once, its lines can be looked for one after the other, and a
walk over it counts them on the way.  All three see the same lines: the second skips as many line
ends as there are lines in front, and the third adds one for each line that it leaves behind.
-/

namespace SyntaxTree

namespace Bytes

/-! ## Finding a line -/

/-- The lines of a text are its first line and those of what follows the first line end. -/
theorem lines_eq (s : Bytes) : lines s = firstLine s :: (afterLine? s).elim [] lines := by
  induction s with
  | nil => rfl
  | cons b s ih =>
    cases hend : b.isLineEnd with
    | false =>
      rw [lines_cons hend, ih, firstLine_cons hend, afterLine?, if_neg (by simp [hend])]
      rfl
    | true =>
      rw [firstLine_cons_of_isLineEnd hend, afterLine?, if_pos hend, lines]
      by_cases hpair : b = Byte.carriageReturn ∧ s.head? = some Byte.lineFeed
      · -- The line ends behind the line feed, which is the next byte.
        obtain ⟨s, rfl⟩ := List.head?_eq_some_iff.mp hpair.2
        rw [if_pos hpair, if_pos hpair]
        rfl
      · rw [if_neg hpair, if_neg hpair, if_pos hend]
        rfl

/-- Looking for a line finds the one that splitting puts at its number. -/
theorem getElem?_lines (k : Nat) (s : Bytes) : (lines s)[k]? = lineBehind? k s := by
  induction k generalizing s with
  | zero =>
    rw [lines_eq]
    rfl
  | succ k ih =>
    rw [lines_eq, List.getElem?_cons_succ, lineBehind?]
    cases afterLine? s with
    | none => rfl
    | some rest => exact ih rest

/-- The line of a number is the one that is found behind as many line ends as there are lines in
front. -/
theorem lineAt_lines {n : Int} (h : 1 ≤ n) (s : Bytes) :
    lineAt (lines s) n = (lineBehind? (n - 1).toNat s).getD [] := by
  rw [lineAt, if_neg (by omega), List.getD_eq_getElem?_getD, getElem?_lines]

/-! ## Lines with their ends -/

/-- The lines of a text, each with the line end behind it. -/
def endedLines : Bytes → List Bytes
  | [] => [[]]
  | b :: s =>
    if b.isLineEnd ∧ ¬ (b = Byte.carriageReturn ∧ s.head? = some Byte.lineFeed) then
      [b] :: endedLines s
    else prependLine [b] (endedLines s)

theorem flatten_prependLine (line : Bytes) (ls : List Bytes) :
    (prependLine line ls).flatten = line ++ ls.flatten := by
  cases ls with
  | nil => rfl
  | cons first rest => exact List.append_assoc line first rest.flatten

/-- The lines with their ends make up the text. -/
theorem flatten_endedLines (s : Bytes) : (endedLines s).flatten = s := by
  induction s with
  | nil => rfl
  | cons b s ih =>
    rw [endedLines]
    split
    · rw [List.flatten_cons, ih, List.singleton_append]
    · rw [flatten_prependLine, ih, List.singleton_append]

theorem endedLines_ne_nil (s : Bytes) : endedLines s ≠ [] := by
  fun_cases endedLines s with
  | case1 => exact List.cons_ne_nil _ _
  | case2 => exact List.cons_ne_nil _ _
  | case3 b s =>
    cases endedLines s <;> exact List.cons_ne_nil _ _

/-- The lines are what stands in front of their ends. -/
theorem map_firstLine_endedLines (s : Bytes) : (endedLines s).map firstLine = lines s := by
  induction s with
  | nil => rfl
  | cons b s ih =>
    obtain ⟨first, rest, hfirst⟩ := List.exists_cons_of_ne_nil (endedLines_ne_nil s)
    rw [hfirst, List.map_cons] at ih
    rw [endedLines, lines]
    cases hend : b.isLineEnd with
    | false =>
      have hreturn : b ≠ Byte.carriageReturn := by
        rintro rfl
        cases hend
      rw [if_neg (by simp), if_neg fun h => hreturn h.1, if_neg (by simp), hfirst, ← ih]
      exact congrArg (· :: _) (firstLine_cons hend first)
    | true =>
      by_cases hpair : b = Byte.carriageReturn ∧ s.head? = some Byte.lineFeed
      · obtain ⟨s, rfl⟩ := List.head?_eq_some_iff.mp hpair.2
        have hnone := (List.cons.inj (ih.trans (lines_eq (Byte.lineFeed :: s)))).1
        rw [firstLine_cons_of_isLineEnd (by decide)] at hnone
        rw [if_neg fun h => h.2 hpair, if_pos hpair, hfirst, ← ih, hnone]
        exact congrArg (· :: rest.map firstLine) (firstLine_cons_of_isLineEnd hend first)
      · rw [if_pos ⟨rfl, hpair⟩, if_neg hpair, if_pos rfl, List.map_cons, hfirst, List.map_cons, ih,
          firstLine_cons_of_isLineEnd hend]

theorem length_prependLine (line : Bytes) {ls : List Bytes} (h : ls ≠ []) :
    (prependLine line ls).length = ls.length := by
  obtain ⟨first, rest, rfl⟩ := List.exists_cons_of_ne_nil h
  rfl

/-- The last line of a text goes on with the first line of what stands behind the text. -/
theorem exists_endedLines_append {front rest : Bytes} (h : PartsNoLineEnd front rest) :
    ∃ above last, endedLines front = above ++ [last] ∧
      endedLines (front ++ rest) = above ++ prependLine last (endedLines rest) := by
  induction front with
  | nil =>
    obtain ⟨first, more, hfirst⟩ := List.exists_cons_of_ne_nil (endedLines_ne_nil rest)
    refine ⟨[], [], rfl, ?_⟩
    rw [List.nil_append, hfirst]
    rfl
  | cons b front ih =>
    obtain ⟨above, last, hfront, happend⟩ := ih h.tail
    rw [List.cons_append, endedLines, endedLines, hfront, happend]
    simp only [h.pair_iff]
    by_cases hend : b.isLineEnd ∧ ¬ (b = Byte.carriageReturn ∧ front.head? = some Byte.lineFeed)
    · rw [if_pos hend, if_pos hend]
      exact ⟨[b] :: above, last, rfl, rfl⟩
    · rw [if_neg hend, if_neg hend]
      cases above with
      | nil => exact ⟨[], [b] ++ last, rfl, (prependLine_append [b] last _).symm⟩
      | cons line above => exact ⟨([b] ++ line) :: above, last, rfl, rfl⟩

/-! ## The line of an offset -/

/-- The byte at an offset of a text belongs to the line of a number or to its end, or the text ends
at the offset and the line is its last. -/
def IsWithin (s : Bytes) (number : Int) (offset : Nat) : Prop :=
  ∃ above line below, endedLines s = above ++ line :: below ∧ number = above.length + 1 ∧
    above.flatten.length ≤ offset ∧
    (offset < above.flatten.length + line.length ∨ below = [] ∧ offset = s.length)

/-- What follows a text begins in the last line of the text. -/
theorem isWithin_length {front rest : Bytes} (h : PartsNoLineEnd front rest) :
    IsWithin (front ++ rest) (endedLines front).length front.length := by
  obtain ⟨above, last, hfront, happend⟩ := exists_endedLines_append h
  obtain ⟨first, more, hrest⟩ := List.exists_cons_of_ne_nil (endedLines_ne_nil rest)
  rw [hrest] at happend
  have hlength : front.length = above.flatten.length + last.length := by
    conv_lhs => rw [← flatten_endedLines front, hfront]
    simp
  have hstop : rest = first ++ more.flatten := by
    rw [← flatten_endedLines rest, hrest, List.flatten_cons]
  refine ⟨above, last ++ first, more, happend, by simp [hfront], by omega, ?_⟩
  cases rest with
  | nil =>
    -- Nothing follows, so the text ends in its last line.
    obtain ⟨-, rfl⟩ : first = [] ∧ more = [] := by
      rw [endedLines] at hrest
      simpa [eq_comm] using hrest
    exact .inr ⟨rfl, by simp⟩
  | cons b rest =>
    have hfirst : first ≠ [] := by
      rw [endedLines] at hrest
      rintro rfl
      split at hrest
      · cases hrest
      · cases hlines : endedLines rest <;> rw [hlines] at hrest <;> cases hrest
    have hpos := List.length_pos_iff.mpr hfirst
    refine .inl ?_
    rw [List.length_append]
    omega

end Bytes

open Bytes

/-- A walk over a text adds one to the line for each line that it leaves behind. -/
theorem Position.line_advance_add_one (p : Position) (s : Bytes) :
    (p.advance s).line + 1 = p.line + (endedLines s).length := by
  fun_induction advance p s with
  | case1 p => rfl
  | case2 p b s hpair ih =>
    rw [endedLines, if_neg fun h => h.2 hpair, length_prependLine _ (endedLines_ne_nil s)]
    exact ih
  | case3 p b s hpair hend ih =>
    rw [endedLines, if_pos ⟨hend, hpair⟩, List.length_cons, ih]
    simp only [nextLine]
    omega
  | case4 p b s hpair hend _ ih | case5 p b s hpair hend _ ih =>
    rw [endedLines, if_neg fun h => hend h.1, length_prependLine _ (endedLines_ne_nil s)]
    exact ih

/-- A mark in front of the first line adds no line. -/
theorem length_endedLines_append {mark : Bytes} (hmark : ∀ b ∈ mark, b.isLineEnd = false)
    (s : Bytes) : (endedLines (mark ++ s)).length = (endedLines s).length := by
  induction mark with
  | nil => rfl
  | cons b mark ih =>
    obtain ⟨hb, hmark⟩ := List.forall_mem_cons.mp hmark
    rw [List.cons_append, endedLines, if_neg fun h => Bool.noConfusion (hb.symm.trans h.1),
      length_prependLine _ (endedLines_ne_nil _), ih hmark]

/-- The line that a walk leads to is that of the offset behind what it has passed, also if the text
has a mark in front of its first line. -/
theorem isWithin_advance {mark front rest : Bytes} (hmark : ∀ b ∈ mark, b.isLineEnd = false)
    (h : PartsNoLineEnd front rest) :
    IsWithin (mark ++ (front ++ rest)) (Position.origin.advance front).line
      (mark.length + front.length) := by
  have hparts : PartsNoLineEnd (mark ++ front) rest := by
    intro hlast
    cases front with
    | nil =>
      rw [List.append_nil] at hlast
      exact absurd (hmark _ (List.mem_of_getLast? hlast)) (by decide)
    | cons b front =>
      rw [List.getLast?_append_of_ne_nil mark (List.cons_ne_nil b front)] at hlast
      exact h hlast
  have hline : (Position.origin.advance front).line = (endedLines (mark ++ front)).length := by
    have hwalk := Position.line_advance_add_one .origin front
    rw [length_endedLines_append hmark]
    simp only [Position.origin] at hwalk ⊢
    omega
  rw [hline, ← List.append_assoc, ← List.length_append]
  exact isWithin_length hparts

end SyntaxTree
