import SyntaxTree.Grammar.Expression
import SyntaxTree.Proofs.Token.Cover

/-
# Places within a source

Walking over two texts one after the other is walking over both together, unless they part a
carriage return from its line feed.  A literal finds the places within itself by walking over its
text with line feeds alone, so that it may lag behind the walk of the source, and the places within
a field are carried over from a text of its own.
-/

namespace SyntaxTree

/-- A byte that takes up a column. -/
def Byte.isColumn (b : Byte) : Bool := !b.isLineEnd && !b.isContinuation

theorem Byte.isLineEnd_iff {b : Byte} :
    b.isLineEnd ↔ b = Byte.lineFeed ∨ b = Byte.carriageReturn := by
  simp [isLineEnd]

/-- Whether no line end is parted between two texts. -/
def PartsNoLineEnd (s t : Bytes) : Prop :=
  s.getLast? = some Byte.carriageReturn → t.head? ≠ some Byte.lineFeed

namespace PartsNoLineEnd

variable {b : Byte} {s t : Bytes}

theorem tail (h : PartsNoLineEnd (b :: s) t) : PartsNoLineEnd s t := by
  intro hlast
  refine h ?_
  cases s with
  | nil => cases hlast
  | cons c s => exact hlast

/-- A pair that begins in the first text ends in it. -/
theorem pair_iff (h : PartsNoLineEnd (b :: s) t) :
    (b = Byte.carriageReturn ∧ (s ++ t).head? = some Byte.lineFeed) ↔
      (b = Byte.carriageReturn ∧ s.head? = some Byte.lineFeed) := by
  cases s with
  | nil =>
    simp only [List.nil_append, List.head?_nil, reduceCtorEq, and_false, iff_false]
    rintro ⟨rfl, hfeed⟩
    exact h rfl hfeed
  | cons c s => rfl

end PartsNoLineEnd

namespace Position

variable {p q : Position}

/-! ## Walking over a text -/

theorem nextLine_le (h : p ≤ q) : p.nextLine ≤ q.nextLine := by
  rcases h with h | ⟨h, -⟩
  · exact .inl (Int.add_lt_add_right h 1)
  · exact .inr ⟨congrArg (· + 1) h, Int.le_refl 1⟩

theorem nextColumn_le (h : p ≤ q) : p.nextColumn ≤ q.nextColumn := by
  rcases h with h | ⟨h, hcolumn⟩
  · exact .inl h
  · exact .inr ⟨h, Int.add_le_add_right hcolumn 1⟩

theorem nextColumn_le_nextLine (h : p ≤ q) : p.nextColumn ≤ q.nextLine :=
  .inl (Int.lt_add_one_of_le (show p.line ≤ q.line from line_le_of_le h))

/-- A later place leads to a later one. -/
theorem advance_mono (h : p ≤ q) (s : Bytes) : p.advance s ≤ q.advance s := by
  fun_induction advance q s generalizing p with
  | case1 q => exact h
  | case2 q b s hpair ih =>
    rw [advance, if_pos hpair]
    exact ih h
  | case3 q b s hpair hend ih =>
    rw [advance, if_neg hpair, if_pos hend]
    exact ih (nextLine_le h)
  | case4 q b s hpair hend hcontinuation ih =>
    rw [advance, if_neg hpair, if_neg hend, if_pos hcontinuation]
    exact ih h
  | case5 q b s hpair hend hcontinuation ih =>
    rw [advance, if_neg hpair, if_neg hend, if_neg hcontinuation]
    exact ih (nextColumn_le h)

theorem advance_append {s t : Bytes} (h : PartsNoLineEnd s t) (p : Position) :
    p.advance (s ++ t) = (p.advance s).advance t := by
  induction s generalizing p with
  | nil => rfl
  | cons b s ih =>
    rw [List.cons_append, advance, advance]
    simp only [h.pair_iff, ih h.tail]
    split
    · rfl
    split
    · rfl
    split <;> rfl

theorem advance_column {b : Byte} (hb : b.isColumn) (p : Position) (s : Bytes) :
    p.advance (b :: s) = p.nextColumn.advance s := by
  simp only [Byte.isColumn, Bool.and_eq_true, Bool.not_eq_true'] at hb
  have hreturn : b ≠ Byte.carriageReturn := by
    rintro rfl
    exact absurd hb.1 (by decide)
  rw [advance, if_neg (fun h => hreturn h.1), if_neg (by simp [hb.1]), if_neg (by simp [hb.2])]

/-- A column closes what stands in front of it. -/
theorem advance_append_column {b : Byte} (hb : b.isColumn) (p : Position) (s : Bytes) :
    p.advance (s ++ [b]) = (p.advance s).nextColumn := by
  have hparts : PartsNoLineEnd s [b] := by
    rintro - hfeed
    obtain rfl : b = Byte.lineFeed := by simpa using hfeed
    exact absurd hb (by decide)
  rw [advance_append hparts, advance_column hb]
  rfl

/-- The beginning of a text ends no later than the text, unless it ends within a line end. -/
theorem advance_le_append {s t : Bytes} (h : PartsNoLineEnd s t) (p : Position) :
    p.advance s ≤ p.advance (s ++ t) := by
  rw [advance_append h]
  exact le_advance _ t

/-- A byte adds at most one line or one column. -/
theorem advance_le_add_length (p : Position) (s : Bytes) :
    (p.advance s).line ≤ p.line + s.length ∧ (p.advance s).column ≤ max p.column 1 + s.length := by
  fun_induction advance p s with
  | case1 p =>
    rw [List.length_nil]
    omega
  | case2 p b s hpair ih =>
    rw [List.length_cons]
    omega
  | case3 p b s hpair hend ih =>
    have hnext : p.nextLine.line = p.line + 1 ∧ p.nextLine.column = 1 := ⟨rfl, rfl⟩
    rw [List.length_cons]
    omega
  | case4 p b s hpair hend hcontinuation ih =>
    rw [List.length_cons]
    omega
  | case5 p b s hpair hend hcontinuation ih =>
    have hnext : p.nextColumn.line = p.line ∧ p.nextColumn.column = p.column + 1 := ⟨rfl, rfl⟩
    rw [List.length_cons]
    omega

/-- No line and no column of a source of fewer than `2 ^ 31 - 1` bytes leaves the signed integers of
32 bits. -/
theorem advance_origin_lt {s : Bytes} (h : s.length + 1 < 0x80000000) :
    (origin.advance s).line < 0x80000000 ∧ (origin.advance s).column < 0x80000000 := by
  obtain ⟨hline, hcolumn⟩ := advance_le_add_length origin s
  simp only [origin] at hline hcolumn ⊢
  omega

/-! ## Walking with line feeds alone -/

/-- The place reached by walking over a text in which only line feeds end lines. -/
def lag (p : Position) (s : Bytes) : Position :=
  s.foldl (fun p b =>
    if b = Byte.lineFeed then p.nextLine
    else if b.isContinuation then p
    else p.nextColumn) p

theorem lag_append (p : Position) (s t : Bytes) : p.lag (s ++ t) = (p.lag s).lag t :=
  List.foldl_append

theorem lag_cons (p : Position) (b : Byte) (s : Bytes) :
    p.lag (b :: s) = (if b = Byte.lineFeed then p.nextLine else if b.isContinuation then p
      else p.nextColumn).lag s := rfl

theorem lag_column {b : Byte} (hb : b.isColumn) (p : Position) (s : Bytes) :
    p.lag (b :: s) = p.nextColumn.lag s := by
  simp only [Byte.isColumn, Bool.and_eq_true, Bool.not_eq_true'] at hb
  have hfeed : b ≠ Byte.lineFeed := by
    rintro rfl
    exact absurd hb.1 (by decide)
  rw [lag_cons, if_neg hfeed, if_neg (by simp [hb.2])]

/-- A column closes what stands in front of it, also where only line feeds end lines. -/
theorem lag_append_column {b : Byte} (hb : b.isColumn) (p : Position) (s : Bytes) :
    p.lag (s ++ [b]) = (p.lag s).nextColumn := by
  rw [lag_append, lag_column hb]
  rfl

theorem le_lag (p : Position) (s : Bytes) : p ≤ p.lag s := by
  induction s generalizing p with
  | nil => exact le_refl p
  | cons b s ih =>
    rw [lag_cons]
    refine le_trans ?_ (ih _)
    split
    · exact le_nextLine p
    split
    · exact le_refl p
    · exact le_nextColumn p

/-- A walk with line feeds alone may lag behind, but never leads. -/
theorem lag_le_advance (h : p ≤ q) (s : Bytes) : p.lag s ≤ q.advance s := by
  fun_induction advance q s generalizing p with
  | case1 q => exact h
  | case2 q b s hpair ih =>
    -- The column of the carriage return is forgotten at the line feed.
    obtain ⟨rfl, hfeed⟩ := hpair
    cases s with
    | nil => cases hfeed
    | cons c s =>
      obtain rfl : c = Byte.lineFeed := Option.some.inj hfeed
      have hforget : p.lag (Byte.carriageReturn :: Byte.lineFeed :: s) =
          p.lag (Byte.lineFeed :: s) := rfl
      rw [hforget]
      exact ih h
  | case3 q b s hpair hend ih =>
    rw [lag_cons]
    split
    · exact ih (nextLine_le h)
    split
    · exact ih (le_trans h (le_nextLine q))
    · exact ih (nextColumn_le_nextLine h)
  | case4 q b s hpair hend hcontinuation ih =>
    have hfeed : b ≠ Byte.lineFeed := by
      rintro rfl
      exact hend rfl
    rw [lag_cons, if_neg hfeed, if_pos hcontinuation]
    exact ih h
  | case5 q b s hpair hend hcontinuation ih =>
    have hfeed : b ≠ Byte.lineFeed := by
      rintro rfl
      exact hend rfl
    rw [lag_cons, if_neg hfeed, if_neg hcontinuation]
    exact ih (nextColumn_le h)

/-! ## Places carried over from a field -/

theorem inField_le (start : Position) (h : p ≤ q) : start.inField p ≤ start.inField q := by
  rcases h with h | ⟨hline, hcolumn⟩
  · refine .inl ?_
    simp only [inField]
    omega
  · refine .inr ⟨?_, ?_⟩ <;> simp only [inField, hline]
    split <;> omega

theorem one_le_line_inField {start : Position} (hstart : 1 ≤ start.line) (hp : 1 ≤ p.line) :
    1 ≤ (start.inField p).line := by
  simp only [inField]
  omega

theorem inField_nextColumn (start p : Position) :
    start.inField p.nextColumn = (start.inField p).nextColumn := by
  simp only [inField, nextColumn, Position.mk.injEq, true_and]
  split <;> omega

theorem inField_nextLine {start : Position} (hp : 1 ≤ p.line) :
    start.inField p.nextLine = (start.inField p).nextLine := by
  simp only [inField, nextLine, Position.mk.injEq]
  refine ⟨by omega, if_neg (by omega)⟩

/-- Carrying over goes along with walking. -/
theorem inField_advance {start : Position} (hp : 1 ≤ p.line) (s : Bytes) :
    start.inField (p.advance s) = (start.inField p).advance s := by
  fun_induction advance p s with
  | case1 p => rfl
  | case2 p b s hpair ih =>
    rw [advance, if_pos hpair]
    exact ih hp
  | case3 p b s hpair hend ih =>
    rw [advance, if_neg hpair, if_pos hend, ← inField_nextLine hp]
    exact ih (Int.le_add_one hp)
  | case4 p b s hpair hend hcontinuation ih =>
    rw [advance, if_neg hpair, if_neg hend, if_pos hcontinuation]
    exact ih hp
  | case5 p b s hpair hend hcontinuation ih =>
    rw [advance, if_neg hpair, if_neg hend, if_neg hcontinuation, ← inField_nextColumn]
    exact ih hp

/-- A field begins one column behind the place of its opening brace. -/
theorem nextColumn_inField_origin (p : Position) : p.nextColumn.inField origin = p := by
  obtain ⟨line, column⟩ := p
  simp only [inField, nextColumn, origin, Position.mk.injEq, ↓reduceIte]
  omega

/-- A field that stands within a literal, in parentheses of its own, ends within the literal. -/
theorem inField_le_advance {p : Position} (hp : 1 ≤ p.line) {front source behind : Bytes}
    {stop : Byte} (hstop : stop.isColumn) :
    (p.lag (front ++ [Byte.openBrace])).inField
        (origin.advance (SyntaxTree.text "(" ++ source ++ SyntaxTree.text ")")) ≤
      p.advance (front ++ Byte.openBrace :: (source ++ stop :: behind)) := by
  have hplace : p.lag (front ++ [Byte.openBrace]) = (p.lag front).nextColumn :=
    lag_append_column (by decide) p front
  have hline : 1 ≤ (p.lag front).line := Int.le_trans hp (line_le_of_le (le_lag p front))
  have hfield : (p.lag (front ++ [Byte.openBrace])).inField
      (origin.advance (SyntaxTree.text "(" ++ source ++ SyntaxTree.text ")")) =
        ((p.lag front).nextColumn.advance source).nextColumn := by
    rw [hplace, inField_advance (Int.le_refl 1), nextColumn_inField_origin,
      show SyntaxTree.text ")" = [ascii ')'] from rfl, advance_append_column (by decide),
      show SyntaxTree.text "(" ++ source = ascii '(' :: source from rfl,
      advance_column (by decide)]
  have hbrace : PartsNoLineEnd front (Byte.openBrace :: (source ++ stop :: behind)) := by
    rintro - hfeed
    exact absurd (Option.some.inj hfeed) (by decide)
  have hsplit : source ++ stop :: behind = source ++ [stop] ++ behind := by simp
  have hbehind : PartsNoLineEnd (source ++ [stop]) behind := by
    rw [PartsNoLineEnd, List.getLast?_concat]
    rintro hreturn
    obtain rfl : stop = Byte.carriageReturn := Option.some.inj hreturn
    exact absurd hstop (by decide)
  rw [hfield, advance_append hbrace, advance_column (by decide), hsplit]
  refine le_trans ?_ (advance_le_append hbehind _)
  rw [advance_append_column hstop]
  exact nextColumn_le (advance_mono (nextColumn_le (lag_le_advance (le_refl p) front)) source)

end Position

/-- The place of an offset in a token's text is where a walk with line feeds alone leads. -/
theorem Token.placeAt_eq (offset : Nat) (t : Token) :
    t.placeAt offset = t.start.lag (t.text.take offset) := rfl

end SyntaxTree
