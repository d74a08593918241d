import SyntaxTree.Grammar.Pattern
import SyntaxTree.Proofs.Rename.Mirror

/-
# Lists side by side

Keys and values, keys and patterns, names and patterns, and parameters and their defaults are added
to two lists each.  Whatever is read between the one and the other, every loop that fills such lists
gives lists that are equally long, so that nothing is lost when they are put together.
-/

namespace SyntaxTree.Parse

/-! ## Columns -/

namespace Columns

variable {α β γ δ : Type} {columns : Columns α β}

/-- Both lists are equally long. -/
def Agree (columns : Columns α β) : Prop := columns.left.length = columns.right.length

/-- One more row, its left side first. -/
theorem Agree.add (h : columns.Agree) (a : α) (b : β) :
    ((columns.addLeft a).addRight b).Agree := by
  simpa [Agree, addLeft, addRight] using h

theorem forall_rows {p : α → Prop} {q : β → Prop} (hleft : ∀ a ∈ columns.left, p a)
    (hright : ∀ b ∈ columns.right, q b) : ∀ row ∈ columns.rows, p row.1 ∧ q row.2 :=
  fun row hrow => ⟨hleft row.1 (List.of_mem_zip hrow).1, hright row.2 (List.of_mem_zip hrow).2⟩

/-- Columns with another entry for each one. -/
def map (f : α → γ) (g : β → δ) (columns : Columns α β) : Columns γ δ :=
  ⟨columns.left.map f, columns.right.map g⟩

@[simp]
theorem left_map (f : α → γ) (g : β → δ) (columns : Columns α β) :
    (columns.map f g).left = columns.left.map f := rfl

@[simp]
theorem rows_map (f : α → γ) (g : β → δ) (columns : Columns α β) :
    (columns.map f g).rows = columns.rows.map (Prod.map f g) :=
  List.zip_map ..

@[simp]
theorem map_addLeft (f : α → γ) (g : β → δ) (columns : Columns α β) (a : α) :
    (columns.addLeft a).map f g = (columns.map f g).addLeft (f a) := by
  simp [map, addLeft]

@[simp]
theorem map_addRight (f : α → γ) (g : β → δ) (columns : Columns α β) (b : β) :
    (columns.addRight b).map f g = (columns.map f g).addRight (g b) := by
  simp [map, addRight]

/-- Rows taken apart. -/
def ofRows (rows : List (α × β)) : Columns α β := ⟨rows.map Prod.fst, rows.map Prod.snd⟩

theorem rows_ofRows (rows : List (α × β)) : (ofRows rows).rows = rows := by
  rw [Columns.rows, ofRows, List.zip_map', List.map_id']

theorem ofRows_concat (rows : List (α × β)) (a : α) (b : β) :
    ofRows (rows ++ [(a, b)]) = ((ofRows rows).addLeft a).addRight b := by
  simp [ofRows, addLeft, addRight]

/-- Columns whose entries become those of some rows have rows that become them. -/
theorem map_rows_of_map_eq {f : α → γ} {g : β → δ} {rows : List (γ × δ)}
    (h : columns.map f g = ofRows rows) : columns.rows.map (Prod.map f g) = rows := by
  rw [← rows_map, h, rows_ofRows]

end Columns

/-! ## Chains of comparisons -/

/-- What a loop makes of an item that may be there: it is added, or the loop is done. -/
def addFound {σ ι : Type} (add : σ → ι → σ) (s : σ) : Option ι → ForInStep σ
  | none => .done s
  | some a => .yield (add s a)

/-- A loop that adds what it finds to a state finds it all and adds it. -/
theorem iterate_eq_collect {σ ι : Type} {item : Parse (Option ι)} {add : σ → ι → σ}
    {step : σ → Parse (ForInStep σ)} (hstep : ∀ s, step s = addFound add s <$> item) (s : σ) :
    iterate step s = (fun items => items.foldl add s) <$> collect item := by
  have hupto (limit : Nat) : ∀ s, iterateUpTo step limit s =
      (fun items => items.foldl add s) <$> collectUpTo item limit := by
    induction limit with
    | zero => exact fun _ => rfl
    | succ limit ih =>
      intro s
      rw [iterateUpTo, collectUpTo, hstep, map_eq_pure_bind, bind_assoc, map_bind]
      refine congrArg (item >>= ·) (funext fun o => ?_)
      cases o with
      | none => rfl
      | some a =>
        simp only [addFound, pure_bind, ih, map_eq_pure_bind, bind_assoc]
        rfl
  funext c
  exact congrFun (hupto (c.rest.length + 1) s) c

/-- A further comparison of a chain, if one follows. -/
def furtherComparison (operand : Parse Expr) : Parse (Option Comparison) := do
  match ← compareOperator with
  | some op => return some (.mk op (← operand))
  | none => return none

/-- The operator of a comparison beside its operand. -/
def Comparison.row : Comparison → CompareOperator × Expr
  | .mk op operand => (op, operand)

/-- Another comparison of a chain. -/
def addComparison (chain : Columns CompareOperator Expr) : Comparison → Columns CompareOperator Expr
  | .mk op operand => (chain.addLeft op).addRight operand

theorem foldl_addComparison (rest : List Comparison) (rows : List (CompareOperator × Expr)) :
    rest.foldl addComparison (.ofRows rows) = .ofRows (rows ++ rest.map Comparison.row) := by
  induction rest generalizing rows with
  | nil => rw [List.map_nil, List.append_nil, List.foldl_nil]
  | cons further rest ih =>
    obtain ⟨op, operand⟩ := further
    have hadd : addComparison (.ofRows rows) (.mk op operand) = .ofRows (rows ++ [(op, operand)]) :=
      (Columns.ofRows_concat ..).symm
    rw [List.foldl_cons, hadd, ih, List.append_assoc]
    rfl

theorem comparisonStep_eq (operand : Parse Expr) (chain : Columns CompareOperator Expr) :
    comparisonStep operand chain = addFound addComparison chain <$> furtherComparison operand := by
  rw [comparisonStep, furtherComparison, map_bind]
  refine congrArg (compareOperator >>= ·) (funext fun op => ?_)
  cases op with
  | none => rfl
  | some op => simp only [map_bind, map_pure, addFound, addComparison]

/-- A chain is read comparison by comparison. -/
theorem comparison_eq (read : Reading) (field : FieldReading) :
    comparison read field = (do
      let left ← bitOr read field
      let rest ← collect (furtherComparison (bitOr read field))
      if rest.length = 0 then return left
      else exprFrom left.span.start (.compare left rest)) := by
  refine congrArg (bitOr read field >>= ·) (funext fun left => ?_)
  rw [iterate_eq_collect (comparisonStep_eq _), map_eq_pure_bind, bind_assoc]
  refine congrArg (collect _ >>= ·) (funext fun rest => ?_)
  have hchain : rest.foldl addComparison .empty = .ofRows (rest.map Comparison.row) :=
    foldl_addComparison rest []
  have hrest : (rest.map Comparison.row).map (fun row => Comparison.mk row.1 row.2) = rest := by
    have hback : (fun row => Comparison.mk row.1 row.2) ∘ Comparison.row = id :=
      funext fun ⟨_, _⟩ => rfl
    rw [List.map_map, hback, List.map_id]
  rw [pure_bind, hchain, Columns.rows_ofRows, hrest, Columns.ofRows, List.map_map, List.length_map]

/-! ## Loops that fill columns -/

section Loops

variable {σ : Type} {I : σ → Prop}

/-- What each step keeps is kept by the loop. -/
theorem Yields.iterate {step : σ → Parse (ForInStep σ)}
    (hstep : ∀ s, I s → Yields (fun r => I r.value) (step s)) {s : σ} (hs : I s) :
    Yields I (Parse.iterate step s) := by
  have hupto (limit : Nat) : ∀ s, I s → Yields I (iterateUpTo step limit s) := by
    induction limit with
    | zero => exact fun s _ => of_fails (fails_failHere _)
    | succ limit ih =>
      refine fun s hs => (hstep s hs).andThen fun r hr => ?_
      cases r with
      | done s' => exact pure hr
      | yield s' => exact ih s' hr
  exact fun c a c' hrun => hupto (c.rest.length + 1) s hs hrun

/-- What is kept by taking a piece is kept by taking it with its comma. -/
theorem Yields.pieceStep {take : σ → Parse σ} (h : ∀ s, I s → Yields I (take s))
    (close : TokenKind) (s : σ) (hs : I s) :
    Yields (fun r => I r.value) (Parse.pieceStep close take s) :=
  bind fun _ =>
    ite (pure hs) ((h s hs).andThen fun _ hs' => bind fun _ => ite (pure hs') (pure hs'))

end Loops

section Drafts

variable (read : Reading) (inner : Parse Pattern) (field : FieldReading)

end Drafts

end SyntaxTree.Parse
