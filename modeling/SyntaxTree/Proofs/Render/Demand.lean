import SyntaxTree.Proofs.Render.Bare
import SyntaxTree.Proofs.Render.Operator
import SyntaxTree.Token.Kind

/-
# What expressions demand of a text

However an expression is written, some tokens must be there for it to be read: an opening
parenthesis for each operand that binds more loosely than its place demands and for each call, and a
point for each attribute.  An integer whose attribute is taken demands a parenthesis too, unless a
blank keeps the point apart from the digits.
-/

namespace SyntaxTree

/-! ## Weights -/

/-- What opening parentheses and the points of attributes count. -/
structure Weight where
  paren : Nat
  point : Nat

namespace Weight

/-- Only parentheses count. -/
def parens : Weight := ⟨1, 0⟩

/-- Only points count. -/
def points : Weight := ⟨0, 1⟩

@[simp]
theorem paren_parens : parens.paren = 1 := rfl

@[simp]
theorem point_parens : parens.point = 0 := rfl

@[simp]
theorem paren_points : points.paren = 0 := rfl

@[simp]
theorem point_points : points.point = 1 := rfl

variable (w : Weight)

/-- What a token counts. -/
def ofKind : TokenKind → Nat
  | .openParen => w.paren
  | .dot => w.point
  | _ => 0

/-- What a token counts in front of others: an integer that stands apart from a point behind it
counts like a parenthesis. -/
def ofNext (kind : TokenKind) (rest : List TokenKind) : Nat :=
  w.ofKind kind + if kind = .integer ∧ rest.head? = some .dot then w.paren else 0

/-- What tokens supply. -/
def supply : List TokenKind → Nat
  | [] => 0
  | kind :: rest => w.ofNext kind rest + supply rest

theorem ofKind_le_ofNext (kind : TokenKind) (rest : List TokenKind) :
    w.ofKind kind ≤ w.ofNext kind rest :=
  Nat.le_add_right _ _

/-- Fewer tokens ahead supply less. -/
theorem supply_le_of_suffix {kinds kinds' : List TokenKind} (h : kinds' <:+ kinds) :
    w.supply kinds' ≤ w.supply kinds := by
  obtain ⟨taken, rfl⟩ := h
  induction taken with
  | nil => exact Nat.le_refl _
  | cons kind taken ih =>
    rw [List.cons_append, supply]
    omega

/-- Tokens in front of others supply what they do alone, unless an integer meets a point. -/
theorem supply_append {kinds kinds' : List TokenKind}
    (h : kinds.getLast? ≠ some .integer ∨ kinds'.head? ≠ some .dot) :
    w.supply (kinds ++ kinds') = w.supply kinds + w.supply kinds' := by
  induction kinds with
  | nil => simp [supply]
  | cons kind kinds ih =>
    cases kinds with
    | nil =>
      have hmeet : ¬ (kind = .integer ∧ kinds'.head? = some .dot) := by
        rintro ⟨rfl, hdot⟩
        exact h.elim (· rfl) (· hdot)
      simp [supply, ofNext, hmeet]
    | cons next kinds =>
      rw [List.getLast?_cons_cons] at h
      -- What a token counts depends on the next token only, which stays the same.
      calc w.supply (kind :: next :: (kinds ++ kinds'))
          = w.ofNext kind (next :: kinds) + w.supply (next :: kinds ++ kinds') := rfl
        _ = w.supply (kind :: next :: kinds) + w.supply kinds' := by
          rw [ih h, ← Nat.add_assoc]
          rfl

end Weight

/-! ## Demands -/

mutual

/-- What an expression demands at a place.  Only those that bind like a test or more strongly demand
parentheses around them: others may have a place where they need none. -/
def Expr.demand (w : Weight) (p : Precedence) : Expr → Nat
  | .node _ shape =>
    (if .test ≤ shape.precedence ∧ ¬ p ≤ shape.precedence then w.paren else 0) + shape.demand w

/-- What the parts of an expression demand. -/
def Expr.Shape.demand (w : Weight) : Expr.Shape → Nat
  | .boolean op values => Expr.demandAll w op.operandPrecedence values
  | .binary op left right => left.demand w op.leftPrecedence + right.demand w op.rightPrecedence
  | .unary op operand => operand.demand w op.precedence
  | .lambda _ body => body.demand w .test
  | .conditional test body orelse =>
    body.demand w .or + test.demand w .or + orelse.demand w .test
  | .await value => value.demand w .atom
  | .compare left rest => left.demand w .bitOr + Comparison.demandAll w rest
  | .call callee arguments _ =>
    callee.demand w .atom + w.paren + Expr.demandAll w .test arguments
  | .attribute value _ _ =>
    value.demand w .atom + (if value.isInteger then w.paren else 0) + w.point
  | .subscript value index _ => value.demand w .atom + index.demand w .test
  | _ => 0

/-- What expressions demand at places of one precedence. -/
def Expr.demandAll (w : Weight) (p : Precedence) : List Expr → Nat
  | [] => 0
  | e :: rest => e.demand w p + Expr.demandAll w p rest

/-- What the further comparisons of a chain demand. -/
def Comparison.demandAll (w : Weight) : List Comparison → Nat
  | [] => 0
  | .mk _ operand :: rest => operand.demand w .bitOr + Comparison.demandAll w rest

end

variable (w : Weight)

/-- What one comparison of a chain demands. -/
def Comparison.demand : Comparison → Nat
  | .mk _ operand => operand.demand w .bitOr

theorem Comparison.demandAll_cons (comparison : Comparison) (rest : List Comparison) :
    Comparison.demandAll w (comparison :: rest) =
      comparison.demand w + Comparison.demandAll w rest := by
  cases comparison
  rfl

theorem Expr.demandAll_cons (p : Precedence) (e : Expr) (es : List Expr) :
    Expr.demandAll w p (e :: es) = e.demand w p + Expr.demandAll w p es := rfl

theorem Expr.demandAll_append (p : Precedence) (es es' : List Expr) :
    Expr.demandAll w p (es ++ es') = Expr.demandAll w p es + Expr.demandAll w p es' := by
  induction es with
  | nil => exact (Nat.zero_add _).symm
  | cons e es ih => rw [List.cons_append, demandAll_cons, demandAll_cons, ih, Nat.add_assoc]

/-- Parentheses around an expression come on top of what its parts demand. -/
theorem Expr.demand_node (p : Precedence) (span : Span) (shape : Expr.Shape) :
    (Expr.node span shape).demand w p =
      (if .test ≤ shape.precedence ∧ ¬ p ≤ shape.precedence then w.paren else 0) +
        shape.demand w := rfl

/-- A place that demands less strength lets an expression demand less. -/
theorem Expr.demand_mono {p q : Precedence} (h : p ≤ q) (e : Expr) :
    e.demand w p ≤ e.demand w q := by
  obtain ⟨span, shape⟩ := e
  have hle : p ≤ shape.precedence ∨ ¬ q ≤ shape.precedence := by
    by_cases hq : q ≤ shape.precedence
    · exact .inl (Nat.le_trans h hq)
    · exact .inr hq
  rw [demand_node, demand_node]
  split <;> split <;> grind

/-- Around every expression there can be one pair of parentheses. -/
theorem Expr.demand_le_add_paren (p q : Precedence) (e : Expr) :
    e.demand w p ≤ e.demand w q + w.paren := by
  obtain ⟨span, shape⟩ := e
  rw [demand_node, demand_node]
  split <;> split <;> omega

/-- An expression at a place where it needs no parentheses demands what its parts do. -/
theorem Expr.demand_of_le {p : Precedence} {span : Span} {shape : Expr.Shape}
    (h : p ≤ shape.precedence) : (Expr.node span shape).demand w p = shape.demand w := by
  rw [demand_node, if_neg (fun hpair => hpair.2 h), Nat.zero_add]

/-- At the place of a list an expression demands what it does at that of a test. -/
theorem Expr.demand_tuple (e : Expr) : e.demand w .tuple = e.demand w .test := by
  obtain ⟨span, shape⟩ := e
  have hlist : ¬ (.test ≤ shape.precedence ∧ ¬ .tuple ≤ shape.precedence) :=
    fun h => h.2 (Nat.le_trans (show Precedence.tuple ≤ .test by decide) h.1)
  have htest : ¬ (.test ≤ shape.precedence ∧ ¬ .test ≤ shape.precedence) := fun h => h.2 h.1
  rw [demand_node, demand_node, if_neg hlist, if_neg htest]

/-- Displays, literals and what binds loosely demand nothing. -/
theorem Expr.demand_eq_zero {p : Precedence} {span : Span} {shape : Expr.Shape}
    (hdemand : shape.demand w = 0)
    (hplace : shape.precedence = .atom ∨ ¬ .test ≤ shape.precedence) :
    (Expr.node span shape).demand w p = 0 := by
  have hpair : ¬ (.test ≤ shape.precedence ∧ ¬ p ≤ shape.precedence) := by
    rintro ⟨htest, hp⟩
    rcases hplace with hatom | hloose
    · exact hp (hatom ▸ p.le_atom)
    · exact hloose htest
  rw [demand_node, if_neg hpair, hdemand]

/-- What an expression demands in front of a point. -/
def Expr.demandDotted (e : Expr) : Nat :=
  e.demand w .atom + if e.isInteger then w.paren else 0

theorem Expr.demand_le_demandDotted (p : Precedence) (e : Expr) :
    e.demand w p ≤ e.demandDotted w :=
  Nat.le_trans (e.demand_mono w p.le_atom) (Nat.le_add_right _ _)

/-- Nothing but an integer demands more in front of a point than elsewhere. -/
theorem Expr.demandDotted_of_not_isInteger {e : Expr} (h : e.isInteger = false) :
    e.demandDotted w = e.demand w .atom := by
  rw [demandDotted, h]
  rfl

/-- What an expression demands in front of a token. -/
def Expr.demandBefore (next : TokenKind) (e : Expr) : Nat :=
  if next = .dot then e.demandDotted w else e.demand w .atom

theorem Expr.demand_le_demandBefore (next : TokenKind) (e : Expr) :
    e.demand w .atom ≤ e.demandBefore w next := by
  unfold demandBefore
  split
  · exact e.demand_le_demandDotted w .atom
  · exact Nat.le_refl _

theorem Expr.demandBefore_le (next : TokenKind) (e : Expr) :
    e.demandBefore w next ≤ e.demandDotted w := by
  unfold demandBefore
  split
  · exact Nat.le_refl _
  · exact e.demand_le_demandDotted w .atom

/-- In parentheses an expression demands no more than without them, in front of a point too. -/
theorem Expr.demandDotted_le (e : Expr) : e.demandDotted w ≤ e.demand w .test + w.paren := by
  cases hinteger : e.isInteger with
  | false =>
    rw [demandDotted, hinteger, if_neg Bool.false_ne_true]
    exact e.demand_le_add_paren w .atom .test
  | true =>
    obtain ⟨span, shape⟩ := e
    have hatom : shape.precedence = .atom := by
      cases shape <;> first | rfl | exact nomatch hinteger
    refine Nat.le_of_eq ?_
    rw [demandDotted, hinteger, if_pos rfl, demand_of_le w (by rw [hatom]; decide),
      demand_of_le w (by rw [hatom]; decide)]

/-! ## Demands do not tell positions -/

mutual

theorem Expr.demand_bare (p : Precedence) : ∀ e : Expr, e.bare.demand w p = e.demand w p
  | .node _ shape => by
    rw [Expr.bare, Expr.demand_node, Expr.demand_node, Expr.Shape.demand_bare shape,
      Expr.Shape.precedence_bare]

theorem Expr.Shape.demand_bare : ∀ shape : Expr.Shape, shape.bare.demand w = shape.demand w
  | .boolean _ values => by
    simp only [Expr.Shape.bare, Expr.Shape.demand, Expr.demandAll_bare _ values]
  | .binary _ left right => by
    simp only [Expr.Shape.bare, Expr.Shape.demand, Expr.demand_bare _ left,
      Expr.demand_bare _ right]
  | .unary _ operand => by
    simp only [Expr.Shape.bare, Expr.Shape.demand, Expr.demand_bare _ operand]
  | .lambda _ body => by simp only [Expr.Shape.bare, Expr.Shape.demand, Expr.demand_bare _ body]
  | .conditional test body orelse => by
    simp only [Expr.Shape.bare, Expr.Shape.demand, Expr.demand_bare _ test,
      Expr.demand_bare _ body, Expr.demand_bare _ orelse]
  | .await value => by simp only [Expr.Shape.bare, Expr.Shape.demand, Expr.demand_bare _ value]
  | .compare left rest => by
    simp only [Expr.Shape.bare, Expr.Shape.demand, Expr.demand_bare _ left,
      Comparison.demandAll_bare rest]
  | .call callee arguments _ => by
    simp only [Expr.Shape.bare, Expr.Shape.demand, Expr.demand_bare _ callee,
      Expr.demandAll_bare _ arguments]
  | .attribute value _ _ => by
    simp only [Expr.Shape.bare, Expr.Shape.demand, Expr.demand_bare _ value, Expr.isInteger_bare]
  | .subscript value index _ => by
    simp only [Expr.Shape.bare, Expr.Shape.demand, Expr.demand_bare _ value,
      Expr.demand_bare _ index]
  | .name .. | .constant _ | .named .. | .dict _ | .set _ | .list .. | .tuple .. | .listComp ..
  | .setComp .. | .dictComp .. | .generator .. | .yield _ | .yieldFrom _ | .field .. | .fstring _
  | .starred .. | .slice .. => rfl

theorem Expr.demandAll_bare (p : Precedence) :
    ∀ es : List Expr, Expr.demandAll w p (Expr.bareAll es) = Expr.demandAll w p es
  | [] => rfl
  | e :: es => by
    rw [Expr.bareAll, Expr.demandAll_cons, Expr.demandAll_cons, Expr.demand_bare p e,
      Expr.demandAll_bare p es]

theorem Comparison.demandAll_bare : ∀ rest : List Comparison,
    Comparison.demandAll w (Comparison.bareAll rest) = Comparison.demandAll w rest
  | [] => rfl
  | .mk _ operand :: rest => by
    rw [Comparison.bareAll, Comparison.demandAll, Comparison.demandAll,
      Expr.demand_bare _ operand, Comparison.demandAll_bare rest]

end

end SyntaxTree
