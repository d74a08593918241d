import SyntaxTree.Proofs.Render.Tree
import SyntaxTree.Proofs.Token.Block

/-
# Written expressions close their brackets

What is written for a tree of operators holds as many closing brackets as opening ones, each behind
its own, so that a line goes on behind it as it began.
-/

namespace SyntaxTree

/-! ## Words of a text -/

/-- The words of lexemes are determined. -/
theorem WordLine.unique {ls : List Lexeme} {ws ws' : List Word} (h : WordLine ls ws)
    (h' : WordLine ls ws') : ws = ws' := by
  induction h generalizing ws' with
  | nil =>
    cases h'
    rfl
  | blank s _ ih =>
    cases h' with
    | blank _ h' => exact ih h'
  | @token ls ws w hw _ ih =>
    generalize hl : (⟨.token w.kind, w.text⟩ : Lexeme) = l at h'
    cases h' with
    | blank => cases hl
    | @token _ ws' w' hw' h' =>
      obtain ⟨kind, s⟩ := w
      obtain ⟨kind', s'⟩ := w'
      cases hl
      rw [ih h']

/-- The words of a text are determined. -/
theorem Divides.unique {s rest : Bytes} {ws ws' : List Word} (h : Divides s rest ws)
    (h' : Divides s rest ws') : ws = ws' := by
  obtain ⟨ls, hls, hws⟩ := h
  obtain ⟨ls', hls', hws'⟩ := h'
  have hlexemes (ls : List Lexeme) (d : Division) :
      (ls.foldr Division.cons d).lexemes = ls ++ d.lexemes := by
    induction ls with
    | nil => rfl
    | cons l ls ih => exact congrArg (l :: ·) ih
  have heq := congrArg Division.lexemes (hls.symm.trans hls')
  rw [hlexemes, hlexemes] at heq
  exact hws.unique (List.append_cancel_right heq ▸ hws')

theorem Spells.unique {dotted dotted' : Bool} {s : Bytes} {ws ws' : List Word}
    (h : Spells dotted s ws) (h' : Spells dotted' s ws') : ws = ws' :=
  (h.divides [] nofun).unique (h'.divides [] nofun)

/-- Words none of which is a bracket. -/
theorem ClosesBrackets.of_forall {ws : List Word}
    (h : ∀ w ∈ ws, w.kind.isOpening = false ∧ w.kind.isClosing = false) : ClosesBrackets ws := by
  induction ws with
  | nil => exact .nil
  | cons w ws ih =>
    obtain ⟨hw, hws⟩ := List.forall_mem_cons.mp h
    exact .cons hw.1 hw.2 (ih hws)

/-! ## Closed texts -/

/-- The text of an operand whose words close their brackets. -/
def IsClosed (dotted : Bool) (s : Bytes) : Prop := ∃ ws, Spells dotted s ws ∧ ClosesBrackets ws

namespace IsClosed

variable {dotted dotted' : Bool} {s l r : Bytes} {sign : List Word}

theorem undotted (h : IsClosed dotted s) : IsClosed false s := by
  obtain ⟨ws, hs, hws⟩ := h
  exact ⟨ws, hs.undotted, hws⟩

theorem of_true (h : IsClosed true s) (dotted : Bool) : IsClosed dotted s := by
  obtain ⟨ws, hs, hws⟩ := h
  exact ⟨ws, hs.of_true dotted, hws⟩

theorem parenthesized (h : IsClosed dotted s) : IsClosed true (parenthesize s) := by
  obtain ⟨ws, hs, hws⟩ := h
  exact ⟨_, hs.parenthesized, .bracketed rfl rfl hws⟩

/-- Two closed texts and what stands between them. -/
theorem separated (hl : IsClosed dotted l) (hs : Separates s sign) (hsign : ClosesBrackets sign)
    (hr : IsClosed dotted' r) : IsClosed dotted' (l ++ s ++ r) := by
  obtain ⟨ws, hl, hws⟩ := hl
  obtain ⟨ws', hr, hws'⟩ := hr
  exact ⟨_, hl.separated hs hr, hws.append (hsign.append hws')⟩

/-- A closed text behind its opening. -/
theorem opened (hs : Opening s sign) (hsign : ClosesBrackets sign) (hr : IsClosed dotted r) :
    IsClosed dotted (s ++ r) := by
  obtain ⟨ws, hr, hws⟩ := hr
  exact ⟨_, hr.opened hs, hsign.append hws⟩

/-- Closed texts with the same sign between each two. -/
theorem joined (hs : Separates s sign) (hsign : ClosesBrackets sign) {items : List Bytes}
    (hne : items ≠ []) (h : ∀ item ∈ items, IsClosed false item) :
    IsClosed false (Bytes.joinWith s items) := by
  induction items with
  | nil => exact absurd rfl hne
  | cons item items ih =>
    obtain ⟨hitem, hitems⟩ := List.forall_mem_cons.mp h
    cases items with
    | nil => exact hitem
    | cons next items =>
      rw [Bytes.joinWith]
      · exact hitem.separated hs hsign (ih (List.cons_ne_nil _ _) hitems)
      · rintro ⟨⟩

/-- Closed texts between parentheses behind a closed text, whether there are any or not. -/
theorem called (hl : IsClosed dotted l) {items : List Bytes}
    (h : ∀ item ∈ items, IsClosed false item) :
    IsClosed true (l ++ parenthesize (commaSeparated items)) := by
  obtain ⟨ws, hspells, hws⟩ := hl
  by_cases hne : items = []
  · subst hne
    exact ⟨_, hspells.emptyCall, hws.append (.bracketed rfl rfl .nil)⟩
  · obtain ⟨ws', hspells', hws'⟩ := joined .comma (.single rfl rfl) hne h
    exact ⟨_, hspells.call hspells', hws.append (.bracketed rfl rfl hws')⟩

end IsClosed

/-! ## Closed expressions -/

/-- An expression whose text is closed at every place, also as the index of a subscript. -/
structure Expr.Closes (quote : Byte) (e : Expr) : Prop where
  inside : ∀ p : Precedence, IsClosed (p == .atom && !e.isInteger) (e.write quote p)
  index : IsClosed false (e.writeIndex quote)

namespace Expr.Closes

variable {quote : Byte} {span : Span} {shape : Shape} {dotted : Bool} {p : Precedence}

/-- The text of a shape is closed in parentheses if it is so without them. -/
theorem inside_of_shape (hshape : shape.precedence = p) (h : IsClosed dotted (shape.write quote))
    (hdotted : p = .atom → dotted = !(Expr.node span shape).isInteger) (q : Precedence) :
    IsClosed (q == .atom && !(Expr.node span shape).isInteger)
      (Expr.write quote q (.node span shape)) := by
  by_cases hq : q ≤ p
  · rw [write_of_le (by rw [hshape]; exact hq)]
    by_cases hatom : q = .atom
    · subst hatom
      rw [beq_self_eq_true, Bool.true_and, ← hdotted (Precedence.eq_atom_of_le hq)]
      exact h
    · rw [show (q == .atom) = false by simpa using hatom, Bool.false_and]
      exact h.undotted
  · rw [write_of_lt (by rw [hshape]; exact Nat.not_le.mp hq)]
    exact h.parenthesized.of_true _

theorem of_shape (hshape : shape.precedence = p) (htest : .test ≤ p)
    (h : IsClosed dotted (shape.write quote))
    (hdotted : p = .atom → dotted = !(Expr.node span shape).isInteger) :
    Closes quote (.node span shape) where
  inside := inside_of_shape hshape h hdotted
  index := by
    rw [writeIndex_eq (by rw [hshape]; exact htest)]
    exact h.undotted

/-- An atom other than an integer. -/
theorem of_atom (hshape : shape.precedence = .atom)
    (hinteger : (Expr.node span shape).isInteger = false) (h : IsClosed true (shape.write quote)) :
    Closes quote (.node span shape) :=
  of_shape hshape (by decide) h fun _ => by rw [hinteger]; rfl

end Expr.Closes

/-- The further comparisons of a chain are closed. -/
theorem IsClosed.comparisons {quote : Byte} {l : Bytes} {rest : List Comparison}
    (hl : IsClosed false l) (h : ∀ op e, .mk op e ∈ rest → e.Closes quote) :
    IsClosed false (l ++ Comparison.writeAll quote rest) := by
  induction rest generalizing l with
  | nil =>
    rw [Comparison.writeAll, List.append_nil]
    exact hl
  | cons c rest ih =>
    obtain ⟨op, e⟩ := c
    obtain ⟨sign, hsign, hkinds⟩ := op.exists_signs
    have hbrackets : ∀ kind ∈ op.kinds, kind.isOpening = false ∧ kind.isClosing = false := by
      cases op <;> decide
    have hclosed : ClosesBrackets sign := .of_forall fun w hw =>
      hbrackets w.kind (hkinds ▸ List.mem_map_of_mem hw)
    have hfirst := hl.separated hsign.spaced hclosed ((h op e (by simp)).inside .bitOr).undotted
    have hrest := ih hfirst fun op' e' he' => h op' e' (List.mem_cons_of_mem _ he')
    rw [Comparison.writeAll]
    simpa using hrest

/-- The items of a tuple are closed. -/
theorem IsClosed.tupleText {items : List Bytes} (hne : items ≠ [])
    (h : ∀ item ∈ items, IsClosed false item) : IsClosed false (tupleText items) := by
  obtain ⟨ws, hspells, hws⟩ := joined .comma (.single rfl rfl) hne h
  rw [SyntaxTree.tupleText]
  split
  · exact ⟨_, (hspells.closed .comma).undotted, hws.append (.single rfl rfl)⟩
  · rw [List.append_nil]
    exact ⟨ws, hspells, hws⟩

/-- What is written for a tree of operators is closed. -/
theorem Expr.IsOperatorTree.closes {e : Expr} (h : e.IsOperatorTree) (quote : Byte) :
    e.Closes quote := by
  have hall {p : Precedence} {es : List Expr} (h : ∀ e ∈ es, e.Closes quote) :
      ∀ item ∈ Expr.writeAll quote p es, IsClosed false item := by
    rw [writeAll_eq_map]
    exact List.forall_mem_map.mpr fun e he => ((h e he).inside p).undotted
  have hne {p : Precedence} {es : List Expr} (h : es ≠ []) : Expr.writeAll quote p es ≠ [] := by
    rw [writeAll_eq_map]
    simpa using h
  -- Each shape is closed at its own level; a tighter place puts it in parentheses, which are
  -- closed too.
  induction h with
  | name span hid => exact .of_atom rfl rfl ⟨_, .name hid, .single rfl rfl⟩
  | integer span hdigits =>
    exact .of_shape (p := .atom) rfl (by decide) ⟨_, .integer hdigits, .single rfl rfl⟩ fun _ => rfl
  | boolean span op hlength _ ih =>
    refine .of_shape (p := op.precedence) rfl (by cases op <;> decide) (.joined op.signs.spaced
      (.single (by cases op <;> rfl) (by cases op <;> rfl)) (hne ?_) (hall ih)) ?_
    · rintro rfl
      simp at hlength
    · intro hatom
      cases op <;> exact nomatch hatom
  | binary span op _ _ ihl ihr =>
    have hclosed := (ihl.inside op.leftPrecedence).separated op.signs.spaced
      (.single (by cases op <;> rfl) (by cases op <;> rfl)) (ihr.inside op.rightPrecedence).undotted
    simp only [← List.append_assoc] at hclosed
    refine .of_shape (p := op.precedence) rfl (by cases op <;> decide) hclosed ?_
    intro hatom
    cases op <;> exact nomatch hatom
  | unary span op _ ih =>
    refine .of_shape (p := op.precedence) rfl (by cases op <;> decide) (.opened op.opening
      (.single (by cases op <;> rfl) (by cases op <;> rfl)) (ih.inside op.precedence).undotted) ?_
    intro hatom
    cases op <;> exact nomatch hatom
  | compare span _ hrest _ ihl ih =>
    exact .of_shape (p := .comparison) rfl (by decide) ((ihl.inside .bitOr).undotted.comparisons ih)
      nofun
  | conditional span _ _ _ ihtest ihbody ihorelse =>
    have hif : Signs (text "if") [⟨.kwIf, text "if"⟩] := .keyword ⟨_, _, rfl, rfl, rfl⟩ rfl
    have helse : Signs (text "else") [⟨.kwElse, text "else"⟩] := .keyword ⟨_, _, rfl, rfl, rfl⟩ rfl
    exact .of_shape (p := .test) rfl (by decide) (((ihbody.inside .or).separated hif.spaced
      (.single rfl rfl) (ihtest.inside .or)).separated helse.spaced (.single rfl rfl)
      (ihorelse.inside .test)) nofun
  | lambda span _ ih =>
    exact .of_shape (p := .test) rfl (by decide)
      (.opened .lambda (.cons rfl rfl (.single rfl rfl)) (ih.inside .test)) nofun
  | await span _ ih =>
    have hopening : Opening (text "await" ++ text " ") [⟨.kwAwait, text "await"⟩] :=
      .word ⟨_, _, rfl, rfl, rfl⟩
    exact .of_shape (p := .await) rfl (by decide)
      (.opened hopening (.single rfl rfl) (ih.inside .atom).undotted) nofun
  | named span target hid _ ih =>
    have hsign : Signs (text ":=") [⟨.colonEqual, text ":="⟩] := .operator (by decide)
    have hclosed :=
      IsClosed.separated ⟨_, .name hid, .single rfl rfl⟩ hsign.spaced (.single rfl rfl)
      (ih.inside .test)
    exact ⟨Closes.inside_of_shape (p := .named) rfl hclosed nofun, hclosed.parenthesized.undotted⟩
  | @tuple span elements _ ih =>
    by_cases hempty : elements = []
    · subst hempty
      exact .of_atom rfl rfl ⟨_, .emptyParentheses, .bracketed rfl rfl .nil⟩
    · have hclosed := IsClosed.tupleText (hne hempty) (hall (p := .test) ih)
      obtain ⟨e, es, rfl⟩ := List.exists_cons_of_ne_nil hempty
      exact ⟨Closes.inside_of_shape (p := .tuple) rfl hclosed nofun, hclosed⟩
  | @«attribute» span value name _ hname ih =>
    have hvalue : IsClosed true (parenthesizeIf value.isInteger (value.write quote .atom)) := by
      have hinside := ih.inside .atom
      cases hinteger : value.isInteger with
      | false =>
        rw [hinteger] at hinside
        exact hinside
      | true => exact hinside.parenthesized
    obtain ⟨ws, hspells, hws⟩ := hvalue
    exact .of_atom rfl rfl
      ⟨_, hspells.attribute hname, hws.append (.cons rfl rfl (.single rfl rfl))⟩
  | call span _ _ ih iharguments =>
    have hcall := (ih.inside .atom).called (hall (p := .test) iharguments)
    refine .of_atom rfl rfl ?_
    rw [Shape.write, Keyword.writeAll, List.append_nil]
    exact hcall
  | subscript span _ _ ih ihindex =>
    obtain ⟨ws, hspells, hws⟩ := ih.inside .atom
    obtain ⟨ws', hspells', hws'⟩ := ihindex.index
    exact .of_atom rfl rfl ⟨_, hspells.subscript hspells', hws.append (.bracketed rfl rfl hws')⟩

end SyntaxTree
