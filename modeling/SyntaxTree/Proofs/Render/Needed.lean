import SyntaxTree.Proofs.Render.Marked
import SyntaxTree.Proofs.Render.Offer
import SyntaxTree.Unicode.NameTable

/-
# All parentheses are needed

Where pairs of parentheses are left out of the text of an operation, what is left supplies fewer of
them than the operation demands.  So it cannot be read as the same operation: it is no expression,
or it is another one.
-/

namespace SyntaxTree

/-! ## Operations -/

/-- Trees of names, integers, operators, conditional expressions, lambdas without parameters,
attributes, calls with positional arguments and subscripts. -/
inductive Expr.IsOperation : Expr → Prop where
  | name (span : Span) {id : Bytes} (hid : IsName id) (context : Context) :
    IsOperation (.node span (.name id context))
  | integer (span : Span) {digits : Bytes} (hdigits : Number.IsCanonical digits) :
    IsOperation (.node span (.constant (.integer digits)))
  | boolean (span : Span) (op : BoolOperator) {values : List Expr} (hlength : 2 ≤ values.length)
    (h : ∀ e ∈ values, e.IsOperation) : IsOperation (.node span (.boolean op values))
  | binary (span : Span) (op : BinaryOperator) {left right : Expr} (hl : left.IsOperation)
    (hr : right.IsOperation) : IsOperation (.node span (.binary op left right))
  | unary (span : Span) (op : UnaryOperator) {operand : Expr} (h : operand.IsOperation) :
    IsOperation (.node span (.unary op operand))
  | compare (span : Span) {left : Expr} {rest : List Comparison} (hl : left.IsOperation)
    (h : ∀ op e, .mk op e ∈ rest → e.IsOperation) : IsOperation (.node span (.compare left rest))
  | conditional (span : Span) {test body orelse : Expr} (htest : test.IsOperation)
    (hbody : body.IsOperation) (horelse : orelse.IsOperation) :
    IsOperation (.node span (.conditional test body orelse))
  | lambda (span : Span) {body : Expr} (h : body.IsOperation) :
    IsOperation (.node span (.lambda (.mk [] [] none [] none []) body))
  | await (span : Span) {value : Expr} (h : value.IsOperation) :
    IsOperation (.node span (.await value))
  | «attribute» (span : Span) {value : Expr} {name : Bytes} (h : value.IsOperation)
    (hname : IsName name) (context : Context) :
    IsOperation (.node span (.attribute value name context))
  | call (span : Span) {callee : Expr} {arguments : List Expr} (h : callee.IsOperation)
    (harguments : ∀ e ∈ arguments, e.IsOperation) :
    IsOperation (.node span (.call callee arguments []))
  | subscript (span : Span) {value index : Expr} (h : value.IsOperation)
    (hindex : index.IsOperation) (context : Context) :
    IsOperation (.node span (.subscript value index context))

/-! ## Marked texts -/

namespace Marked

/-- Whatever is left out of a marked text, what is left supplies as many parentheses less. -/
def Demands (m : Marked) (parens points : Nat) : Prop :=
  ∀ ⦃n s⦄, m.Omits n s → ∃ k, k + n = parens ∧ Offers k points s

variable {m m' m'' : Marked} {n n' q q' c : Nat} {s : Bytes}

theorem Omits.exists_append (h : (m ++ m').Omits n s) :
    ∃ i j t t', m.Omits i t ∧ m'.Omits j t' ∧ n = i + j ∧ s = t ++ t' := by
  cases h with
  | append h h' => exact ⟨_, _, _, _, h, h', rfl, rfl⟩

theorem Omits.eq_plain {t : Bytes} (h : (Marked.plain t).Omits n s) : n = 0 ∧ s = t := by
  cases h
  exact ⟨rfl, rfl⟩

namespace Demands

theorem plain (h : Offers n q s) : (Marked.plain s).Demands n q := by
  intro i t homits
  obtain ⟨rfl, rfl⟩ := homits.eq_plain
  exact ⟨n, rfl, h⟩

theorem assoc (h : (m ++ m' ++ m'').Demands n q) : (m ++ (m' ++ m'')).Demands n q := by
  intro i t homits
  obtain ⟨i₁, j, t₁, r, h₁, hr, rfl, rfl⟩ := homits.exists_append
  obtain ⟨i₂, i₃, t₂, t₃, h₂, h₃, rfl, rfl⟩ := hr.exists_append
  rw [← Nat.add_assoc, ← List.append_assoc]
  exact h (.append (.append h₁ h₂) h₃)

theorem before (h : m.Demands n q) (hs : OffersBefore c 0 s) :
    (Marked.plain s ++ m).Demands (c + n) q := by
  intro i t homits
  obtain ⟨_, j, _, r, hplain, hr, rfl, rfl⟩ := homits.exists_append
  obtain ⟨rfl, rfl⟩ := hplain.eq_plain
  obtain ⟨k, rfl, hoffers⟩ := h hr
  refine ⟨c + k, by omega, ?_⟩
  simpa using hs.operand hoffers

theorem between (h : m.Demands n q) (hs : OffersBetween c s) (h' : m'.Demands n' q') :
    (m ++ .plain s ++ m').Demands (n + c + n') (q + q') := by
  intro i t homits
  obtain ⟨_, j, _, r, hfront, hr, rfl, rfl⟩ := homits.exists_append
  obtain ⟨i₁, _, t₁, _, h₁, hplain, rfl, rfl⟩ := hfront.exists_append
  obtain ⟨rfl, rfl⟩ := hplain.eq_plain
  obtain ⟨k, rfl, hoffers⟩ := h h₁
  obtain ⟨k', rfl, hoffers'⟩ := h' hr
  exact ⟨k + c + k', by omega, (hoffers.before hs).operand hoffers'⟩

theorem behind (h : m.Demands n q)
    (hs : ∀ {k t}, Offers k q t → Offers (k + c) q' (t ++ s)) :
    (m ++ .plain s).Demands (n + c) q' := by
  intro i t homits
  obtain ⟨i₁, _, t₁, _, h₁, hplain, rfl, rfl⟩ := homits.exists_append
  obtain ⟨rfl, rfl⟩ := hplain.eq_plain
  obtain ⟨k, rfl, hoffers⟩ := h h₁
  exact ⟨k + c, by omega, hs hoffers⟩

theorem nothing (h : m.Demands n q) : (m ++ .plain []).Demands n q :=
  behind (c := 0) h fun hoffers => (List.append_nil _).symm ▸ hoffers

theorem «attribute» (h : m.Demands n q) {name : Bytes} (hname : IsName name) :
    (m ++ .plain (text "." ++ name)).Demands n (q + 1) :=
  behind (c := 0) h fun hoffers => hoffers.attribute hname

theorem closed (h : m.Demands n q) {kind : TokenKind} (hs : Bracket s kind)
    (hpoint : s.count (ascii '.') = 0) (hkind : kind ≠ .integer ∧ kind ≠ .dot) :
    (m ++ .plain s).Demands (n + Weight.parens.ofKind kind) q :=
  h.behind fun hoffers => hoffers.closed hs hpoint hkind

/-- A pair of parentheses is there, or it is one that has been left out. -/
theorem pairIf (h : m.Demands n q) (needed : Bool) :
    (Marked.pairIf needed m).Demands ((if needed then 1 else 0) + n) q := by
  cases needed with
  | false => simpa [Marked.pairIf] using h
  | true =>
    intro i t homits
    cases homits with
    | keep homits =>
      obtain ⟨k, rfl, hoffers⟩ := h homits
      refine ⟨1 + k, Nat.add_assoc .., ?_⟩
      have hclosed := (OffersBefore.openParen.operand hoffers).closed .closeParen rfl (by decide)
      rwa [Nat.zero_add] at hclosed
    | @leave _ i _ homits =>
      obtain ⟨k, rfl, hoffers⟩ := h homits
      exact ⟨k, (Nat.add_comm 1 (k + i)).symm, hoffers⟩

end Demands

end Marked

/-! ## Marked expressions -/

/-- Whatever is left out of the marked text of an expression, what is left supplies as many
parentheses less than the expression demands, and it has the points of the expression. -/
def Expr.KeepsDemand (quote : Byte) (e : Expr) : Prop :=
  ∀ p, (e.marked quote p).Demands (e.demand .parens p) (e.demand .points p)

namespace Expr.KeepsDemand

variable {quote : Byte} {span : Span} {sep : Bytes}

theorem of_shape {shape : Expr.Shape} (htest : .test ≤ shape.precedence)
    (h : (shape.marked quote).Demands (shape.demand .parens) (shape.demand .points)) :
    KeepsDemand quote (.node span shape) := by
  intro p
  have hpair := h.pairIf (!p ≤ shape.precedence)
  rw [Expr.marked, Expr.demand, Expr.demand]
  by_cases hp : p ≤ shape.precedence
  · simpa [hp] using hpair
  · simpa [hp, htest] using hpair

/-- Expressions with a separator between each two neighbours. -/
theorem joinWith (hsep : OffersBetween 0 sep) (p : Precedence) :
    ∀ {es : List Expr}, es ≠ [] → (∀ e ∈ es, e.KeepsDemand quote) →
      (Marked.joinWith sep (Expr.markedAll quote p es)).Demands
        (Expr.demandAll .parens p es) (Expr.demandAll .points p es)
  | [], hne, _ => absurd rfl hne
  | [e], _, h => h e (List.mem_singleton_self e) p
  | e :: next :: es, _, h => by
    have hrest := joinWith hsep p (List.cons_ne_nil next es) fun e' he' =>
      h e' (List.mem_cons_of_mem e he')
    exact (h e List.mem_cons_self p).between hsep hrest

/-- An expression with further comparisons behind it. -/
theorem comparisons : ∀ {rest : List Comparison} {m : Marked} {n q : Nat}, m.Demands n q →
    (∀ op e, .mk op e ∈ rest → e.KeepsDemand quote) →
      (m ++ Comparison.markedAll quote rest).Demands (n + Comparison.demandAll .parens rest)
        (q + Comparison.demandAll .points rest)
  | [], m, n, q, hm, _ => hm.nothing
  | .mk op e :: rest, m, n, q, hm, h => by
    have hoperand := hm.between (.comparison op) (h op e List.mem_cons_self .bitOr)
    have hchain := comparisons hoperand fun op' e' he' => h op' e' (List.mem_cons_of_mem _ he')
    rw [Nat.add_zero, Nat.add_assoc, Nat.add_assoc] at hchain
    exact hchain.assoc.assoc

end Expr.KeepsDemand

/-- No operation is a tuple, so it is an index as at any other place. -/
theorem Expr.IsOperation.markedIndex_eq {e : Expr} (h : e.IsOperation) (quote : Byte) :
    e.markedIndex quote = e.marked quote .test := by
  cases h <;> rfl

/-- Whatever is left out of the text of an operation, what is left supplies as many parentheses
less than the operation demands. -/
theorem Expr.IsOperation.keepsDemand {e : Expr} (h : e.IsOperation) (quote : Byte) :
    e.KeepsDemand quote := by
  have hatom : Precedence.test ≤ .atom := by decide
  have htest : Precedence.test ≤ .test := by decide
  -- In each case the demand is that of the operands and of the sign between them.
  induction h with
  | name span hid => exact .of_shape hatom (.plain (.name hid))
  | integer span hdigits => exact .of_shape hatom (.plain (.integer hdigits))
  | @boolean span op values hlength _ ih =>
    have hne : values ≠ [] := by
      rintro rfl
      simp at hlength
    have hjoined := KeepsDemand.joinWith (.boolean op) op.operandPrecedence hne ih
    exact .of_shape (show Precedence.test ≤ op.precedence by cases op <;> decide) hjoined
  | binary span op _ _ ihl ihr =>
    have hoperands := (ihl op.leftPrecedence).between (.binary op) (ihr op.rightPrecedence)
    exact .of_shape (show Precedence.test ≤ op.precedence by cases op <;> decide) hoperands
  | unary span op _ ih =>
    have hoperand := (ih op.precedence).before (.unary op)
    rw [Nat.zero_add] at hoperand
    exact .of_shape (show Precedence.test ≤ op.precedence by cases op <;> decide) hoperand
  | compare span _ _ ihl ih =>
    exact .of_shape (show Precedence.test ≤ .comparison by decide)
      (KeepsDemand.comparisons (ihl .bitOr) ih)
  | conditional span _ _ _ ihtest ihbody ihorelse =>
    have hbranches := ((ihbody .or).between .ifWord (ihtest .or)).between .elseWord (ihorelse .test)
    exact .of_shape htest hbranches
  | lambda span _ ih =>
    have hbody := (ih .test).before .lambda
    rw [Nat.zero_add] at hbody
    exact .of_shape htest hbody
  | await span _ ih =>
    have hvalue := (ih .atom).before .await
    rw [Nat.zero_add] at hvalue
    exact .of_shape (show Precedence.test ≤ .await by decide) hvalue
  | @«attribute» span value name _ hname _ ih =>
    have hvalue := ((ih .atom).pairIf value.isInteger).attribute hname
    rw [Nat.add_comm] at hvalue
    exact .of_shape hatom (by simpa [Shape.marked, Shape.demand] using hvalue)
  | @call span callee arguments _ _ ih iharguments =>
    cases arguments with
    | nil =>
      have hopened := (ih .atom).closed .openParen rfl (by decide)
      have hcall := hopened.nothing.closed .closeParen rfl (by decide)
      exact .of_shape hatom hcall
    | cons e es =>
      have harguments := KeepsDemand.joinWith .comma .test (List.cons_ne_nil e es) iharguments
      have hcall := ((ih .atom).between .openParen harguments).closed .closeParen rfl (by decide)
      refine .of_shape hatom ?_
      simpa [Shape.marked, Shape.demand, Keyword.writeAll, Weight.ofKind] using hcall
  | subscript span _ hindex _ ih ihindex =>
    have hsubscript := ((ih .atom).between .openBracket (ihindex .test)).closed .closeBracket rfl
      (by decide)
    refine .of_shape hatom ?_
    simpa [Shape.marked, Shape.demand, hindex.markedIndex_eq, Weight.ofKind] using hsubscript

/-! ## What is left is not the same -/

/-- The text of an operation has no parentheses around its parts but those that it needs: where one
or more pairs are left out, what is left is no expression or a different one. -/
theorem Expr.pairs_are_needed [Unicode.CharacterNames] {e : Expr} (h : e.IsOperation)
    (quote : Byte) :
    (∀ s, (e.marked quote .tuple).Omits 0 s ↔ s = e.write quote .tuple) ∧
      ∀ n s, (e.marked quote .tuple).Omits (n + 1) s → ∀ v, Expr.ofSource s = .ok v →
        v.bare ≠ e.bare := by
  refine ⟨fun s => ?_, fun n s homits v hread heq => ?_⟩
  · rw [Marked.omits_zero, e.whole_marked quote .tuple]
  -- The tree that is read demands what the operation does: more than what is left supplies.
  obtain ⟨k, hparens, hoffers⟩ := h.keepsDemand quote .tuple homits
  have hsame (w : Weight) : v.demand w .test = e.demand w .tuple := by
    rw [e.demand_tuple, ← v.demand_bare, heq, e.demand_bare]
  rcases hoffers.demand_le hread with hfewer | hfewer
  · rw [hsame] at hfewer
    omega
  · rw [hsame] at hfewer
    exact Nat.lt_irrefl _ hfewer

/-- A sum times an attribute of an integer. -/
def Expr.sumTimesAttribute : Expr :=
  .new (.binary .mul
    (.new (.binary .add (.new (.name (text "a") .load)) (.new (.name (text "b") .load))))
    (.new (.attribute (.new (.constant (.integer (text "1")))) (text "e5") .load)))

open scoped Unicode.NameTable in
/-- Without the one pair a sum has a product in it; without the other one the point and the name are
part of a number. -/
theorem Expr.pairs_are_needed_sumTimesAttribute :
    sumTimesAttribute.write Byte.doubleQuote .tuple = text "(a + b) * (1).e5" ∧
      (∀ v, Expr.ofSource (text "a + b * (1).e5") = .ok v → v.bare ≠ sumTimesAttribute.bare) ∧
      ∀ v, Expr.ofSource (text "(a + b) * 1.e5") = .ok v → v.bare ≠ sumTimesAttribute.bare := by
  have ha : IsName (text "a") := ⟨⟨_, _, rfl, rfl, rfl⟩, by decide⟩
  have hb : IsName (text "b") := ⟨⟨_, _, rfl, rfl, rfl⟩, by decide⟩
  have hname : IsName (text "e5") := ⟨⟨_, _, rfl, rfl, rfl⟩, by decide⟩
  have hone : (Expr.new (.constant (.integer (text "1")))).IsOperation :=
    .integer _ ⟨rfl, by decide, by decide⟩
  have hoperation : sumTimesAttribute.IsOperation :=
    .binary _ _ (.binary _ _ (.name _ ha _) (.name _ hb _)) (.attribute _ hone hname _)
  have hneeded := (pairs_are_needed hoperation Byte.doubleQuote).2
  have hplain (s : String) : (Marked.plain (text s)).Omits 0 (text s) := .plain _
  have hsum := ((hplain "a").append (hplain " + ")).append (hplain "b")
  have hleft := (hsum.leave.append (hplain " * ")).append ((hplain "1").keep.append (hplain ".e5"))
  have hright := (hsum.keep.append (hplain " * ")).append ((hplain "1").leave.append (hplain ".e5"))
  exact ⟨by decide +kernel, hneeded 0 _ hleft, hneeded 0 _ hright⟩

end SyntaxTree
