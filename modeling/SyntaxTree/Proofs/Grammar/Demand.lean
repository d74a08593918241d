import SyntaxTree.Proofs.Grammar.Supply

/-
# Phrases are paid for

What the phrases within expressions take covers what their results demand.  What stands in
parentheses has been paid for by the parenthesis, in front of a point too.
-/

namespace SyntaxTree

namespace Parse

variable {α : Type}

theorem Yields.exprFrom {P : Expr → Prop} {start : Position} {shape : Expr.Shape}
    (h : ∀ span, P (.node span shape)) : Yields P (Parse.exprFrom start shape) := by
  intro c e c' hrun
  cases hrun
  exact h _

/-- An expression that demands nothing, in front of a point either. -/
def IsFree (w : Weight) (e : Expr) : Prop := e.demandDotted w = 0

theorem Yields.exprFree {w : Weight} {start : Position} {shape : Expr.Shape}
    (hdemand : shape.demand w = 0)
    (hplace : shape.precedence = .atom ∨ ¬ .test ≤ shape.precedence)
    (hinteger : ∀ span, (Expr.node span shape).isInteger = false) :
    Yields (IsFree w) (Parse.exprFrom start shape) :=
  Yields.exprFrom fun span => by
    rw [IsFree, Expr.demandDotted_of_not_isInteger w (hinteger span),
      Expr.demand_eq_zero w hdemand hplace]

/-! ## Readings whose results demand nothing -/

section Free

variable {w : Weight} (read : Reading) (field : FieldReading) (start : Position)

theorem yields_yieldExpr : Yields (IsFree w) (yieldExpr read) := by
  have hyield {shape : Expr.Shape} (hdemand : shape.demand w = 0)
      (hyield : shape.precedence = .yield)
      (hinteger : ∀ span, (Expr.node span shape).isInteger = false) (start : Position) :
      Yields (IsFree w) (exprFrom start shape) :=
    Yields.exprFree hdemand (.inr (by rw [hyield]; decide)) hinteger
  refine Yields.bind fun _ => Yields.bind fun _ => Yields.ite ?_ ?_
  · exact Yields.bind fun _ => hyield rfl rfl (fun _ => rfl) _
  · refine Yields.bind fun _ => Yields.ite ?_ ?_
    · exact Yields.bind fun _ => hyield rfl rfl (fun _ => rfl) _
    · exact hyield rfl rfl (fun _ => rfl) _

theorem yields_strings : Yields (IsFree w) (strings field) := by
  refine Yields.bind fun _ => Yields.bind fun _ => Yields.ite ?_ (Yields.ite ?_ ?_)
  all_goals exact Yields.exprFree rfl (.inl rfl) fun _ => rfl

theorem yields_listDisplay : Yields (IsFree w) (listDisplay read start) := by
  refine Yields.bind fun _ => Yields.ite (Yields.exprFree rfl (.inl rfl) fun _ => rfl) ?_
  refine Yields.bind fun _ => Yields.bind fun _ => Yields.ite ?_ ?_
  all_goals
    exact Yields.bind fun _ => Yields.bind fun _ => Yields.exprFree rfl (.inl rfl) fun _ => rfl

theorem yields_dictRest (first : DictDraft) : Yields (IsFree w) (dictRest read start first) :=
  Yields.bind fun _ => Yields.bind fun _ => Yields.exprFree rfl (.inl rfl) fun _ => rfl

theorem yields_braceDisplay : Yields (IsFree w) (braceDisplay read start) := by
  have hclosed {shape : Expr.Shape} (hdemand : shape.demand w = 0)
      (hatom : shape.precedence = .atom)
      (hinteger : ∀ span, (Expr.node span shape).isInteger = false) (what : Missing) :
      Yields (IsFree w) (expect what >>= fun _ => exprFrom start shape) :=
    Yields.bind fun _ => Yields.exprFree hdemand (.inl hatom) hinteger
  refine Yields.bind fun _ => Yields.ite (Yields.exprFree rfl (.inl rfl) fun _ => rfl) ?_
  refine Yields.bind fun _ => Yields.ite (Yields.bind fun _ => yields_dictRest read start _) ?_
  refine Yields.bind fun _ => Yields.bind fun _ => Yields.ite ?_ ?_
  · refine Yields.bind fun _ => Yields.bind fun _ => Yields.ite ?_ (yields_dictRest read start _)
    exact Yields.bind fun _ => hclosed rfl rfl (fun _ => rfl) _
  · refine Yields.bind fun _ => Yields.ite ?_ ?_
    · exact Yields.bind fun _ => hclosed rfl rfl (fun _ => rfl) _
    · exact Yields.bind fun _ => hclosed rfl rfl (fun _ => rfl) _

theorem yields_sliceFrom (lower : Option Expr) :
    Yields (IsFree w) (sliceFrom read start lower) := by
  have hslice (upper step : Option Expr) :
      Yields (IsFree w) (exprFrom start (.slice lower upper step)) :=
    Yields.exprFree rfl (.inl rfl) fun _ => rfl
  have hbehind (upper : Option Expr) : Yields (IsFree w) (sliceBehind read start lower upper) := by
    refine Yields.bind fun _ => Yields.ite ?_ (Yields.bind fun _ => hslice upper _)
    refine Yields.bind fun _ => Yields.bind fun _ => Yields.ite ?_ ?_
    · exact Yields.bind fun _ => hslice upper _
    · exact Yields.bind fun _ => hslice upper _
  refine Yields.bind fun _ => Yields.bind fun _ => Yields.ite ?_ ?_
  · exact Yields.bind fun _ => hbehind _
  · exact Yields.bind fun _ => hbehind _

end Free

/-! ## Phrases -/

namespace Pays

variable {w : Weight} {depth limit : Nat} {pre : Token → Prop} {read : Reading}
  {field : FieldReading}

/-- An expression of a kind that demands nothing is built for free. -/
theorem exprFree {p : Precedence} {paid paid' : Nat} {start : Position} {shape : Expr.Shape}
    (hpaid : paid ≤ paid') (hdemand : shape.demand w = 0)
    (hplace : shape.precedence = .atom ∨ ¬ .test ≤ shape.precedence) :
    Pays w depth limit pre paid' (Parse.exprFrom start shape) fun e => paid + e.demand w p :=
  exprFrom fun span => by
    rw [Expr.demand_eq_zero w hdemand hplace]
    exact hpaid

/-- A reading whose results demand nothing only has to move forward. -/
theorem of_free {paid : Nat} {taken : Expr → Prop} {p : Parse Expr}
    (he : Ends depth limit pre taken p) (hfree : Yields (IsFree w) p) :
    Pays w depth limit pre paid p fun e => paid + e.demandDotted w := by
  refine of_ends he fun c e c' hrun => ?_
  exact Nat.le_of_eq (congrArg (paid + ·) (hfree hrun))

theorem tupleOf {stops : Parse Bool} {item : Parse Expr} (hstops : Looks stops)
    (he : ∀ {pre : Token → Prop}, Ends depth limit pre always item)
    (hitem : ∀ {pre : Token → Prop} (paid : Nat),
      Pays w depth limit pre paid item fun e => paid + e.demand w .test) (paid : Nat) :
    Pays w depth limit pre paid (Parse.tupleOf stops item) fun e => paid + e.demand w .test := by
  refine bind he (hitem paid) fun first => ifAt .comma ?_ (pure (Nat.le_refl _))
  exact after (Ends.moreItems hstops he.loosely) fun _ =>
    exprFree (Nat.le_add_right _ _) rfl (.inr (show ¬ Precedence.test ≤ .tuple by decide))

/-- What an expression demands in front of its trailers, or when there are none left. -/
def trailed (w : Weight) : ForInStep Expr → Nat
  | .done value => value.demand w .atom
  | .yield value => value.demandDotted w

section Phrases

variable (h : ReadingEnds depth limit read) (hpay : ReadingPays w depth limit read) (paid : Nat)

include h hpay

omit hpay in
theorem starredOr {plain : Parse Expr}
    (hplain : Pays w depth limit pre paid plain fun e => paid + e.demand w .test) :
    Pays w depth limit pre paid (Parse.starredOr read plain) fun e => paid + e.demand w .test := by
  refine ifAt .star (after (Ends.nextOf (by decide)) fun start => ?_) hplain
  exact after (h .operand) fun _ => exprFree (Nat.le_refl _) rfl (.inl rfl)

theorem namedExpression :
    Pays w depth limit pre paid (Parse.namedExpression read) fun e => paid + e.demand w .test := by
  refine ifFollowed (after (Ends.nextOf (by decide)) fun t => ?_) (hpay .expression paid)
  refine after Ends.skip fun _ => after (Ends.nameOf t .store) fun target => ?_
  exact after (h .expression) fun _ =>
    exprFree (Nat.le_refl _) rfl (.inr (show ¬ Precedence.test ≤ .named by decide))

theorem starExpression :
    Pays w depth limit pre paid (Parse.starExpression read) fun e => paid + e.demand w .test :=
  starredOr h paid (hpay .expression paid)

theorem starNamed :
    Pays w depth limit pre paid (Parse.starNamed read) fun e => paid + e.demand w .test :=
  starredOr h paid (namedExpression h hpay paid)

theorem starExpressions :
    Pays w depth limit pre paid (Parse.starExpressions read) fun e => paid + e.demand w .test :=
  tupleOf Looks.startsNoItem (Ends.starExpression h) (fun paid => starExpression h hpay paid) paid

/-- A lambda may be nested once more than what it is made of. -/
theorem lambda : Pays w depth (limit + 1) (fun t => t.kind = .kwLambda) paid (Parse.lambda read)
    fun e => paid + e.demand w .test := by
  refine deeper (Ends.nextOf (by decide)) (next (by decide)) fun start => ?_
  refine after (Ends.parameters h .colon false) fun ps => after (Ends.expect _) fun _ => ?_
  refine bind (h .expression) (hpay .expression _) fun body => exprFrom fun span => ?_
  rw [Expr.demand_of_le w (show Precedence.test ≤ .test by decide)]
  exact Nat.le_refl _

/-! ### Arguments and subscripts -/

theorem plainArgument :
    Pays w depth limit pre paid (Parse.plainArgument read) fun e => paid + e.demand w .test := by
  refine bind (Ends.namedExpression h) (namedExpression h hpay paid) fun value => ?_
  refine look Looks.startsClause fun _ => ite (fun _ => ?_) fun _ => pure (Nat.le_refl _)
  exact after (Ends.clauses h) fun _ => exprFree (Nat.le_add_right _ _) rfl (.inl rfl)

/-- An argument adds what it demands to the arguments in front of it. -/
theorem addArgument (draft : ArgumentDraft) :
    Pays w depth limit pre (paid + Expr.demandAll w .test draft.positional)
      (Parse.addArgument read draft)
      fun draft => paid + Expr.demandAll w .test draft.positional := by
  have hadd (value : Expr) : Expr.demandAll w .test (draft.positional ++ [value]) =
      Expr.demandAll w .test draft.positional + value.demand w .test := by
    rw [Expr.demandAll_append, Expr.demandAll, Expr.demandAll, Nat.add_zero]
  refine peek fun start _ => ?_
  refine ifAccept (by decide) ?starred (ifAccept (by decide) ?unpacked (ifFollowed ?named ?plain))
  case starred =>
    refine ite (fun _ => of_fails (fails_failAtToken _ _)) fun _ => ?_
    refine after (h .expression) fun value => ?_
    have hstarred (more : Nat) : Pays w depth limit anywhere
        (paid + Expr.demandAll w .test draft.positional + more)
        (Parse.exprFrom start.start (.starred value .load))
        fun e => paid + Expr.demandAll w .test draft.positional + e.demand w .test :=
      exprFree (Nat.le_add_right _ _) rfl (.inl rfl)
    refine bind (Ends.exprFrom _ _) (hstarred _) fun value => pure ?_
    rw [hadd, Nat.add_assoc]
  case unpacked =>
    refine after (h .expression) fun value => after (Ends.spanFrom _) fun span => pure ?_
    exact Nat.le_add_right _ _
  case named =>
    refine after Ends.skip fun _ => after Ends.skip fun _ => after (h .expression) fun value => ?_
    exact after (Ends.spanFrom _) fun span => pure (Nat.le_refl _)
  case plain =>
    refine bind (Ends.plainArgument h) (plainArgument h hpay _) fun value => ?_
    refine ite (fun _ => of_fails (fails_failAtSpan _ _)) fun _ => ?_
    refine ite (fun _ => of_fails (fails_failAtSpan _ _)) fun _ => pure ?_
    rw [hadd, Nat.add_assoc]

theorem arguments : Pays w depth limit pre paid (Parse.arguments read)
    fun draft => paid + Expr.demandAll w .test draft.positional := by
  have hstep (draft : ArgumentDraft) : Pays w depth limit anywhere
      (paid + Expr.demandAll w .test draft.positional) (Parse.argumentStep read draft)
      fun r => paid + Expr.demandAll w .test r.value.positional := by
    refine ifAt .closeParen (pure (Nat.le_refl _)) ?_
    refine bind (Ends.addArgument h draft) (addArgument h hpay paid draft) fun draft => ?_
    exact ifAccept (by decide) (pure (Nat.le_add_right _ _)) (pure (Nat.le_refl _))
  refine bind (Ends.iterate (Ends.argumentStep h) _)
    (iterate (Ends.argumentStep h) hstep ⟨[], []⟩) fun draft => ?_
  exact after (Ends.expect _) fun _ => pure (Nat.le_refl _)

theorem slices :
    Pays w depth limit pre paid (Parse.slices read) fun e => paid + e.demand w .test := by
  have hslice (start : Position) (lower : Option Expr) (paid : Nat) :
      Pays w depth limit (fun t => t.kind = .colon) paid (Parse.sliceFrom read start lower)
        fun e => paid + e.demand w .test :=
    (of_free (Ends.sliceFrom h start lower) (yields_sliceFrom read start lower)).mono
      fun e => Nat.add_le_add_left (e.demand_le_demandDotted w .test) paid
  refine tupleOf (Looks.at? _) (Ends.sliceOrIndex h) (fun paid => peek fun start _ => ?_) paid
  refine ite (fun _ => starExpression h hpay paid) fun _ => ite (fun hcolon => ?_) fun _ => ?_
  · exact (hslice start.start none paid).at_token hcolon
  · refine bind (Ends.namedExpression h) (namedExpression h hpay paid) fun lower => ?_
    refine ifAt .colon ?_ (pure (Nat.le_refl _))
    exact (hslice start.start (some lower) paid).more (Nat.le_add_right _ _)

/-- The parenthesis that has been taken pays for what stands behind it, in front of a point too. -/
theorem parenthesized (start : Position) :
    Pays w depth limit pre (paid + w.paren) (Parse.parenthesized read start)
      fun e => paid + e.demandDotted w := by
  have hfree {shape : Expr.Shape} {paid' : Nat} {pre : Token → Prop} (hpaid : paid ≤ paid')
      (hdemand : shape.demand w = 0)
      (hplace : shape.precedence = .atom ∨ ¬ .test ≤ shape.precedence)
      (hinteger : ∀ span, (Expr.node span shape).isInteger = false) :
      Pays w depth limit pre paid' (Parse.exprFrom start shape)
        fun e => paid + e.demandDotted w := by
    have hexpr : Yields (IsFree w) (Parse.exprFrom start shape) :=
      Yields.exprFree hdemand hplace hinteger
    exact (of_free (Ends.exprFrom start shape) hexpr).more hpaid
  refine ifAccept (by decide) ?_ (ifAt .kwYield ?_ ?_)
  · exact hfree (by omega) rfl (.inl rfl) fun _ => rfl
  · have hyield : Pays w depth limit (fun t => t.kind = .kwYield) paid (Parse.yieldExpr read)
        fun e => paid + e.demandDotted w :=
      of_free (Ends.yieldExpr h) (yields_yieldExpr read)
    refine bind (Ends.yieldExpr h) (hyield.more (Nat.le_add_right _ _)) fun value => ?_
    exact after (Ends.expect _) fun _ => pure (Nat.le_refl _)
  refine bind (Ends.starNamed h) (starNamed h hpay _) fun first => ?_
  have hfirst := first.demandDotted_le w
  refine look Looks.startsClause fun _ => ite (fun _ => ?_) fun _ => ?_
  · refine after (Ends.clauses h) fun clauses => after (Ends.expect _) fun _ => ?_
    exact hfree (by omega) rfl (.inl rfl) fun _ => rfl
  refine ifAccept (by decide) (ite (fun _ => of_fails (fails_failAtSpan _ _)) fun _ => pure ?_) ?_
  · omega
  · refine after (Ends.moreItems (Looks.at? _) (Ends.starNamed h).loosely) fun rest => ?_
    refine after (Ends.expect _) fun _ => ?_
    exact hfree (by omega) rfl (.inr (show ¬ Precedence.test ≤ .tuple by decide)) fun _ => rfl

/-! ## Atoms and what stands behind them -/

/-- A trailer adds what it demands to the expression in front of it, in front of a point too. -/
theorem trailer (value : Expr) (kind : TokenKind) :
    Pays w depth limit (fun t => t.kind = kind) (paid + value.demandBefore w kind)
      (Parse.trailer read value) fun r => paid + trailed w r := by
  have hvalue := value.demand_le_demandBefore w kind
  have hbuilt {shape : Expr.Shape} {paid' : Nat} (hatom : shape.precedence = .atom)
      (hinteger : ∀ span, (Expr.node span shape).isInteger = false)
      (hle : paid + shape.demand w ≤ paid') :
      Pays w depth limit anywhere paid' (do
        return ForInStep.yield (← Parse.exprFrom value.span.start shape))
        fun r => paid + trailed w r := by
    have hshape : Pays w depth limit anywhere paid' (Parse.exprFrom value.span.start shape)
        fun e => paid + e.demandDotted w := exprFrom fun span => by
      rw [Expr.demandDotted_of_not_isInteger w (hinteger span),
        Expr.demand_of_le w (by rw [hatom]; decide)]
      exact hle
    exact bind (Ends.exprFrom _ _) hshape fun e => pure (Nat.le_refl _)
  refine ifAcceptAt (by decide) (fun hdot => ?_) (ifAccept (by decide) ?_ ?_)
  · refine after (Ends.expectName .attributeName) fun name => hbuilt rfl (fun _ => rfl) ?_
    rw [Expr.demandBefore, if_pos hdot, Expr.demandDotted, Expr.Shape.demand, Weight.ofKind]
    omega
  · refine bind (Ends.arguments h) (arguments h hpay _) fun draft => hbuilt rfl (fun _ => rfl) ?_
    rw [Expr.Shape.demand, Weight.ofKind]
    omega
  refine ifAccept (by decide) ?_ (pure (Nat.add_le_add_left hvalue paid))
  · refine bind (Ends.slices h) (slices h hpay _) fun index => ?_
    refine after (Ends.expect _) fun _ => hbuilt rfl (fun _ => rfl) ?_
    rw [Expr.Shape.demand]
    omega

/-- So do all trailers. -/
theorem trailers : ∀ (n : Nat) (value : Expr) (kind : TokenKind),
    Pays w depth limit (fun t => t.kind = kind) (paid + value.demandBefore w kind)
      (iterateUpTo (Parse.trailer read) n value) fun e => paid + e.demand w .atom
  | 0, _, _ => of_fails (fails_failHere _)
  | n + 1, value, kind => by
    refine bind (Ends.trailer h value) (trailer h hpay paid value kind) fun r => ?_
    cases r with
    | done value => exact pure (Nat.le_refl _)
    | yield value =>
      -- Whatever follows the trailer, the expression has been paid for in front of a point.
      intro c e c' hc _ hrun
      have hbefore : paid + value.demandBefore w c.peek.kind ≤ paid + value.demandDotted w :=
        Nat.add_le_add_left (value.demandBefore_le w _) paid
      exact ((trailers n value c.peek.kind).more hbefore) hc rfl hrun

end Phrases

end Pays

end Parse

end SyntaxTree
