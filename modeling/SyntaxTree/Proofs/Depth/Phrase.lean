import SyntaxTree.Proofs.Ending.Phrase

/-
# Phrases under larger bounds

A reading nests and repeats only as far as its bounds allow, and gives up where they are too small.
One with larger bounds gives the same wherever the first has not given up.  Each phrase of an
expression keeps that relation if the expressions within it do.
-/

namespace SyntaxTree.Parse

variable {α β σ : Type}

/-- The second reading gives what the first one gives, unless that is given up. -/
def Approx (p q : Parse α) : Prop := ∀ c, p.GivesUp c ∨ q c = p c

/-- The same for the expressions within a phrase. -/
def ReadingApprox (read read' : Reading) : Prop := ∀ g, Approx (read g) (read' g)

/-- The same for the fields of an f-string, with the same names of characters. -/
structure FieldApprox (field field' : FieldReading) : Prop where
  names : field'.names = field.names
  read : ∀ source place, Approx (field.read source place) (field'.read source place)

namespace Approx

variable {p q p' q' : Parse α}

/-! ## Combinators -/

theorem refl (p : Parse α) : Approx p p := fun _ => .inr rfl

theorem trans {r : Parse α} (h : Approx p q) (h' : Approx q r) : Approx p r := by
  intro c
  rcases h c with hp | hq
  · exact .inl hp
  rcases h' c with ⟨e, c', hrun, hunending⟩ | hr
  · exact .inl ⟨e, c', hq.symm.trans hrun, hunending⟩
  · exact .inr (hr.trans hq)

/-- A result is kept. -/
theorem ok {a : α} {c c' : Cursor} (h : Approx p q) (hp : p c = .ok a c') : q c = .ok a c' := by
  rcases h c with ⟨e, c₁, herror, -⟩ | hrun
  · rw [hp] at herror
    cases herror
  · rw [hrun, hp]

/-- What gives up approximates everything. -/
theorem unending (q : Parse α) : Approx (failHere .unending) q :=
  fun _ => .inl ⟨_, _, rfl, rfl⟩

theorem bind {k l : α → Parse β} (h : Approx p q) (hk : ∀ a, Approx (k a) (l a)) :
    Approx (p >>= k) (q >>= l) := by
  intro c
  rcases h c with ⟨e, c', hrun, hunending⟩ | hq
  · exact .inl ⟨e, c', bind_error hrun, hunending⟩
  cases hrun : p c with
  | ok a c' =>
    rcases hk a c' with ⟨e, c₁, herror, hunending⟩ | hl
    · exact .inl ⟨e, c₁, (bind_ok hrun).trans herror, hunending⟩
    · exact .inr (by rw [bind_ok hrun, bind_ok (hq.trans hrun), hl])
  | error e c' => exact .inr (by rw [bind_error hrun, bind_error (hq.trans hrun)])

/-- What follows the same reading. -/
theorem after (p : Parse α) {k l : α → Parse β} (hk : ∀ a, Approx (k a) (l a)) :
    Approx (p >>= k) (p >>= l) :=
  (refl p).bind hk

/-- What follows in the same way. -/
theorem first (h : Approx p q) (k : α → Parse β) : Approx (p >>= k) (q >>= k) :=
  h.bind fun a => refl (k a)

theorem map (f : α → β) (h : Approx p q) : Approx (f <$> p) (f <$> q) := by
  rw [map_eq_pure_bind, map_eq_pure_bind]
  exact h.first _

theorem ite {b : Prop} [Decidable b] (h : Approx p q) (h' : Approx p' q') :
    Approx (if b then p else p') (if b then q else q') := by
  split
  · exact h
  · exact h'

theorem test (b : Parse Bool) (h : Approx p q) (h' : Approx p' q') :
    Approx (b >>= fun b => if b then p else p') (b >>= fun b => if b then q else q') :=
  after b fun _ => ite h h'

/-- A value that is read if a test holds, in front of what goes on with or without it. -/
theorem optionally (b : Parse Bool) {k l : Option α → Parse β} (h : Approx p q)
    (hk : ∀ o, Approx (k o) (l o)) :
    Approx (b >>= fun b => if b then some <$> p >>= k else pure none >>= k)
      (b >>= fun b => if b then some <$> q >>= l else pure none >>= l) :=
  test b ((h.map some).bind hk) (after (pure none) hk)

theorem iterate {step step' : σ → Parse (ForInStep σ)} (h : ∀ s, Approx (step s) (step' s))
    (s : σ) : Approx (Parse.iterate step s) (Parse.iterate step' s) := by
  have hupto : ∀ limit s, Approx (iterateUpTo step limit s) (iterateUpTo step' limit s) := by
    intro limit
    induction limit with
    | zero => exact fun s => refl _
    | succ limit ih =>
      refine fun s => (h s).bind fun r => ?_
      cases r with
      | done s => exact refl _
      | yield s => exact ih s
  exact fun c => hupto _ s c

theorem collect {item item' : Parse (Option α)} (h : Approx item item') :
    Approx (Parse.collect item) (Parse.collect item') := by
  have hupto : ∀ limit, Approx (collectUpTo item limit) (collectUpTo item' limit) := by
    intro limit
    induction limit with
    | zero => exact refl _
    | succ limit ih =>
      refine h.bind fun o => ?_
      cases o with
      | none => exact refl _
      | some a => exact ih.first _
  exact fun c => hupto _ c

/-! ## Items and commas -/

/-- An item that is read behind a test. -/
theorem behind (b : Parse Bool) (h : Approx p q) :
    Approx (b >>= fun b => if b then p >>= fun a => pure (some a) else pure none)
      (b >>= fun b => if b then q >>= fun a => pure (some a) else pure none) :=
  test b (h.first _) (refl _)

theorem moreItems (stops : Parse Bool) (h : Approx p q) :
    Approx (Parse.moreItems stops p) (Parse.moreItems stops q) :=
  collect (test _ (test stops (refl _) (h.first _)) (refl _))

/-- The items behind the first one of a display, up to what closes it. -/
theorem closedItems {close : TokenKind} {what : Missing} (h : Approx p q)
    (k : List α → Parse β) :
    Approx (Parse.moreItems (at? close) p >>= fun items => Parse.expect what >>= fun _ => k items)
      (Parse.moreItems (at? close) q >>= fun items => Parse.expect what >>= fun _ => k items) :=
  (moreItems _ h).first _

theorem tupleOf (stops : Parse Bool) {item item' : Parse Expr} (h : Approx item item') :
    Approx (Parse.tupleOf stops item) (Parse.tupleOf stops item') :=
  h.bind fun _ => test _ ((moreItems stops h).first _) (refl _)

section Phrases

variable {read read' : Reading} (h : ReadingApprox read read')

include h

/-! ## Stars and names -/

theorem starredOr {plain plain' : Parse Expr} (hplain : Approx plain plain') :
    Approx (Parse.starredOr read plain) (Parse.starredOr read' plain') :=
  test _ (after next fun _ => (h .operand).first _) hplain

theorem namedExpression : Approx (Parse.namedExpression read) (Parse.namedExpression read') := by
  refine after (at? .identifier) fun _ => after (kindAt 1) fun _ => ite ?_ (h .expression)
  refine after next fun t => after next fun _ => after (nameOf t .store) fun _ => ?_
  exact (h .expression).first _

theorem starExpression : Approx (Parse.starExpression read) (Parse.starExpression read') :=
  starredOr h (h .expression)

theorem starNamed : Approx (Parse.starNamed read) (Parse.starNamed read') :=
  starredOr h (namedExpression h)

theorem starExpressions : Approx (Parse.starExpressions read) (Parse.starExpressions read') :=
  tupleOf _ (starExpression h)

theorem starTargets : Approx (Parse.starTargets read) (Parse.starTargets read') :=
  (tupleOf _ (starredOr h (h .operand))).first _

theorem yieldExpr : Approx (Parse.yieldExpr read) (Parse.yieldExpr read') := by
  refine after next fun _ => test _ ((h .expression).first _) (test _ ?_ (refl _))
  exact (starExpressions h).first _

/-! ## Comprehensions -/

theorem clause : Approx (Parse.clause read) (Parse.clause read') := by
  refine after peek fun _ => after (accept .kwAsync) fun _ => after next fun _ => ?_
  refine (starTargets h).bind fun _ => after (expect .comprehensionIn) fun _ => ?_
  exact (h .disjunction).bind fun _ => (collect (behind _ (h .disjunction))).first _

theorem clauses : Approx (Parse.clauses read) (Parse.clauses read') :=
  collect (behind _ (clause h))

/-- Clauses are read where one begins. -/
theorem ifClauses (k : List Comprehension → Parse β) {p p' : Parse β} (hp : Approx p p') :
    Approx (startsClause >>= fun b => if b then Parse.clauses read >>= k else p)
      (startsClause >>= fun b => if b then Parse.clauses read' >>= k else p') :=
  test _ ((clauses h).first k) hp

/-! ## Parameters -/

theorem parameter (annotated starHint : Bool) :
    Approx (Parse.parameter read annotated starHint)
      (Parse.parameter read' annotated starHint) := by
  have hvalue := ite (b := starHint = true) (starExpression h) (h .expression)
  refine after (expectName .parameter) fun _ => ?_
  exact Approx.first (ite (behind _ hvalue) (refl _)) _

theorem starParameter (annotated : Bool) (draft : ParameterDraft) :
    Approx (Parse.starParameter read annotated draft)
      (Parse.starParameter read' annotated draft) := by
  refine after next fun star => ite (refl _) (test _ ?_ (refl _))
  exact (parameter h annotated true).first _

theorem keywordsParameter (annotated : Bool) (draft : ParameterDraft) :
    Approx (Parse.keywordsParameter read annotated draft)
      (Parse.keywordsParameter read' annotated draft) :=
  after next fun _ => (parameter h annotated false).first _

theorem plainParameter (annotated : Bool) (draft : ParameterDraft) :
    Approx (Parse.plainParameter read annotated draft)
      (Parse.plainParameter read' annotated draft) := by
  refine (parameter h annotated false).bind fun p => ?_
  obtain ⟨span, name, hint⟩ := p
  exact optionally _ (h .expression) fun default => refl _

theorem addParameter (annotated : Bool) (draft : ParameterDraft) :
    Approx (Parse.addParameter read annotated draft)
      (Parse.addParameter read' annotated draft) := by
  refine ite (refl _) (after kind fun kind => ?_)
  split
  · exact refl _
  · exact keywordsParameter h annotated draft
  · exact starParameter h annotated draft
  · exact plainParameter h annotated draft

theorem parameters (close : TokenKind) (annotated : Bool) :
    Approx (Parse.parameters read close annotated) (Parse.parameters read' close annotated) :=
  first (iterate (fun draft => test _ (refl _) ((addParameter h annotated draft).first _)) _) _

theorem lambda : Approx (Parse.lambda read) (Parse.lambda read') := by
  refine after next fun _ => (parameters h .colon false).bind fun _ => ?_
  exact after (expectColon .lambdaParameters) fun _ => (h .expression).first _

/-! ## Arguments -/

theorem plainArgument : Approx (Parse.plainArgument read) (Parse.plainArgument read') :=
  (namedExpression h).bind fun _ => ifClauses h _ (refl _)

theorem addArgument (draft : ArgumentDraft) :
    Approx (Parse.addArgument read draft) (Parse.addArgument read' draft) := by
  refine after peek fun start => test _ (ite (refl _) ((h .expression).first _)) ?_
  refine test _ ((h .expression).first _) ?_
  refine after (at? .identifier) fun _ => after (kindAt 1) fun _ => ite ?_ ?_
  · exact after next fun _ => after next fun _ => (h .expression).first _
  · exact (plainArgument h).first _

theorem arguments : Approx (Parse.arguments read) (Parse.arguments read') :=
  first (iterate (fun draft => test _ (refl _) ((addArgument h draft).first _)) _) _

/-! ## Subscripts -/

theorem sliceFrom (start : Position) (lower : Option Expr) :
    Approx (Parse.sliceFrom read start lower) (Parse.sliceFrom read' start lower) := by
  have hstep (upper : Option Expr) :
      Approx (Parse.sliceBehind read start lower upper)
        (Parse.sliceBehind read' start lower upper) := by
    refine test _ (after (at? .comma) fun _ => after (at? .closeBracket) fun _ => ite ?_ ?_)
      (refl _)
    · exact refl _
    · exact ((h .expression).map _).first _
  refine after next fun _ => test _ (after (pure none) hstep) ?_
  exact ((h .expression).map _).bind hstep

theorem sliceOrIndex : Approx (Parse.sliceOrIndex read) (Parse.sliceOrIndex read') := by
  refine after peek fun start => ite (starExpression h) (ite (sliceFrom h _ _) ?_)
  exact (namedExpression h).bind fun lower => test _ (sliceFrom h _ _) (refl _)

theorem slices : Approx (Parse.slices read) (Parse.slices read') := tupleOf _ (sliceOrIndex h)

/-! ## Displays -/

theorem parenthesized (start : Position) :
    Approx (Parse.parenthesized read start) (Parse.parenthesized read' start) := by
  refine test _ (refl _) (test _ ((yieldExpr h).first _) ((starNamed h).bind fun _ => ?_))
  exact ifClauses h _ (test _ (refl _) (closedItems (starNamed h) _))

theorem listDisplay (start : Position) :
    Approx (Parse.listDisplay read start) (Parse.listDisplay read' start) := by
  refine test _ (refl _) ((starNamed h).bind fun _ => ifClauses h _ ?_)
  exact closedItems (starNamed h) _

theorem addDictItem (draft : DictDraft) :
    Approx (Parse.addDictItem read draft) (Parse.addDictItem read' draft) := by
  refine test _ ((h .operand).first _) ((h .expression).bind fun _ => ?_)
  exact after (expect .dictColon) fun _ => (h .expression).first _

theorem dictRest (start : Position) (first : DictDraft) :
    Approx (Parse.dictRest read start first) (Parse.dictRest read' start first) := by
  refine Approx.first (iterate (fun draft => test _ (test _ (refl _) ?_) (refl _)) first) _
  exact (addDictItem h draft).first _

theorem braceDisplay (start : Position) :
    Approx (Parse.braceDisplay read start) (Parse.braceDisplay read' start) := by
  refine test _ (refl _) (test _ ((addDictItem h .empty).bind fun _ => dictRest h start _) ?_)
  refine (starNamed h).bind fun _ => test _ ((h .expression).bind fun _ => ?_) ?_
  · exact ifClauses h _ (dictRest h start _)
  · exact ifClauses h _ (closedItems (starNamed h) _)

end Phrases

end Approx

end SyntaxTree.Parse
