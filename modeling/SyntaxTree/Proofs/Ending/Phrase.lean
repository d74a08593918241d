import SyntaxTree.Proofs.Ending.Reading

/-
# Phrases are read to their end

Each phrase of an expression comes to an end if the expressions within it do.  A list goes on only
behind a comma, and everything that begins with an expression takes a token.
-/

namespace SyntaxTree

/-! ## Faults of targets -/

theorem Expr.isUnending_lonelyFault (deleted : Bool) (e : Expr) :
    (e.lonelyFault deleted).isUnending = false := by
  unfold lonelyFault
  split
  · rfl
  · split <;> rfl

mutual

/-- The fault of a target is one of the grammar. -/
theorem Expr.isUnending_of_targetFault? {deleted : Bool} :
    ∀ (e : Expr) {fault : SyntaxCause × Span}, e.targetFault? deleted = some fault →
      fault.1.isUnending = false
  | .node span shape, fault, h => by
    cases shape with
    | tuple elements context | list elements context =>
      rw [Expr.targetFault?] at h
      exact isUnending_of_elementsFault? elements h
    | _ =>
      -- A place has no fault, and nothing else that is left can be a target.
      cases h
      all_goals exact Expr.isUnending_lonelyFault deleted _

theorem isUnending_of_elementsFault? {deleted : Bool} :
    ∀ (es : List Expr) {fault : SyntaxCause × Span}, elementsFault? deleted es = some fault →
      fault.1.isUnending = false
  | [], _, h => by cases h
  | .node span shape :: rest, fault, h => by
    have hwhole (h : (Expr.node span shape).targetFault? deleted = some fault) :=
      Expr.isUnending_of_targetFault? _ h
    have hrest (h : elementsFault? deleted rest = some fault) :=
      isUnending_of_elementsFault? rest h
    cases shape with
    | starred value context =>
      simp only [elementsFault?, Option.orElse_eq_orElse, Option.orElse_eq_or,
        Option.or_eq_some_iff] at h
      rcases h with h | h
      · split at h
        · cases h
          exact Expr.isUnending_lonelyFault deleted _
        · exact Expr.isUnending_of_targetFault? value h
      · exact hrest h.2
    | _ =>
      simp only [elementsFault?, Option.orElse_eq_orElse, Option.orElse_eq_or,
        Option.or_eq_some_iff] at h
      exact h.elim hwhole fun h => hrest h.2

end

namespace Parse.Ends

variable {α β : Type} {depth limit : Nat} {pre : Token → Prop} {taken : β → Prop} {read : Reading}

/-! ## Items and commas -/

section Items

variable {stops : Parse Bool} {item : Parse α}

/-- An item that is read behind a word. -/
theorem behind {word : TokenKind} (hword : word ≠ .endOfInput)
    (h : Ends depth limit anywhere never item) :
    Ends depth limit pre isThere (Parse.accept word >>= fun b =>
      if b then item >>= fun a => Pure.pure (some a) else Pure.pure none) :=
  ifAccept hword (h.bind fun _ => result _) (pure Bool.noConfusion)

theorem moreItems (hstops : Looks stops) (h : Ends depth limit anywhere never item) :
    Ends depth limit pre never (Parse.moreItems stops item) := by
  refine collect (ifAccept (by decide) ?_ (pure Bool.noConfusion))
  exact test hstops (result _) (h.bind fun _ => result _)

theorem itemsUntil (close : TokenKind)
    (h : ∀ {pre : Token → Prop}, Ends depth limit pre never item) :
    Ends depth limit pre never (Parse.itemsUntil close item) := by
  refine ifAt close (result _) (h.bind fun first => ?_)
  exact (moreItems (Looks.at? close) h).bind fun rest => result _

theorem skipNewlines : Ends depth limit pre never Parse.skipNewlines := by
  have hnewlines : Ends depth limit pre never (Parse.collect Parse.acceptNewline) :=
    collect (ifAccept (by decide) (result _) (pure Bool.noConfusion))
  exact hnewlines.bind fun _ => result _

end Items

theorem tupleOf {stops : Parse Bool} {item : Parse Expr} (hstops : Looks stops)
    (h : ∀ {pre : Token → Prop}, Ends depth limit pre always item) :
    Ends depth limit pre always (Parse.tupleOf stops item) := by
  refine h.first fun first => ifAt .comma ?_ (result first)
  exact (moreItems hstops h.loosely).bind fun rest => exprFrom _ _

theorem nameOf (t : Token) (context : Context) :
    Ends depth limit pre never (Parse.nameOf t context) :=
  exprFrom _ _

/-! ## Targets -/

theorem storeTarget (e : Expr) : Ends depth limit pre never (Parse.storeTarget e) := by
  unfold Parse.storeTarget
  split
  · next cause span hfault => exact failAtSpan span (e.isUnending_of_targetFault? hfault)
  · exact result _

theorem deleteTarget (e : Expr) : Ends depth limit pre never (Parse.deleteTarget e) := by
  unfold Parse.deleteTarget
  split
  · next cause span hfault => exact failAtSpan span (e.isUnending_of_targetFault? hfault)
  · exact result _

section Phrases

variable (h : ReadingEnds depth limit read)

include h

/-! ## Stars and names -/

theorem starredOr {plain : Parse Expr}
    (hplain : ∀ {pre : Token → Prop}, Ends depth limit pre always plain) :
    Ends depth limit pre always (Parse.starredOr read plain) := by
  refine ifAt .star ((nextOf (by decide)).first fun start => ?_) hplain
  exact (h .operand).bind fun value => exprFrom _ _

theorem namedExpression : Ends depth limit pre always (Parse.namedExpression read) := by
  refine ifFollowed ((nextOf (by decide)).first fun t => skip.bind fun _ => ?_) (h .expression)
  refine (nameOf t .store).bind fun target => ?_
  exact (h .expression).bind fun value => exprFrom _ _

theorem starExpression : Ends depth limit pre always (Parse.starExpression read) :=
  starredOr h (h .expression)

theorem starNamed : Ends depth limit pre always (Parse.starNamed read) :=
  starredOr h (namedExpression h)

theorem starExpressions : Ends depth limit pre always (Parse.starExpressions read) :=
  tupleOf Looks.startsNoItem (starExpression h)

theorem starTarget : Ends depth limit pre always (Parse.starTarget read) :=
  starredOr h (h .operand)

theorem starTargets : Ends depth limit pre always (Parse.starTargets read) :=
  (tupleOf Looks.startsNoItem (starTarget h)).first storeTarget

/-! ## Yields -/

theorem yieldExpr :
    Ends depth limit (fun t => t.kind = .kwYield) always (Parse.yieldExpr read) := by
  refine (nextOf (by decide)).first fun start => ?_
  refine ifAccept (by decide) ?_ (test Looks.startsStarred ?_ (exprFrom _ _))
  · exact (h .expression).bind fun value => exprFrom _ _
  · exact (starExpressions h).bind fun value => exprFrom _ _

theorem yieldOrExpressions : Ends depth limit pre always (Parse.yieldOrExpressions read) :=
  ifAt .kwYield (yieldExpr h) (starExpressions h)

/-! ## Comprehensions -/

theorem clauseBehind (start : Position) (isAsync : Bool) :
    Ends depth limit pre never (Parse.clauseBehind read start isAsync) := by
  refine (starTargets h).bind fun target => (expect _).bind fun _ => ?_
  refine (h .disjunction).bind fun iterable => ?_
  refine (collect (behind (by decide) (h .disjunction).loosely)).bind fun conditions => ?_
  exact (spanFrom _).bind fun span => result _

theorem clauses : Ends depth limit pre never (Parse.clauses read) := by
  have hsome (start : Position) (isAsync : Bool) :
      Ends depth limit anywhere never (some <$> Parse.clauseBehind read start isAsync) := by
    rw [map_eq_pure_bind]
    exact (clauseBehind h start isAsync).bind fun _ => result _
  refine collect ?_
  rw [furtherClause_eq]
  refine ifAt .kwFor ((nextOf (by decide)).first fun t => hsome t.start false) ?_
  refine ifFollowed ((nextOf (by decide)).first fun t => ?_) (pure Bool.noConfusion)
  exact skip.bind fun _ => hsome t.start true

/-- Clauses are read where one begins. -/
theorem ifClauses {k : List Comprehension → Parse β} {p' : Parse β}
    (hk : ∀ cs, Ends depth limit anywhere never (k cs)) (h' : Ends depth limit pre never p') :
    Ends depth limit pre never
      (startsClause >>= fun b => if b then Parse.clauses read >>= k else p') :=
  test Looks.startsClause ((clauses h).bind hk) h'

/-! ## Parameters -/

theorem parameter (annotated starHint : Bool) :
    Ends depth limit pre always (Parse.parameter read annotated starHint) := by
  have hvalue : Ends depth limit anywhere never
      (if starHint then Parse.starExpression read else read .expression) :=
    ite (fun _ => (starExpression h).loosely) fun _ => (h .expression).loosely
  have hhint : Ends depth limit anywhere never (Parse.parameterHint annotated
      (if starHint then Parse.starExpression read else read .expression)) :=
    ite (fun _ => (behind (by decide) hvalue).loosely) fun _ => result _
  refine (expectName .parameter).first fun token => hhint.bind fun hint => ?_
  exact (spanFrom _).bind fun span => result _

omit h in
theorem slashParameter (draft : ParameterDraft) :
    Ends depth limit pre never (Parse.slashParameter draft) := by
  refine skip.bind fun slash => ite (fun _ => failAtToken _ rfl) fun _ => ?_
  exact ite (fun _ => failAtToken _ rfl) fun _ => ite (fun _ => failAtToken _ rfl) fun _ => result _

theorem starParameter (annotated : Bool) (draft : ParameterDraft) :
    Ends depth limit pre never (Parse.starParameter read annotated draft) := by
  refine skip.bind fun star => ite (fun _ => failAtToken _ rfl) fun _ => ?_
  refine ifAt .identifier ?_ (result _)
  exact (parameter h annotated true).bind fun variadic => ifAt .equal (failHere rfl) (result _)

theorem keywordsParameter (annotated : Bool) (draft : ParameterDraft) :
    Ends depth limit pre never (Parse.keywordsParameter read annotated draft) := by
  refine skip.bind fun _ => (parameter h annotated false).bind fun variadicKeyword => ?_
  exact ifAt .equal (failHere rfl) (result _)

theorem plainParameter (annotated : Bool) (draft : ParameterDraft) :
    Ends depth limit pre never (Parse.plainParameter read annotated draft) := by
  refine (parameter h annotated false).bind fun p => ?_
  obtain ⟨span, name, hint⟩ := p
  refine optionally (accept .equal) (h .expression) fun default => ?_
  refine ite (fun _ => result _) fun _ => ?_
  cases default with
  | some value => exact result _
  | none => exact ite (fun _ => failAtSpan _ rfl) fun _ => result _

theorem addParameter (annotated : Bool) (draft : ParameterDraft) :
    Ends depth limit pre never (Parse.addParameter read annotated draft) := by
  refine ite (fun _ => failHere rfl) fun _ => kind fun t _ => ?_
  split
  · exact slashParameter draft
  · exact keywordsParameter h annotated draft
  · exact starParameter h annotated draft
  · exact plainParameter h annotated draft

theorem parameterStep (close : TokenKind) (annotated : Bool) (draft : ParameterDraft) :
    Ends depth limit pre isYield (Parse.parameterStep read close annotated draft) := by
  refine ifAt close (pure id) ((addParameter h annotated draft).bind fun draft => ?_)
  exact ifAccept (by decide) (result _) (pure id)

theorem parameters (close : TokenKind) (annotated : Bool) :
    Ends depth limit pre never (Parse.parameters read close annotated) := by
  refine (iterate (parameterStep h close annotated) _).bind fun draft => ?_
  split
  · exact ite (fun _ => failAtToken _ rfl) fun _ => result _
  · exact result _

/-- A lambda may be nested once more than what it is made of. -/
theorem lambda :
    Ends depth (limit + 1) (fun t => t.kind = .kwLambda) always (Parse.lambda read) := by
  refine (nextOf (by decide)).deeper fun start => ?_
  refine (parameters h .colon false).bind fun parameters => (expect _).bind fun _ => ?_
  exact (h .expression).bind fun body => exprFrom _ _

/-! ## Arguments -/

theorem plainArgument : Ends depth limit pre never (Parse.plainArgument read) :=
  (namedExpression h).bind fun value => ifClauses h (fun _ => exprFrom _ _) (result value)

theorem addArgument (draft : ArgumentDraft) :
    Ends depth limit pre never (Parse.addArgument read draft) := by
  refine peek fun start _ => ?_
  refine ifAccept (by decide) ?starred (ifAccept (by decide) ?unpacked (ifFollowed ?named ?plain))
  case starred =>
    refine ite (fun _ => failAtToken _ rfl) fun _ => (h .expression).bind fun value => ?_
    exact (exprFrom _ _).bind fun value => result _
  case unpacked => exact (h .expression).bind fun value => (spanFrom _).bind fun span => result _
  case named =>
    refine skip.bind fun _ => skip.bind fun _ => ?_
    exact (h .expression).bind fun value => (spanFrom _).bind fun span => result _
  case plain =>
    refine (plainArgument h).bind fun value => ite (fun _ => failAtSpan _ rfl) fun _ => ?_
    exact ite (fun _ => failAtSpan _ rfl) fun _ => result _

theorem argumentStep (draft : ArgumentDraft) :
    Ends depth limit pre isYield (Parse.argumentStep read draft) := by
  refine ifAt .closeParen (pure id) ((addArgument h draft).bind fun draft => ?_)
  exact ifAccept (by decide) (result _) (pure id)

theorem arguments : Ends depth limit pre never (Parse.arguments read) :=
  (iterate (argumentStep h) _).bind fun draft => (expect _).bind fun _ => result draft

/-! ## Subscripts -/

theorem sliceFrom (start : Position) (lower : Option Expr) :
    Ends depth limit (fun t => t.kind = .colon) always (Parse.sliceFrom read start lower) := by
  have hstep (upper : Option Expr) {pre : Token → Prop} :
      Ends depth limit pre never (Parse.sliceBehind read start lower upper) := by
    refine ifAccept (by decide) (look (Looks.at? _) fun _ => look (Looks.at? _) fun _ =>
      ite (fun _ => ?_) fun _ => ?_) ?_
    · exact (result none).bind fun step => exprFrom _ _
    · rw [map_eq_pure_bind, bind_assoc]
      exact (h .expression).bind fun step => exprFrom _ _
    · exact (result none).bind fun step => exprFrom _ _
  refine (nextOf (by decide)).first fun _ => test Looks.endsSlicePart ?_ ?_
  · exact hstep none
  · rw [map_eq_pure_bind, bind_assoc]
    exact (h .expression).bind fun upper => hstep (some upper)

theorem sliceOrIndex : Ends depth limit pre always (Parse.sliceOrIndex read) := by
  refine peek fun start _ => ite (fun _ => starExpression h) fun _ => ?_
  refine ite (fun hcolon => ?_) fun _ => ?_
  · exact (sliceFrom h start.start none).at_token hcolon
  · refine (namedExpression h).first fun lower => ?_
    exact ifAt .colon (sliceFrom h start.start (some lower)).loosely (result lower)

theorem slices : Ends depth limit pre always (Parse.slices read) :=
  tupleOf (Looks.at? _) (sliceOrIndex h)

/-! ## Displays -/

omit h in
/-- The items behind the first one of a display, up to what closes it. -/
theorem closedItems {close : TokenKind} {what : Missing} {item : Parse α} {k : List α → Parse β}
    (hitem : Ends depth limit anywhere never item)
    (hk : ∀ items, Ends depth limit anywhere never (k items)) :
    Ends depth limit pre never
      (Parse.moreItems (at? close) item >>= fun items => Parse.expect what >>= fun _ => k items) :=
  (moreItems (Looks.at? close) hitem).bind fun items => (expect what).bind fun _ => hk items

theorem parenthesized (start : Position) :
    Ends depth limit pre never (Parse.parenthesized read start) := by
  refine ifAccept (by decide) (exprFrom _ _) (ifAt .kwYield ?_ ((starNamed h).bind fun first => ?_))
  · exact (yieldExpr h).bind fun value => (expect _).bind fun _ => result value
  refine ifClauses h (fun clauses => (expect _).bind fun _ => exprFrom _ _) ?_
  refine ifAccept (by decide) (ite (fun _ => failAtSpan _ rfl) fun _ => result first) ?_
  exact closedItems (starNamed h).loosely fun rest => exprFrom _ _

theorem listDisplay (start : Position) :
    Ends depth limit pre never (Parse.listDisplay read start) := by
  refine ifAccept (by decide) (exprFrom _ _) ((starNamed h).bind fun first => ?_)
  refine ifClauses h (fun clauses => (expect _).bind fun _ => exprFrom _ _) ?_
  exact closedItems (starNamed h).loosely fun rest => exprFrom _ _

theorem addDictItem (draft : DictDraft) :
    Ends depth limit pre never (Parse.addDictItem read draft) := by
  refine ifAccept (by decide) ((h .operand).bind fun value => result _) ?_
  refine (h .expression).bind fun key => (expect _).bind fun _ => ?_
  exact (h .expression).bind fun value => result _

theorem dictStep (draft : DictDraft) :
    Ends depth limit pre isYield (Parse.dictStep read draft) := by
  refine ifAccept (by decide) (ifAt .closeBrace (pure id) ?_) (pure id)
  exact (addDictItem h draft).bind fun _ => result _

theorem dictRest (start : Position) (first : DictDraft) :
    Ends depth limit pre never (Parse.dictRest read start first) :=
  (iterate (dictStep h) first).bind fun _ => (expect _).bind fun _ => exprFrom _ _

theorem braceDisplay (start : Position) :
    Ends depth limit pre never (Parse.braceDisplay read start) := by
  refine ifAccept (by decide) (exprFrom _ _) (ifAt .doubleStar ?_ ?_)
  · exact (addDictItem h .empty).bind fun first => dictRest h start first
  refine (starNamed h).bind fun first => ?_
  refine ifAccept (by decide) ((h .expression).bind fun value => ?_) ?_
  · exact ifClauses h (fun clauses => (expect _).bind fun _ => exprFrom _ _) (dictRest h start _)
  refine ifClauses h (fun clauses => (expect _).bind fun _ => exprFrom _ _) ?_
  exact closedItems (starNamed h).loosely fun rest => exprFrom _ _

end Phrases

end Parse.Ends

end SyntaxTree
