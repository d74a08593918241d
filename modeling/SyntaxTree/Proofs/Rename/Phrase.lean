import SyntaxTree.Proofs.Grammar.Columns

/-
# Phrases over renamed tokens

Each phrase of an expression is mirrored over renamed tokens if the expressions within it are.
-/

namespace SyntaxTree.Parse

variable {α β : Type}

/-- Two ways to read the expressions within a phrase, of which the second mirrors the first.  None
of these expressions begins at the end of a line. -/
structure ReadingMirrors (σ : Bytes → Bytes) (keep : Prop) (read read' : Reading) : Prop where
  mirrors (g : Goal) : Mirrors σ keep anywhere (Becomes (Expr.rename σ)) never (read g) (read' g)
  needsToken (g : Goal) : NeedsToken (read g)

/-- Whether barriers are kept may be left out. -/
theorem ReadingMirrors.weaken {σ : Bytes → Bytes} {keep : Prop} {read read' : Reading}
    (h : ReadingMirrors σ True read read') : ReadingMirrors σ keep read read' :=
  ⟨fun g => (h.mirrors g).weaken, h.needsToken⟩

/-! ## Drafts -/

/-- Parameters that have been read, renamed. -/
def ParameterDraft.rename (σ : Bytes → Bytes) (draft : ParameterDraft) : ParameterDraft where
  positionalOnly := draft.positionalOnly.map (Parameter.rename σ)
  positional := draft.positional.map (Parameter.rename σ)
  star := draft.star.map (Token.rename σ)
  variadic := draft.variadic.map (Parameter.rename σ)
  keywordOnly := draft.keywordOnly.map (Parameter.rename σ) (Option.map (Expr.rename σ))
  variadicKeyword := draft.variadicKeyword.map (Parameter.rename σ)
  defaults := draft.defaults.map (Expr.rename σ)

theorem ParameterDraft.parameters_rename (σ : Bytes → Bytes) (draft : ParameterDraft) :
    (draft.rename σ).parameters = draft.parameters.rename σ := by
  simp [parameters, rename]

/-- Keys and values that have been read, renamed. -/
def DictDraft.rename (σ : Bytes → Bytes) (draft : DictDraft) : DictDraft :=
  draft.map (Option.map (Expr.rename σ)) (Expr.rename σ)

theorem DictDraft.items_rename (σ : Bytes → Bytes) (draft : DictDraft) :
    (draft.rename σ).items = draft.items.map (DictItem.rename σ) := by
  rw [items, rename, Columns.rows_map, items, List.map_map, List.map_map]
  refine List.map_congr_left fun row _ => ?_
  obtain ⟨key, value⟩ := row
  cases key <;> rfl

/-- Arguments that have been read, renamed. -/
def ArgumentDraft.rename (σ : Bytes → Bytes) (draft : ArgumentDraft) : ArgumentDraft where
  positional := draft.positional.map (Expr.rename σ)
  keywords := draft.keywords.map (Keyword.rename σ)

/-! ## Clauses of comprehensions -/

/-- A clause of a comprehension behind its first word. -/
def clauseBehind (read : Reading) (start : Position) (isAsync : Bool) : Parse Comprehension := do
  let target ← starTargets read
  expect .comprehensionIn
  let iterable ← read .disjunction
  let conditions ← collect (furtherCondition .kwIf (read .disjunction))
  return .mk (← spanFrom start) target iterable conditions isAsync

theorem clause_of_for (read : Reading) {c : Cursor} (h : c.peek.kind = .kwFor) :
    clause read c = (next >>= fun t => clauseBehind read t.start false) c := by
  rw [clause, bind_ok (peek_run c), bind_ok (accept_of_ne (by rw [h]; decide))]
  rfl

theorem clause_of_async (read : Reading) {c : Cursor} (h : c.peek.kind = .kwAsync) :
    clause read c = (next >>= fun t => next >>= fun _ => clauseBehind read t.start true) c := by
  rw [clause, bind_ok (peek_run c), bind_ok (accept_of_eq h)]
  rfl

/-- A clause begins with `for`, or with `async` and `for`. -/
theorem furtherClause_eq (read : Reading) :
    (startsClause >>= fun b => if b then clause read >>= fun a => pure (some a) else pure none) =
      at? .kwFor >>= fun b =>
        if b then next >>= fun t => some <$> clauseBehind read t.start false
        else at? .kwAsync >>= fun x => kindAt 1 >>= fun y =>
          if x && y == .kwFor then
            next >>= fun t => next >>= fun _ => some <$> clauseBehind read t.start true
          else pure none := by
  funext c
  have hkind : kindAt 1 c = .ok (c.peekAt 1).kind c := rfl
  simp only [map_eq_pure_bind, startsClause, bind_assoc]
  rw [bind_ok (at?_peek .kwFor c), bind_ok (at?_peek .kwFor c)]
  by_cases hfor : c.peek.kind = .kwFor
  · rw [if_pos (by simpa using hfor), if_pos (by simpa using hfor), pure_bind, if_pos rfl]
    simp only [bind, EStateM.bind, clause_of_for read hfor]
    rfl
  · rw [if_neg (by simpa using hfor), if_neg (by simpa using hfor), bind_assoc,
      bind_ok (at?_peek .kwAsync c), bind_ok (at?_peek .kwAsync c), bind_ok hkind]
    by_cases hasync : c.peek.kind = .kwAsync
    · rw [if_pos (by simpa using hasync), bind_assoc, bind_ok hkind, pure_bind]
      by_cases hnext : (c.peekAt 1).kind = .kwFor
      · rw [if_pos (by simpa using hnext), if_pos (by simp [hasync, hnext])]
        simp only [bind, EStateM.bind, clause_of_async read hasync]
        rfl
      · rw [if_neg (by simpa using hnext), if_neg (by simp [hnext])]
    · rw [if_neg (by simpa using hasync), if_neg (by simp [hasync])]
      rfl
/-! ## Slices -/

/-- A slice behind its first colon and its upper bound. -/
def sliceBehind (read : Reading) (start : Position) (lower upper : Option Expr) : Parse Expr := do
  let step ←
    if ← accept .colon then
      if (← at? .comma) || (← at? .closeBracket) then pure none else some <$> read .expression
    else pure none
  exprFrom start (.slice lower upper step)

namespace Mirrors

variable {σ : Bytes → Bytes} {keep : Prop} {pre : Token → Prop} {read read' : Reading}

/-! ## Items and commas -/

section Items

variable {f : α → β} {stops : Parse Bool} {item : Parse α} {item' : Parse β}

theorem furtherItem (hstops : Mirrors σ keep anywhere Eq never stops stops)
    (hitem : Mirrors σ keep anywhere (Becomes f) never item item') :
    Mirrors σ keep pre (Becomes (Option.map f)) never (Parse.furtherItem stops item)
      (Parse.furtherItem stops item') := by
  refine ifAccept .comma (fun _ => rfl) (test hstops (pure rfl id) (hitem.bind ?_)) (pure rfl id)
  rintro a _ rfl
  exact pure rfl id

theorem moreItems (hstops : Mirrors σ keep anywhere Eq never stops stops)
    (hitem : Mirrors σ keep anywhere (Becomes f) never item item') :
    Mirrors σ keep pre (Becomes (List.map f)) never (Parse.moreItems stops item)
      (Parse.moreItems stops item') :=
  collect (furtherItem hstops hitem)

theorem itemsUntil (close : TokenKind)
    (hitem : Mirrors σ keep anywhere (Becomes f) never item item') :
    Mirrors σ keep pre (Becomes (List.map f)) never (Parse.itemsUntil close item)
      (Parse.itemsUntil close item') := by
  refine ifAt close (pure rfl id) (hitem.at_any.bind ?_)
  rintro first _ rfl
  refine (moreItems (atKind close) hitem).bind ?_
  rintro rest _ rfl
  exact pure rfl id

end Items

theorem tupleOf {stops : Parse Bool} {item item' : Parse Expr}
    (hstops : Mirrors σ keep anywhere Eq never stops stops)
    (hitem : Mirrors σ keep anywhere (Becomes (Expr.rename σ)) never item item') :
    Mirrors σ keep pre (Becomes (Expr.rename σ)) never (Parse.tupleOf stops item)
      (Parse.tupleOf stops item') := by
  refine hitem.at_any.bind ?_
  rintro first _ rfl
  refine ifAt .comma ((moreItems hstops hitem).bind ?_) (pure rfl id)
  rintro rest _ rfl
  exact exprFrom (by simp) (by simp)

theorem startsExpression :
    Mirrors σ keep pre Eq never Parse.startsExpression Parse.startsExpression :=
  kind fun t _ => by split <;> exact pure rfl id

theorem startsStarred : Mirrors σ keep pre Eq never Parse.startsStarred Parse.startsStarred :=
  test startsExpression (pure rfl id) (atKind .star)

theorem startsNoItem : Mirrors σ keep pre Eq never Parse.startsNoItem Parse.startsNoItem := by
  refine startsStarred.bind ?_
  rintro b _ rfl
  exact pure rfl id

theorem startsClause : Mirrors σ keep pre Eq never Parse.startsClause Parse.startsClause :=
  ifAt .kwFor (pure rfl id) (ifAt .kwAsync (kindAt 1 fun _ => pure rfl id) (pure rfl id))

/-! ## Stars and names -/

theorem nameOf {t : Token} (ht : t.kind = .identifier) (context : Context) :
    Mirrors σ keep pre (Becomes (Expr.rename σ)) never (Parse.nameOf t context)
      (Parse.nameOf (t.rename σ) context) :=
  exprFrom (t.start_rename σ) (by simp [Token.text_rename_of_identifier ht])

section Stars

variable (h : ReadingMirrors σ keep read read')

include h

theorem starredOr {plain plain' : Parse Expr}
    (hplain : Mirrors σ keep pre (Becomes (Expr.rename σ)) never plain plain') :
    Mirrors σ keep pre (Becomes (Expr.rename σ)) never (Parse.starredOr read plain)
      (Parse.starredOr read' plain') := by
  refine ifAt .star (next (taking rfl) fun t _ _ => (h.mirrors .operand).bind ?_) hplain
  rintro value _ rfl
  exact exprFrom (t.start_rename σ) rfl

theorem namedExpression :
    Mirrors σ keep pre (Becomes (Expr.rename σ)) never (Parse.namedExpression read)
      (Parse.namedExpression read') := by
  refine ifPair rfl rfl (fun t _ ht _ => (nameOf ht .store).bind ?_)
    (h.mirrors .expression).at_any
  rintro target _ rfl
  refine (h.mirrors .expression).bind ?_
  rintro value _ rfl
  exact exprFrom (t.start_rename σ) rfl

theorem starExpression :
    Mirrors σ keep pre (Becomes (Expr.rename σ)) never (Parse.starExpression read)
      (Parse.starExpression read') :=
  starredOr h (h.mirrors .expression).at_any

theorem starNamed :
    Mirrors σ keep pre (Becomes (Expr.rename σ)) never (Parse.starNamed read)
      (Parse.starNamed read') :=
  starredOr h (namedExpression h)

theorem starExpressions :
    Mirrors σ keep pre (Becomes (Expr.rename σ)) never (Parse.starExpressions read)
      (Parse.starExpressions read') :=
  tupleOf startsNoItem (starExpression h)

theorem starTarget :
    Mirrors σ keep pre (Becomes (Expr.rename σ)) never (Parse.starTarget read)
      (Parse.starTarget read') :=
  starredOr h (h.mirrors .operand).at_any

end Stars

/-! ## Targets -/

theorem storeTarget (e : Expr) :
    Mirrors σ keep pre (Becomes (Expr.rename σ)) never (Parse.storeTarget e)
      (Parse.storeTarget (e.rename σ)) := by
  rw [Parse.storeTarget, Parse.storeTarget, Expr.targetFault?_rename]
  split
  · exact failAtSpan ..
  · exact pure (e.withContext_rename σ .store).symm id

theorem deleteTarget (e : Expr) :
    Mirrors σ keep pre (Becomes (Expr.rename σ)) never (Parse.deleteTarget e)
      (Parse.deleteTarget (e.rename σ)) := by
  rw [Parse.deleteTarget, Parse.deleteTarget, Expr.targetFault?_rename]
  split
  · exact failAtSpan ..
  · exact pure (e.withContext_rename σ .delete).symm id

theorem augmentedTarget (e : Expr) :
    Mirrors σ keep pre (Becomes (Expr.rename σ)) never (Parse.augmentedTarget e)
      (Parse.augmentedTarget (e.rename σ)) :=
  ite (by simp) (fun _ => pure (e.withContext_rename σ .store).symm id) fun _ => failAtSpan ..

theorem annotatedTarget (e : Expr) :
    Mirrors σ keep pre (Becomes (Expr.rename σ)) never (Parse.annotatedTarget e)
      (Parse.annotatedTarget (e.rename σ)) :=
  ite (by simp) (fun _ => pure (e.withContext_rename σ .store).symm id) fun _ => failAtSpan ..

theorem plainValue (e : Expr) :
    Mirrors σ keep pre (Becomes (Expr.rename σ)) never (Parse.plainValue e)
      (Parse.plainValue (e.rename σ)) :=
  ite (by simp) (fun _ => failAtSpan ..) fun _ => pure rfl id

section Phrases

variable (h : ReadingMirrors σ keep read read')

include h

theorem starTargets :
    Mirrors σ keep pre (Becomes (Expr.rename σ)) never (Parse.starTargets read)
      (Parse.starTargets read') := by
  refine (tupleOf startsNoItem (starTarget h)).bind ?_
  rintro e _ rfl
  exact storeTarget e

/-! ## Yields -/

theorem yieldExpr :
    Mirrors σ keep (fun t => t.kind = .kwYield) (Becomes (Expr.rename σ)) never
      (Parse.yieldExpr read) (Parse.yieldExpr read') := by
  refine next (taking rfl) fun t _ _ => ?_
  refine ifAccept .kwFrom (fun _ => rfl) ((h.mirrors .expression).bind ?_)
    (test startsStarred ((starExpressions h).bind ?_) (exprFrom (t.start_rename σ) rfl))
  · rintro value _ rfl
    exact exprFrom (t.start_rename σ) rfl
  · rintro value _ rfl
    exact exprFrom (t.start_rename σ) rfl

theorem yieldOrExpressions :
    Mirrors σ keep pre (Becomes (Expr.rename σ)) never (Parse.yieldOrExpressions read)
      (Parse.yieldOrExpressions read') :=
  ifAt .kwYield (yieldExpr h) (starExpressions h)

/-! ## Comprehensions -/

theorem clauseBehind (start : Position) (isAsync : Bool) :
    Mirrors σ keep pre (Becomes (Comprehension.rename σ)) never
      (Parse.clauseBehind read start isAsync) (Parse.clauseBehind read' start isAsync) := by
  refine (starTargets h).bind ?_
  rintro target _ rfl
  refine (expect .comprehensionIn fun _ => rfl).bind fun _ _ _ => (h.mirrors .disjunction).bind ?_
  rintro iterable _ rfl
  refine (collect (behind .kwIf (fun _ => rfl) (h.mirrors .disjunction))).bind ?_
  rintro conditions _ rfl
  refine spanFrom start fun span => pure ?_ id
  simp [Becomes]

theorem clauses :
    Mirrors σ keep pre (Becomes (List.map (Comprehension.rename σ))) never (Parse.clauses read)
      (Parse.clauses read') := by
  have hsome (start : Position) (isAsync : Bool) :
      Mirrors σ keep anywhere (Becomes (Option.map (Comprehension.rename σ))) never
        (some <$> Parse.clauseBehind read start isAsync)
        (some <$> Parse.clauseBehind read' start isAsync) := by
    refine (clauseBehind h start isAsync).map ?_
    rintro a _ rfl
    rfl
  refine collect ?_
  rw [furtherClause_eq, furtherClause_eq]
  -- No barrier begins at `for`, nor at `async` and a `for` behind it.
  refine ifAt .kwFor (next (taking rfl) fun t _ _ => ?_)
    (ifPair rfl rfl (fun t _ _ _ => ?_) (pure rfl id))
  · rw [t.start_rename]
    exact hsome t.start false
  · rw [t.start_rename]
    exact hsome t.start true

theorem needsToken_starExpression : NeedsToken (Parse.starExpression read) :=
  .ifAt (by decide) (h.needsToken .expression)

/-! ## Parameters -/

omit h in
theorem parameterHint (annotated : Bool) {value value' : Parse Expr} (hneeds : NeedsToken value)
    (hvalue : Mirrors σ keep anywhere (Becomes (Expr.rename σ)) never value value') :
    Mirrors σ keep pre (Becomes (Option.map (Expr.rename σ))) never
      (Parse.parameterHint annotated value) (Parse.parameterHint annotated value') := by
  refine ite .rfl (fun _ => ifColon hneeds.bind (hvalue.bind ?_) (pure rfl id)) fun _ => pure rfl id
  rintro a _ rfl
  exact pure rfl id

theorem parameter (annotated starHint : Bool) :
    Mirrors σ keep pre (Becomes (Parameter.rename σ)) never
      (Parse.parameter read annotated starHint) (Parse.parameter read' annotated starHint) := by
  have hneeds : NeedsToken
      (if starHint then Parse.starExpression read else read .expression) := by
    split
    · exact needsToken_starExpression h
    · exact h.needsToken .expression
  refine (expectName .parameter).bind ?_
  rintro t _ ⟨ht, -, rfl⟩
  refine (parameterHint annotated hneeds
    (ite .rfl (fun _ => starExpression h) fun _ => h.mirrors .expression)).bind ?_
  rintro hint _ rfl
  rw [t.start_rename]
  refine spanFrom t.start fun span => pure ?_ id
  simp [Becomes, Token.text_rename_of_identifier ht]

omit h in
theorem slashParameter (draft : ParameterDraft) :
    Mirrors σ keep (fun t => t.kind = .slash) (Becomes (ParameterDraft.rename σ)) never
      (Parse.slashParameter draft) (Parse.slashParameter (draft.rename σ)) := by
  refine next (taking rfl) fun t _ _ => ?_
  refine ite (by simp [ParameterDraft.rename]) (fun _ => failAtToken ..) fun _ => ?_
  refine ite (by simp [ParameterDraft.rename]) (fun _ => failAtToken ..) fun _ => ?_
  refine ite (by simp [ParameterDraft.rename]) (fun _ => failAtToken ..) fun _ => ?_
  exact pure rfl id

theorem starParameter (annotated : Bool) (draft : ParameterDraft) :
    Mirrors σ keep (fun t => t.kind = .star) (Becomes (ParameterDraft.rename σ)) never
      (Parse.starParameter read annotated draft)
      (Parse.starParameter read' annotated (draft.rename σ)) := by
  refine next (taking rfl) fun t _ _ => ?_
  refine ite (by simp [ParameterDraft.rename]) (fun _ => failAtToken ..) fun _ => ?_
  refine ifAt .identifier ((parameter h annotated true).bind ?_) (pure rfl id)
  rintro variadic _ rfl
  exact ifAt .equal (failHere _) (pure rfl id)

theorem keywordsParameter (annotated : Bool) (draft : ParameterDraft) :
    Mirrors σ keep (fun t => t.kind = .doubleStar) (Becomes (ParameterDraft.rename σ)) never
      (Parse.keywordsParameter read annotated draft)
      (Parse.keywordsParameter read' annotated (draft.rename σ)) := by
  refine next (taking rfl) fun _ _ _ => (parameter h annotated false).bind ?_
  rintro variadicKeyword _ rfl
  exact ifAt .equal (failHere _) (pure rfl id)

theorem plainParameter (annotated : Bool) (draft : ParameterDraft) :
    Mirrors σ keep pre (Becomes (ParameterDraft.rename σ)) never
      (Parse.plainParameter read annotated draft)
      (Parse.plainParameter read' annotated (draft.rename σ)) := by
  refine (parameter h annotated false).bind ?_
  rintro ⟨span, name, hint⟩ _ rfl
  refine optionally (accept .equal fun _ => rfl) (h.mirrors .expression) fun default => ?_
  refine ite (by simp [ParameterDraft.rename])
    (fun _ => pure (by simp [Becomes, ParameterDraft.rename]) id) fun _ => ?_
  cases default with
  | some value => exact pure (by simp [Becomes, ParameterDraft.rename]) id
  | none =>
    exact ite (by simp [ParameterDraft.rename]) (fun _ => failAtSpan ..) fun _ =>
      pure (by simp [Becomes, ParameterDraft.rename]) id

theorem addParameter (annotated : Bool) (draft : ParameterDraft) :
    Mirrors σ keep pre (Becomes (ParameterDraft.rename σ)) never
      (Parse.addParameter read annotated draft)
      (Parse.addParameter read' annotated (draft.rename σ)) := by
  refine ite (by simp [ParameterDraft.rename]) (fun _ => failHere _) fun _ => kind fun t _ => ?_
  split
  · exact (slashParameter draft).at_token ‹_›
  · exact (keywordsParameter h annotated draft).at_token ‹_›
  · exact (starParameter h annotated draft).at_token ‹_›
  · exact plainParameter h annotated draft

theorem parameterStep (close : TokenKind) (annotated : Bool) (draft : ParameterDraft) :
    Mirrors σ keep pre (Becomes (mapStep (ParameterDraft.rename σ))) never
      (Parse.parameterStep read close annotated draft)
      (Parse.parameterStep read' close annotated (draft.rename σ)) := by
  refine ifAt close (pure rfl id) ((addParameter h annotated draft).bind ?_)
  rintro draft _ rfl
  exact ifAccept .comma (fun _ => rfl) (pure rfl id) (pure rfl id)

theorem parameters (close : TokenKind) (annotated : Bool) :
    Mirrors σ keep pre (Becomes (Parameters.rename σ)) never
      (Parse.parameters read close annotated) (Parse.parameters read' close annotated) := by
  refine (iterate (fun draft => parameterStep h close annotated draft) .empty).bind ?_
  rintro draft _ rfl
  obtain ⟨_, _, star, _, _, _, _⟩ := draft
  cases star with
  | some star =>
    exact ite (by simp [ParameterDraft.rename]) (fun _ => failAtToken ..) fun _ =>
      pure (ParameterDraft.parameters_rename σ _).symm id
  | none => exact pure (ParameterDraft.parameters_rename σ _).symm id

theorem lambda :
    Mirrors σ keep (fun t => t.kind = .kwLambda) (Becomes (Expr.rename σ)) never
      (Parse.lambda read) (Parse.lambda read') := by
  refine next (taking rfl) fun t _ _ => (parameters h .colon false).bind ?_
  rintro parameters _ rfl
  refine expectColon rfl (h.needsToken .expression).bind ((h.mirrors .expression).bind ?_)
  rintro body _ rfl
  exact exprFrom (t.start_rename σ) rfl

/-! ## Arguments -/

theorem plainArgument :
    Mirrors σ keep pre (Becomes (Expr.rename σ)) never (Parse.plainArgument read)
      (Parse.plainArgument read') := by
  refine (namedExpression h).bind ?_
  rintro value _ rfl
  refine test startsClause ((clauses h).bind ?_) (pure rfl id)
  rintro clauses _ rfl
  exact exprFrom (by simp) (by simp)

theorem addArgument (draft : ArgumentDraft) :
    Mirrors σ keep pre (Becomes (ArgumentDraft.rename σ)) never (Parse.addArgument read draft)
      (Parse.addArgument read' (draft.rename σ)) := by
  refine peek fun start _ _ => ?_
  refine ifAccept .star (fun _ => rfl) ?starred (ifAccept .doubleStar (fun _ => rfl) ?unpacked
    (ifPair rfl rfl (fun t ht hkind _ => ?named) ?plain))
  case starred =>
    refine ite (by simp [ArgumentDraft.rename]) (fun _ => failAtToken ..) fun _ =>
      (h.mirrors .expression).bind ?_
    rintro value _ rfl
    refine (exprFrom (start.start_rename σ) rfl).bind ?_
    rintro value _ rfl
    exact pure (by simp [Becomes, ArgumentDraft.rename]) id
  case unpacked =>
    refine (h.mirrors .expression).bind ?_
    rintro value _ rfl
    rw [start.start_rename]
    exact spanFrom start.start fun span => pure (by simp [Becomes, ArgumentDraft.rename]) id
  case named =>
    subst ht
    refine (h.mirrors .expression).bind ?_
    rintro value _ rfl
    rw [t.start_rename]
    exact spanFrom t.start fun span => pure (by
      simp [Becomes, ArgumentDraft.rename, Token.text_rename_of_identifier hkind]) id
  case plain =>
    refine (plainArgument h).bind ?_
    rintro value _ rfl
    refine ite (by simp [ArgumentDraft.rename]) (fun _ => failAtSpan ..) fun _ => ?_
    refine ite (by simp [ArgumentDraft.rename]) (fun _ => failAtSpan ..) fun _ => ?_
    exact pure (by simp [Becomes, ArgumentDraft.rename]) id

theorem argumentStep (draft : ArgumentDraft) :
    Mirrors σ keep pre (Becomes (mapStep (ArgumentDraft.rename σ))) never
      (Parse.argumentStep read draft) (Parse.argumentStep read' (draft.rename σ)) := by
  refine ifAt .closeParen (pure rfl id) ((addArgument h draft).bind ?_)
  rintro draft _ rfl
  exact ifAccept .comma (fun _ => rfl) (pure rfl id) (pure rfl id)

theorem arguments :
    Mirrors σ keep pre (Becomes (ArgumentDraft.rename σ)) never (Parse.arguments read)
      (Parse.arguments read') := by
  refine (iterate (fun draft => argumentStep h draft) ⟨[], []⟩).bind ?_
  rintro draft _ rfl
  exact (expect .argumentsClose fun _ => rfl).bind fun _ _ _ => pure rfl id

/-! ## Subscripts -/

omit h in
theorem endsSlicePart :
    Mirrors σ keep pre Eq never Parse.endsSlicePart Parse.endsSlicePart :=
  kind fun t _ => by split <;> exact pure rfl id

theorem sliceBehind (start : Position) (lower upper : Option Expr) :
    Mirrors σ keep pre (Becomes (Expr.rename σ)) never (Parse.sliceBehind read start lower upper)
      (Parse.sliceBehind read' start (lower.map (Expr.rename σ))
        (upper.map (Expr.rename σ))) := by
  have hshape (step : Option Expr) : Mirrors σ keep anywhere (Becomes (Expr.rename σ)) never
      (Parse.exprFrom start (.slice lower upper step))
      (Parse.exprFrom start (.slice (lower.map (Expr.rename σ)) (upper.map (Expr.rename σ))
        (step.map (Expr.rename σ)))) :=
    exprFrom rfl (by simp)
  have hneeds : NeedsToken (some <$> read .expression >>= fun step =>
      Parse.exprFrom start (.slice lower upper step)) := (h.needsToken .expression).map.bind
  refine ifColon (.atKind (by decide) (.atKind (by decide) hneeds)) ((atKind .comma).bind ?_)
    (hshape none).at_any
  rintro b _ rfl
  refine (atKind .closeBracket).bind ?_
  rintro b' _ rfl
  exact ite .rfl (fun _ => hshape none) fun _ => present (h.mirrors .expression) hshape

theorem sliceFrom (start : Position) (lower : Option Expr) :
    Mirrors σ keep (fun t => t.kind = .colon) (Becomes (Expr.rename σ)) never
      (Parse.sliceFrom read start lower)
      (Parse.sliceFrom read' start (lower.map (Expr.rename σ))) := by
  refine colon ?_ (test endsSlicePart (sliceBehind h start lower none)
    (present (h.mirrors .expression) (sliceBehind h start lower)))
  rw [Parse.endsSlicePart, bind_assoc]
  exact .ofKind (h.needsToken .expression).map.bind

theorem sliceOrIndex :
    Mirrors σ keep pre (Becomes (Expr.rename σ)) never (Parse.sliceOrIndex read)
      (Parse.sliceOrIndex read') := by
  refine peek fun start _ _ => ?_
  rw [start.start_rename, start.kind_rename]
  refine ite .rfl (fun _ => starExpression h) fun _ => ite .rfl (fun hcolon => ?_) fun _ => ?_
  · exact (sliceFrom h start.start none).at_token hcolon
  · refine (namedExpression h).bind ?_
    rintro lower _ rfl
    exact ifAt .colon (sliceFrom h start.start (some lower)) (pure rfl id)

theorem slices :
    Mirrors σ keep pre (Becomes (Expr.rename σ)) never (Parse.slices read)
      (Parse.slices read') :=
  tupleOf (atKind .closeBracket) (sliceOrIndex h)

/-! ## Displays -/

theorem parenthesized (start : Position) :
    Mirrors σ keep pre (Becomes (Expr.rename σ)) never (Parse.parenthesized read start)
      (Parse.parenthesized read' start) := by
  refine ifAccept .closeParen (fun _ => rfl) (exprFrom rfl rfl)
    (ifAt .kwYield ((yieldExpr h).bind ?_) ((starNamed h).bind ?_))
  · rintro value _ rfl
    exact (expect .yieldClose fun _ => rfl).bind fun _ _ _ => pure rfl id
  · rintro first _ rfl
    refine test startsClause ((clauses h).bind ?_) (ifAccept .closeParen (fun _ => rfl)
      (ite (by simp) (fun _ => failAtSpan ..) fun _ => pure rfl id)
      ((moreItems (atKind .closeParen) (starNamed h)).bind ?_))
    · rintro clauses _ rfl
      exact (expect .generatorClose fun _ => rfl).bind fun _ _ _ => exprFrom rfl (by simp)
    · rintro rest _ rfl
      exact (expect .parenClose fun _ => rfl).bind fun _ _ _ => exprFrom rfl (by simp)

theorem listDisplay (start : Position) :
    Mirrors σ keep pre (Becomes (Expr.rename σ)) never (Parse.listDisplay read start)
      (Parse.listDisplay read' start) := by
  refine ifAccept .closeBracket (fun _ => rfl) (exprFrom rfl rfl) ((starNamed h).bind ?_)
  rintro first _ rfl
  refine test startsClause ((clauses h).bind ?_)
    ((moreItems (atKind .closeBracket) (starNamed h)).bind ?_)
  · rintro clauses _ rfl
    exact (expect .listCompClose fun _ => rfl).bind fun _ _ _ => exprFrom rfl (by simp)
  · rintro rest _ rfl
    exact (expect .listClose fun _ => rfl).bind fun _ _ _ => exprFrom rfl (by simp)

theorem addDictItem (draft : DictDraft) :
    Mirrors σ keep pre (Becomes (DictDraft.rename σ)) never (Parse.addDictItem read draft)
      (Parse.addDictItem read' (draft.rename σ)) := by
  refine ifAccept .doubleStar (fun _ => rfl) ((h.mirrors .operand).bind ?_)
    ((h.mirrors .expression).at_any.bind ?_)
  · rintro value _ rfl
    exact pure (by simp [Becomes, DictDraft.rename]) id
  · rintro key _ rfl
    refine expectColon rfl (h.needsToken .expression).bind ((h.mirrors .expression).bind ?_)
    rintro value _ rfl
    exact pure (by simp [Becomes, DictDraft.rename]) id

theorem dictStep (draft : DictDraft) :
    Mirrors σ keep pre (Becomes (mapStep (DictDraft.rename σ))) never (Parse.dictStep read draft)
      (Parse.dictStep read' (draft.rename σ)) := by
  refine ifAccept .comma (fun _ => rfl) (ifAt .closeBrace (pure rfl id) ?_) (pure rfl id)
  refine (addDictItem h draft).bind ?_
  rintro draft _ rfl
  exact pure rfl id

theorem dictRest (start : Position) (first : DictDraft) :
    Mirrors σ keep pre (Becomes (Expr.rename σ)) never (Parse.dictRest read start first)
      (Parse.dictRest read' start (first.rename σ)) := by
  refine (iterate (fun draft => dictStep h draft) first).bind ?_
  rintro draft _ rfl
  refine (expect .dictClose fun _ => rfl).bind fun _ _ _ => exprFrom rfl ?_
  simp [DictDraft.items_rename]

theorem braceDisplay (start : Position) :
    Mirrors σ keep pre (Becomes (Expr.rename σ)) never (Parse.braceDisplay read start)
      (Parse.braceDisplay read' start) := by
  refine ifAccept .closeBrace (fun _ => rfl) (exprFrom rfl rfl)
    (ifAt .doubleStar ((addDictItem h .empty).bind ?unpacked) ((starNamed h).bind ?_))
  case unpacked =>
    rintro first _ rfl
    exact dictRest h start first
  rintro first _ rfl
  refine ifColon (h.needsToken .expression).bind ((h.mirrors .expression).bind ?entry)
    (test startsClause ((clauses h).bind ?_)
      ((moreItems (atKind .closeBrace) (starNamed h)).bind ?_))
  case entry =>
    rintro value _ rfl
    refine test startsClause ((clauses h).bind ?_)
      (dictRest h start ((Columns.empty.addLeft (some first)).addRight value))
    rintro clauses _ rfl
    exact (expect .dictCompClose fun _ => rfl).bind fun _ _ _ => exprFrom rfl (by simp)
  · rintro clauses _ rfl
    exact (expect .setCompClose fun _ => rfl).bind fun _ _ _ => exprFrom rfl (by simp)
  · rintro rest _ rfl
    exact (expect .setClose fun _ => rfl).bind fun _ _ _ => exprFrom rfl (by simp)

end Phrases

end Mirrors

end SyntaxTree.Parse
