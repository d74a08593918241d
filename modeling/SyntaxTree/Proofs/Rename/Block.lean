import SyntaxTree.Proofs.Rename.Line

/-
# Blocks over renamed tokens

Compound statements are mirrored over renamed tokens if the statements of their blocks are.  Where a
block holds a statement of a soft keyword, so does the statement that the block belongs to.
-/

namespace SyntaxTree

theorem Stmt.anySoft_flatten {ls : List (List Stmt)} :
    anySoft ls.flatten = true ↔ ∃ l ∈ ls, anySoft l = true := by
  simp only [anySoft_iff, List.mem_flatten]
  constructor
  · rintro ⟨s, ⟨l, hl, hs⟩, hsoft⟩
    exact ⟨l, hl, s, hs, hsoft⟩
  · rintro ⟨l, hl, s, hs, hsoft⟩
    exact ⟨s, ⟨l, hl, hs⟩, hsoft⟩

theorem ExceptHandler.anySoft_append {l l' : List ExceptHandler} :
    anySoft (l ++ l') = (anySoft l || anySoft l') := by
  induction l with
  | nil => rfl
  | cons handler l ih =>
    obtain ⟨_, _, _, body⟩ := handler
    rw [List.cons_append, anySoft, anySoft, ih, Bool.or_assoc]

namespace Parse

variable {α β : Type}

theorem softStmts_singleton {s : Stmt} : SoftStmts [s] ↔ SoftStmt s := by
  rw [SoftStmts, Stmt.anySoft, Stmt.anySoft, Bool.or_false]

theorem Yields.stmtFrom {P : Stmt → Prop} {start : Position} {shape : Stmt.Shape}
    (h : ∀ span, P (.node span shape)) : Yields P (Parse.stmtFrom start shape) :=
  .bind fun span => .pure (h span)

/-! ## Branches -/

namespace Branch

/-- A branch with its names renamed. -/
def rename (σ : Bytes → Bytes) (b : Branch) : Branch :=
  { b with test := b.test.rename σ, body := b.body.map (Stmt.rename σ) }

/-- The if statement of a branch, which ends at the cursor. -/
def build (c : Cursor) (b : Branch) (orelse : List Stmt) : Stmt :=
  .node (c.spanFrom b.start) (.conditional b.test b.body orelse)

/-- The alternative that further branches form. -/
def chain (c : Cursor) (branches : List Branch) (orelse : List Stmt) : List Stmt :=
  branches.foldr (fun b orelse => [b.build c orelse]) orelse

variable {σ : Bytes → Bytes} {c d : Cursor}

theorem build_rename (h : c.Alike σ d) (b : Branch) (orelse : List Stmt) :
    (b.rename σ).build d (orelse.map (Stmt.rename σ)) = (b.build c orelse).rename σ := by
  simp [build, rename, h.spanFrom]

theorem chain_rename (h : c.Alike σ d) (branches : List Branch) (orelse : List Stmt) :
    chain d (branches.map (rename σ)) (orelse.map (Stmt.rename σ)) =
      (chain c branches orelse).map (Stmt.rename σ) := by
  induction branches with
  | nil => rfl
  | cons b branches ih =>
    show [(b.rename σ).build d (chain d (branches.map (rename σ)) (orelse.map (Stmt.rename σ)))] =
      [(b.build c (chain c branches orelse)).rename σ]
    rw [ih, build_rename h]

theorem isSoft_build {b : Branch} {orelse : List Stmt} :
    SoftStmt (b.build c orelse) ↔ SoftStmts b.body ∨ SoftStmts orelse :=
  Bool.or_eq_true_iff

theorem anySoft_chain {branches : List Branch} {orelse : List Stmt} :
    SoftStmts (chain c branches orelse) ↔ (∃ b ∈ branches, SoftStmts b.body) ∨
      SoftStmts orelse := by
  induction branches with
  | nil => simp [chain]
  | cons b branches ih =>
    show SoftStmts [b.build c (chain c branches orelse)] ↔ _
    rw [softStmts_singleton, isSoft_build, ih]
    simp [or_assoc]

end Branch

/-! ## Handlers -/

namespace HandlerDraft

/-- Handlers that have been read, renamed. -/
def rename (σ : Bytes → Bytes) (draft : HandlerDraft) : HandlerDraft :=
  { draft with handlers := draft.handlers.map (ExceptHandler.rename σ) }

/-- Whether the blocks of handlers have a statement of a soft keyword. -/
def Soft (draft : HandlerDraft) : Prop := ExceptHandler.anySoft draft.handlers = true

theorem soft_add {isStar : Bool} {handlers : List ExceptHandler} {span : Span}
    {type : Option Expr} {name : Option Bytes} {body : List Stmt} :
    Soft ⟨isStar, handlers ++ [.mk span type name body]⟩ ↔
      ExceptHandler.anySoft handlers = true ∨ SoftStmts body := by
  rw [Soft, ExceptHandler.anySoft_append, Bool.or_eq_true_iff]
  simp [ExceptHandler.anySoft]

end HandlerDraft

theorem softStmt_tryBlock {span : Span} {isStar : Bool} {body orelse finalbody : List Stmt}
    {handlers : List ExceptHandler} :
    SoftStmt (.node span (.tryBlock isStar body handlers orelse finalbody)) ↔
      SoftStmts body ∨ ExceptHandler.anySoft handlers = true ∨ SoftStmts orelse ∨
        SoftStmts finalbody := by
  rw [SoftStmt, Stmt.isSoft]
  simp only [Bool.or_eq_true, or_assoc]

/-- The end of a try statement. -/
def tryBehind (read : Reading) (inner : Parse (List Stmt)) (start : Position) (isStar : Bool)
    (body : List Stmt) (handlers : List ExceptHandler) (orelse : List Stmt) : Parse Stmt := do
  let finalbody ←
    if ← accept .kwFinally then blockAfter .finallyWord read inner else pure []
  if handlers.length = 0 ∧ finalbody.length = 0 then failHere .tryAlone
  else stmtFrom start (.tryBlock isStar body handlers orelse finalbody)

theorem yields_tryBehind {read : Reading} {inner : Parse (List Stmt)} {start : Position}
    {isStar : Bool} {body : List Stmt} {handlers : List ExceptHandler} {orelse : List Stmt}
    (hsoft : SoftStmts body ∨ ExceptHandler.anySoft handlers = true ∨ SoftStmts orelse) :
    Yields SoftStmt (tryBehind read inner start isStar body handlers orelse) := by
  have hstmt (finalbody : List Stmt) : Yields SoftStmt
      (if handlers.length = 0 ∧ finalbody.length = 0 then failHere .tryAlone
        else stmtFrom start (.tryBlock isStar body handlers orelse finalbody)) := by
    refine .ite (.of_fails (fails_failHere _)) (.stmtFrom fun _ => softStmt_tryBlock.mpr ?_)
    rcases hsoft with h | h | h
    · exact .inl h
    · exact .inr (.inl h)
    · exact .inr (.inr (.inl h))
  exact .bind fun _ => .ite (.bind hstmt) (.bind hstmt)

/-- The end of an if statement. -/
def ifBehind (first : Branch) (rest : List Branch) (orelse : List Stmt) : Parse Stmt := do
  let c ← get
  return first.build c (Branch.chain c rest orelse)

namespace Mirrors

variable {σ : Bytes → Bytes} {pre : Token → Prop} {read read' : Reading}
  {inner inner' : Parse (List Stmt)}

/-! ## Blocks -/

theorem endsBlock : Mirrors σ False pre Eq never Parse.endsBlock Parse.endsBlock :=
  ifAt .dedent (pure rfl id) (atKind .endOfInput)

theorem untilEnd {ends : Parse Bool} (hends : Mirrors σ False anywhere Eq never ends ends)
    (h : Mirrors σ False anywhere (Becomes (List.map (Stmt.rename σ))) SoftStmts inner inner') :
    Mirrors σ False pre (Becomes (List.map (Stmt.rename σ))) SoftStmts
      (Parse.untilEnd ends inner) (Parse.untilEnd ends inner') := by
  have hitem : Mirrors σ False anywhere (Becomes (Option.map (List.map (Stmt.rename σ))))
      (fun o => ∃ l ∈ o, SoftStmts l)
      (ends >>= fun b => if b then Pure.pure none else
        Parse.accept .newline >>= fun b => if b then Pure.pure (some []) else
          inner >>= fun l => Pure.pure (some l))
      (ends >>= fun b => if b then Pure.pure none else
        Parse.accept .newline >>= fun b => if b then Pure.pure (some []) else
          inner' >>= fun l => Pure.pure (some l)) := by
    refine test hends (pure rfl (by simp))
      (ifAccept .newline nofun (pure rfl (by simp [Stmt.anySoft]))
      (h.bindSoft ?_ ?_))
    · rintro l _ rfl hl
      exact pure rfl (by simpa using hl)
    · intro l hl
      exact .pure ⟨l, rfl, hl⟩
  refine (collectSoft hitem).bindSoft ?_ ?_
  · rintro ls _ rfl hls
    exact pure List.map_flatten (Stmt.anySoft_flatten.not.mpr hls)
  · intro ls hls
    exact .pure (Stmt.anySoft_flatten.mpr hls)

/-! ## Parts of headers -/

section Headers

variable (h : ReadingMirrors σ False read read')

include h

omit h in
theorem typeParamDefault {value value' : Parse Expr}
    (hvalue : Mirrors σ False anywhere (Becomes (Expr.rename σ)) never value value') :
    Mirrors σ False pre (Becomes (Option.map (Expr.rename σ))) never
      (Parse.typeParamDefault value) (Parse.typeParamDefault value') := by
  refine ifAccept .equal nofun (hvalue.map ?_) (pure rfl id)
  rintro e _ rfl
  rfl

theorem typeParam :
    Mirrors σ False pre (Becomes (TypeParam.rename σ)) never (Parse.typeParam read)
      (Parse.typeParam read') := by
  refine peek fun start _ _ => ?_
  rw [start.start_rename]
  refine ifAccept .star nofun ((expectName .typeParameter).bind ?_)
    (ifAccept .doubleStar nofun ((expectName .typeParameter).bind ?_)
      ((expectName .typeParameter).bind ?_))
  · rintro t _ ⟨ht, -, rfl⟩
    refine (typeParamDefault (starExpression h)).bind ?_
    rintro default _ rfl
    rw [Token.text_rename_of_identifier ht]
    exact spanFrom start.start fun span => pure rfl id
  · rintro t _ ⟨ht, -, rfl⟩
    refine (typeParamDefault (h.mirrors .expression)).bind ?_
    rintro default _ rfl
    rw [Token.text_rename_of_identifier ht]
    exact spanFrom start.start fun span => pure rfl id
  · rintro t _ ⟨ht, -, rfl⟩
    rw [Token.text_rename_of_identifier ht]
    refine optionally (accept .colon nofun) (h.mirrors .expression) fun bound => ?_
    refine (typeParamDefault (h.mirrors .expression)).bind ?_
    rintro default _ rfl
    exact spanFrom start.start fun span => pure rfl id

theorem typeParams :
    Mirrors σ False pre (Becomes (List.map (TypeParam.rename σ))) never (Parse.typeParams read)
      (Parse.typeParams read') := by
  refine ifAt .openBracket (next nofun fun _ _ _ => ifAt .closeBracket (failHere _)
    ((itemsUntil .closeBracket (typeParam h)).bind ?_)) (pure rfl id)
  rintro params _ rfl
  exact (expect .typeParamsClose nofun).bind fun _ _ _ => pure rfl id

theorem withItem :
    Mirrors σ False pre (Becomes (WithItem.rename σ)) never (Parse.withItem read)
      (Parse.withItem read') := by
  have htarget : Mirrors σ False anywhere (Becomes (Expr.rename σ)) never
      (Parse.starTarget read >>= Parse.storeTarget)
      (Parse.starTarget read' >>= Parse.storeTarget) := by
    refine (starTarget h).bind ?_
    rintro e _ rfl
    exact storeTarget e
  refine (h.mirrors .expression).at_any.bind ?_
  rintro context _ rfl
  refine optionally (accept .kwAs nofun) htarget fun target => ?_
  rw [context.span_rename]
  exact spanFrom context.span.start fun span => pure rfl id

theorem parenthesizedItems :
    Mirrors σ False pre (Becomes (Option.map (List.map (WithItem.rename σ)))) never
      (Parse.parenthesizedItems read) (Parse.parenthesizedItems read') := by
  refine next nofun fun _ _ _ => (itemsUntil .closeParen (withItem h)).bind ?_
  rintro items _ rfl
  exact ite (by simp) (fun _ => pure rfl id) fun _ => ifAccept .closeParen nofun
    (ifAt .colon (pure rfl id) (pure rfl id)) (pure rfl id)

theorem withItems :
    Mirrors σ False pre (Becomes (List.map (WithItem.rename σ))) never (Parse.withItems read)
      (Parse.withItems read') := by
  refine ifAt .openParen ((attempt (parenthesizedItems h)).bind ?_) (oneOrMore (withItem h))
  rintro (_ | items) _ rfl
  · exact oneOrMore (withItem h)
  · exact pure rfl id

theorem handledType (isStar : Bool) :
    Mirrors σ False pre (Becomes (Prod.map (Option.map (Expr.rename σ)) (Option.map σ))) never
      (Parse.handledType read isStar) (Parse.handledType read' isStar) := by
  refine ifAt .colon (ite .rfl (fun _ => failHere _) fun _ => pure rfl id)
    ((h.mirrors .expression).at_any.bind ?_)
  rintro type _ rfl
  refine (renamed .exceptionName).bind ?_
  rintro name _ rfl
  exact pure rfl id

theorem decorators :
    Mirrors σ False pre (Becomes (List.map (Expr.rename σ))) never (Parse.decorators read)
      (Parse.decorators read') := by
  refine collect (ifAccept .atSign nofun ((namedExpression h).bind ?_) (pure rfl id))
  rintro value _ rfl
  exact (expect .decoratorEnd nofun).bind fun _ _ _ => pure rfl id

end Headers

/-! ## Blocks behind headers -/

section Blocks

variable (hσ : IsHard σ) (h : ReadingMirrors σ False read read') (hread : StopsBehindName read)
  (hinner : Mirrors σ False anywhere (Becomes (List.map (Stmt.rename σ))) SoftStmts inner inner')

include hσ h hread hinner

theorem block :
    Mirrors σ False pre (Becomes (List.map (Stmt.rename σ))) SoftStmts (Parse.block read inner)
      (Parse.block read' inner') := by
  refine ifAccept .newline nofun (ifAt .indent (next nofun fun _ _ _ =>
    (untilEnd endsBlock hinner).bindSoft ?_ ?_) (failHere _)) (line hσ h hread)
  · rintro body _ rfl hbody
    exact (accept .dedent nofun).bind fun _ _ _ => pure rfl hbody
  · intro body hbody
    exact .bind fun _ => .pure hbody

theorem blockAfter (header : Header) :
    Mirrors σ False pre (Becomes (List.map (Stmt.rename σ))) SoftStmts
      (Parse.blockAfter header read inner) (Parse.blockAfter header read' inner') :=
  (expect (.colon header) nofun).bind fun _ _ _ => block hσ h hread hinner

theorem elseBlock :
    Mirrors σ False pre (Becomes (List.map (Stmt.rename σ))) SoftStmts
      (Parse.elseBlock read inner) (Parse.elseBlock read' inner') :=
  ifAccept .kwElse nofun (blockAfter hσ h hread hinner .elseWord) (pure rfl nofun)

/-- A statement that ends with its only block. -/
theorem bodyStmt (header : Header) {start start' : Position} (hstart : start' = start)
    {shape shape' : List Stmt → Stmt.Shape}
    (hshape : ∀ body, (shape body).rename σ = shape' (body.map (Stmt.rename σ)))
    (hsoft : ∀ span body, SoftStmt (.node span (shape body)) ↔ SoftStmts body) :
    Mirrors σ False pre (Becomes (Stmt.rename σ)) SoftStmt
      (Parse.blockAfter header read inner >>= fun body => Parse.stmtFrom start (shape body))
      (Parse.blockAfter header read' inner' >>= fun body =>
      Parse.stmtFrom start' (shape' body)) := by
  refine (blockAfter hσ h hread hinner header).bindSoft ?_ fun body hbody => ?_
  · rintro body _ rfl hbody
    exact stmtFrom hstart (hshape body) fun span => (hsoft span body).not.mpr hbody
  · exact .stmtFrom fun span => (hsoft span body).mpr hbody

/-! ## Compound statements -/

theorem branch (header : Header) :
    Mirrors σ False pre (Becomes (Branch.rename σ)) (fun b => SoftStmts b.body)
      (Parse.branch header read inner) (Parse.branch header read' inner') := by
  refine next nofun fun t _ _ => (namedExpression h).bind ?_
  rintro test _ rfl
  refine (blockAfter hσ h hread hinner header).bindSoft ?_ fun body hbody => .pure hbody
  rintro body _ rfl hbody
  exact pure (by rw [t.start_rename]; rfl) hbody

omit hσ h hread hinner in
theorem ifBehind {first : Branch} {rest : List Branch} {orelse : List Stmt}
    (hfirst : ¬ SoftStmts first.body) (hrest : ¬ ∃ b ∈ rest, SoftStmts b.body)
    (horelse : ¬ SoftStmts orelse) :
    Mirrors σ False pre (Becomes (Stmt.rename σ)) SoftStmt (Parse.ifBehind first rest orelse)
      (Parse.ifBehind (first.rename σ) (rest.map (Branch.rename σ))
        (orelse.map (Stmt.rename σ))) := by
  intro c d halike _
  refine .ok ?_ ?_ halike nofun
  · rw [Branch.chain_rename halike, Branch.build_rename halike]
  · rw [Branch.isSoft_build, Branch.anySoft_chain]
    simp only [hfirst, hrest, horelse, or_self, not_false_eq_true]

omit hσ h hread hinner in
theorem yields_ifBehind {first : Branch} {rest : List Branch} {orelse : List Stmt}
    (hsoft : SoftStmts first.body ∨ (∃ b ∈ rest, SoftStmts b.body) ∨ SoftStmts orelse) :
    Yields SoftStmt (Parse.ifBehind first rest orelse) :=
  .bind fun c => .pure (by rwa [Branch.isSoft_build, Branch.anySoft_chain])

theorem ifStmt :
    Mirrors σ False pre (Becomes (Stmt.rename σ)) SoftStmt (Parse.ifStmt read inner)
      (Parse.ifStmt read' inner') := by
  refine (branch hσ h hread hinner .ifCondition).bindSoft ?_ fun first hfirst =>
    .bind fun rest => .bind fun orelse => yields_ifBehind (.inl hfirst)
  rintro first _ rfl hfirst
  refine (collectSoft (f := Branch.rename σ) ?further).bindSoft ?_ fun rest hrest =>
    .bind fun orelse => yields_ifBehind (.inr (.inl hrest))
  case further =>
    refine ifAt .kwElif ((branch hσ h hread hinner .elifCondition).bindSoft ?_ ?_)
      (pure rfl (by simp))
    · rintro b _ rfl hb
      exact pure rfl (by simpa using hb)
    · intro b hb
      exact .pure ⟨b, rfl, hb⟩
  rintro rest _ rfl hrest
  refine (elseBlock hσ h hread hinner).bindSoft ?_ fun orelse horelse =>
    yields_ifBehind (.inr (.inr horelse))
  rintro orelse _ rfl horelse
  exact ifBehind hfirst hrest horelse

theorem whileStmt :
    Mirrors σ False pre (Becomes (Stmt.rename σ)) SoftStmt (Parse.whileStmt read inner)
      (Parse.whileStmt read' inner') := by
  refine (branch hσ h hread hinner .whileCondition).bindSoft ?_ fun b hb =>
    .bind fun orelse => .stmtFrom fun _ => Bool.or_eq_true_iff.mpr (.inl hb)
  rintro b _ rfl hb
  refine (elseBlock hσ h hread hinner).bindSoft ?_ fun orelse horelse =>
    .stmtFrom fun _ => Bool.or_eq_true_iff.mpr (.inr horelse)
  rintro orelse _ rfl horelse
  exact stmtFrom rfl (by simp) fun _ =>
    Bool.or_eq_true_iff.not.mpr (not_or.mpr ⟨hb, horelse⟩)

theorem forStmt (start : Position) (isAsync : Bool) :
    Mirrors σ False pre (Becomes (Stmt.rename σ)) SoftStmt
      (Parse.forStmt read inner start isAsync) (Parse.forStmt read' inner' start isAsync) := by
  refine (starTargets h).bind ?_
  rintro target _ rfl
  refine (expect .forIn nofun).bind fun _ _ _ => (starExpressions h).bind ?_
  rintro iterable _ rfl
  refine (blockAfter hσ h hread hinner .forClause).bindSoft ?_ fun body hbody =>
    .bind fun orelse => .stmtFrom fun _ => Bool.or_eq_true_iff.mpr (.inl hbody)
  rintro body _ rfl hbody
  refine (elseBlock hσ h hread hinner).bindSoft ?_ fun orelse horelse =>
    .stmtFrom fun _ => Bool.or_eq_true_iff.mpr (.inr horelse)
  rintro orelse _ rfl horelse
  exact stmtFrom rfl (by simp) fun _ => Bool.or_eq_true_iff.not.mpr (not_or.mpr ⟨hbody, horelse⟩)

theorem withStmt (start : Position) (isAsync : Bool) :
    Mirrors σ False pre (Becomes (Stmt.rename σ)) SoftStmt
      (Parse.withStmt read inner start isAsync) (Parse.withStmt read' inner' start isAsync) := by
  refine (withItems h).bind ?_
  rintro items _ rfl
  exact bodyStmt hσ h hread hinner .withClause rfl (by simp) fun _ _ => .rfl

theorem functionDef (decorators : List Expr) (start : Position) (isAsync : Bool) :
    Mirrors σ False pre (Becomes (Stmt.rename σ)) SoftStmt
      (Parse.functionDef read inner decorators start isAsync)
      (Parse.functionDef read' inner' (decorators.map (Expr.rename σ)) start isAsync) := by
  refine (expectName .functionName).bind ?_
  rintro name _ ⟨hname, -, rfl⟩
  refine (typeParams h).bind ?_
  rintro params _ rfl
  refine (expect .parametersOpen nofun).bind fun _ _ _ => (parameters h .closeParen true).bind ?_
  rintro parameters _ rfl
  refine (expect .parametersClose nofun).bind fun _ _ _ =>
    optionally (accept .arrow nofun) (h.mirrors .expression) fun returns => ?_
  exact bodyStmt hσ h hread hinner .functionSignature rfl
    (by simp [Token.text_rename_of_identifier hname]) fun _ _ => .rfl

theorem classDef (decorators : List Expr) (start : Position) :
    Mirrors σ False pre (Becomes (Stmt.rename σ)) SoftStmt
      (Parse.classDef read inner decorators start)
      (Parse.classDef read' inner' (decorators.map (Expr.rename σ)) start) := by
  refine (expectName .className).bind ?_
  rintro name _ ⟨hname, -, rfl⟩
  refine (typeParams h).bind ?_
  rintro params _ rfl
  have hbody (draft : ArgumentDraft) : Mirrors σ False anywhere (Becomes (Stmt.rename σ)) SoftStmt
      (Parse.blockAfter .className read inner >>= fun body => Parse.stmtFrom start
        (.classDef name.text decorators params draft.positional draft.keywords body))
      (Parse.blockAfter .className read' inner' >>= fun body => Parse.stmtFrom start
        (.classDef (name.rename σ).text (decorators.map (Expr.rename σ))
          (params.map (TypeParam.rename σ)) (draft.rename σ).positional (draft.rename σ).keywords
          body)) :=
    bodyStmt hσ h hread hinner .className rfl
      (by simp [Token.text_rename_of_identifier hname, ArgumentDraft.rename]) fun _ _ => .rfl
  refine ifAccept .openParen False.elim ((arguments h).bind ?_) (hbody ⟨[], []⟩)
  rintro draft _ rfl
  exact hbody draft

theorem decorated :
    Mirrors σ False pre (Becomes (Stmt.rename σ)) SoftStmt (Parse.decorated read inner)
      (Parse.decorated read' inner') := by
  refine (decorators h).bind ?_
  rintro decorators _ rfl
  refine peek fun start _ _ => ?_
  rw [start.start_rename]
  exact ifAccept .kwDef nofun (functionDef hσ h hread hinner decorators start.start false)
    (ifPair rfl rfl (fun _ _ _ _ => functionDef hσ h hread hinner decorators start.start true)
      (ifAccept .kwClass nofun (classDef hσ h hread hinner decorators start.start)
        (failAtToken ..)))

theorem asyncStmt (start : Position) :
    Mirrors σ False pre (Becomes (Stmt.rename σ)) SoftStmt (Parse.asyncStmt read inner start)
      (Parse.asyncStmt read' inner' start) :=
  ifAccept .kwDef nofun (functionDef hσ h hread hinner [] start true)
    (ifAccept .kwFor nofun (forStmt hσ h hread hinner start true)
      (ifAccept .kwWith nofun (withStmt hσ h hread hinner start true) (failHere _)))

/-! ## Try statements -/

theorem addHandler {draft : HandlerDraft} (hdraft : ¬ draft.Soft) :
    Mirrors σ False pre (Becomes (HandlerDraft.rename σ)) HandlerDraft.Soft
      (Parse.addHandler read inner draft) (Parse.addHandler read' inner' (draft.rename σ)) := by
  refine next nofun fun start _ _ => (accept .star nofun).bind ?_
  rintro isStar _ rfl
  refine ite (by simp [HandlerDraft.rename]) (fun _ => failAtToken ..) fun _ =>
    (handledType h isStar).bind ?_
  rintro ⟨type, name⟩ _ rfl
  refine (blockAfter hσ h hread hinner .exceptClause).bindSoft ?_ fun body hbody =>
    .bind fun span => .pure (HandlerDraft.soft_add.mpr (.inr hbody))
  rintro body _ rfl hbody
  rw [start.start_rename]
  refine spanFrom start.start fun span => pure ?_ (HandlerDraft.soft_add.not.mpr ?_)
  · simp [Becomes, HandlerDraft.rename]
  · exact not_or.mpr ⟨hdraft, hbody⟩

omit hσ h hread hinner in
/-- A draft that has a statement of a soft keyword keeps it. -/
theorem yields_addHandler {draft : HandlerDraft} (hdraft : draft.Soft) :
    Yields HandlerDraft.Soft (Parse.addHandler read inner draft) :=
  .bind fun _ => .bind fun _ => .ite (.of_fails (fails_failAtToken _ _)) <| .bind fun _ =>
    .bind fun _ =>
    .bind fun _ => .pure (HandlerDraft.soft_add.mpr (.inl hdraft))

theorem handlers :
    Mirrors σ False pre (Becomes (HandlerDraft.rename σ)) HandlerDraft.Soft
      (Parse.handlers read inner) (Parse.handlers read' inner') := by
  have hempty : ¬ HandlerDraft.Soft ⟨false, []⟩ := nofun
  refine iterateSoft (fun draft hdraft => ?_) (fun draft hdraft => ?_) hempty
  · refine ifAt .kwExcept
      ((addHandler hσ h hread hinner hdraft).at_any.bindSoft ?_ fun draft hdraft =>
      .pure hdraft) (pure rfl hdraft)
    rintro draft _ rfl hdraft
    exact pure rfl hdraft
  · exact .bind fun _ => .ite ((yields_addHandler hdraft).andThen fun _ hdraft => .pure hdraft)
      (.pure hdraft)

theorem tryBehind (start : Position) (isStar : Bool) {body : List Stmt}
    {handlers : List ExceptHandler} {orelse : List Stmt} (hbody : ¬ SoftStmts body)
    (hhandlers : ¬ ExceptHandler.anySoft handlers = true) (horelse : ¬ SoftStmts orelse) :
    Mirrors σ False pre (Becomes (Stmt.rename σ)) SoftStmt
      (Parse.tryBehind read inner start isStar body handlers orelse)
      (Parse.tryBehind read' inner' start isStar (body.map (Stmt.rename σ))
        (handlers.map (ExceptHandler.rename σ)) (orelse.map (Stmt.rename σ))) := by
  have hstmt {finalbody : List Stmt} (hfinal : ¬ SoftStmts finalbody) :
      Mirrors σ False anywhere (Becomes (Stmt.rename σ)) SoftStmt
        (if handlers.length = 0 ∧ finalbody.length = 0 then Parse.failHere .tryAlone
          else Parse.stmtFrom start (.tryBlock isStar body handlers orelse finalbody))
        (if (handlers.map (ExceptHandler.rename σ)).length = 0 ∧
            (finalbody.map (Stmt.rename σ)).length = 0 then Parse.failHere .tryAlone
          else Parse.stmtFrom start (.tryBlock isStar (body.map (Stmt.rename σ))
            (handlers.map (ExceptHandler.rename σ)) (orelse.map (Stmt.rename σ))
            (finalbody.map (Stmt.rename σ)))) :=
    ite (by simp) (fun _ => failHere _) fun _ => stmtFrom rfl (by simp) fun _ =>
      softStmt_tryBlock.not.mpr (by simpa only [not_or] using ⟨hbody, hhandlers, horelse, hfinal⟩)
  refine test (accept .kwFinally nofun) ((blockAfter hσ h hread hinner .finallyWord).bindSoft ?_ ?_)
    (hstmt nofun)
  · rintro finalbody _ rfl hfinal
    exact hstmt hfinal
  · intro finalbody hfinal
    exact .ite (.of_fails (fails_failHere _))
      (.stmtFrom fun _ => softStmt_tryBlock.mpr (.inr (.inr (.inr hfinal))))

theorem tryStmt :
    Mirrors σ False pre (Becomes (Stmt.rename σ)) SoftStmt (Parse.tryStmt read inner)
      (Parse.tryStmt read' inner') := by
  refine next nofun fun t _ _ => ?_
  rw [t.start_rename]
  refine (blockAfter hσ h hread hinner .tryWord).bindSoft ?_ fun body hbody => .bind fun draft =>
    .bind fun _ => .ite (.bind fun _ => yields_tryBehind (.inl hbody))
      (.bind fun _ => yields_tryBehind (.inl hbody))
  rintro body _ rfl hbody
  refine (handlers hσ h hread hinner).bindSoft ?_ fun draft hdraft =>
    .bind fun _ => .ite (.bind fun _ => yields_tryBehind (.inr (.inl hdraft)))
      (.bind fun _ => yields_tryBehind (.inr (.inl hdraft)))
  rintro ⟨isStar, handlers⟩ _ rfl hdraft
  refine (atKind .kwElse).bind ?_
  rintro b _ rfl
  refine ite (by simp) (fun _ => ?_) fun _ => ?_
  · exact fail (fails_failHere _).bind (fails_failHere _).bind
  · refine (elseBlock hσ h hread hinner).bindSoft ?_ fun orelse horelse =>
      yields_tryBehind (.inr (.inr horelse))
    rintro orelse _ rfl horelse
    exact tryBehind hσ h hread hinner t.start isStar hbody hdraft horelse

end Blocks

end Mirrors

end Parse

end SyntaxTree
