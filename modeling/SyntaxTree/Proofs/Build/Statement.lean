import SyntaxTree.Proofs.Build.Simple
import SyntaxTree.Proofs.Rename.Statement

/-
# What compound statements build

Blocks and the statements around them build well-formed nodes.  The branches of an if statement all
end where the last of them does, and a match statement has a case because the word of one stands
behind its head.
-/

namespace SyntaxTree.Parse

variable {α : Type}

/-- A reading that gives statements, wherever it begins. -/
def BuildsStmts (p : Parse (List Stmt)) : Prop :=
  ∀ (known : Position → Prop) (pre : Token → Prop) (lo : Position),
    Builds known pre lo p (Stmt.AllWithin lo)

/-! ## Where statements begin -/

theorem Cursor.peekAt_advance (c : Cursor) (distance : Nat) :
    c.advance.peekAt distance = c.peekAt (distance + 1) := by
  obtain ⟨_, _, rest, _, _⟩ := c
  cases rest <;> rfl

/-- At a token of the source no block ends, so something is read if the first item is not empty. -/
theorem untilEnd_ne_nil {item : Parse (List α)} {c c' : Cursor} {as : List α}
    (hproper : c.peek.kind.isProper) (hitem : ∀ as c', item c = .ok as c' → as ≠ [])
    (hrun : untilEnd endsBlock item c = .ok as c') : as ≠ [] := by
  obtain ⟨items, c₁, hcollect, hlast⟩ := exists_of_bind_eq_ok hrun
  cases hlast
  obtain ⟨o, c₂, hfirst, hrest⟩ := exists_of_bind_eq_ok
    (show collectUpTo _ (c.rest.length + 1) c = .ok items c' from hcollect)
  have hnot {kind : TokenKind} (hkind : kind.isProper = false) : at? kind c = .ok false c := by
    rw [at?_peek, beq_eq_false_iff_ne.mpr]
    rintro rfl
    rw [hkind] at hproper
    cases hproper
  have hends : endsBlock c = .ok false c := by
    rw [endsBlock, bind_ok (hnot rfl)]
    exact hnot rfl
  rw [bind_ok hends, if_neg (by decide), Mirrors.accept_bind, bind_ok (hnot rfl),
    if_neg (by decide)] at hfirst
  obtain ⟨first, c₃, hfirst, hsome⟩ := exists_of_bind_eq_ok hfirst
  cases hsome
  obtain ⟨rest, c₄, -, hitems⟩ := exists_of_bind_eq_ok hrest
  cases hitems
  rw [List.flatten_cons]
  exact List.append_ne_nil_of_left_ne_nil (hitem first _ hfirst) _

theorem Looks.endsBlock : Looks endsBlock := (at? _).bind fun _ => ite (pure _) (at? _)

/-! ## Branches -/

namespace Branch

/-- A branch lies between two places, and what is in it behind its own beginning. -/
structure IsBuilt (lo hi : Position) (b : Branch) : Prop where
  le_start : lo ≤ b.start
  start_le : b.start ≤ hi
  test : (Node.expr b.test).Within .load b.start hi
  body : Stmt.AllWithin b.start hi b.body

/-- Branches that lie one behind the other. -/
def AreBuilt (lo hi : Position) : List Branch → Prop
  | [] => True
  | b :: rest => b.IsBuilt lo hi ∧ AreBuilt b.start hi rest

/-- Where the last of some branches begins. -/
def lastStart (lo : Position) : List Branch → Position
  | [] => lo
  | b :: rest => lastStart b.start rest

variable {c : Cursor} {lo hi : Position} {b : Branch} {bs : List Branch} {orelse : List Stmt}

theorem AreBuilt.lastStart_between (h : AreBuilt lo hi bs) (hle : lo ≤ hi) :
    lo ≤ lastStart lo bs ∧ lastStart lo bs ≤ hi := by
  induction bs generalizing lo with
  | nil => exact ⟨Position.le_refl lo, hle⟩
  | cons b rest ih =>
    obtain ⟨hb, hrest⟩ := h
    obtain ⟨hlo, hhi⟩ := ih hrest hb.start_le
    exact ⟨Position.le_trans hb.le_start hlo, hhi⟩

/-- The if statement of a branch ends where its alternative does. -/
theorem IsBuilt.build_stands (h : b.IsBuilt lo c.front) (hline : 1 ≤ lo.line)
    (horelse : Stmt.AllWithin b.start c.front orelse) : (b.build c orelse).Stands lo c.front := by
  have hspan : c.spanFrom b.start = ⟨b.start, some c.front⟩ :=
    Cursor.spanFrom_eq (Int.le_trans hline (Position.line_le_of_le h.le_start)) h.start_le
  refine Node.Fits.stands ?_ hspan h.start_le h.le_start (Position.le_refl _)
  suffices hbodies : ∀ s ∈ b.body ++ orelse, (Node.stmt s).Within .load b.start c.front by
    simpa [build] using ⟨h.test, by simpa using hbodies⟩
  exact List.forall_mem_append.mpr ⟨h.body, horelse⟩

theorem AreBuilt.chain_within (h : AreBuilt lo c.front bs) (hline : 1 ≤ lo.line)
    (horelse : Stmt.AllWithin (lastStart lo bs) c.front orelse) :
    Stmt.AllWithin lo c.front (chain c bs orelse) := by
  induction bs generalizing lo with
  | nil => exact horelse
  | cons b rest ih =>
    obtain ⟨hb, hrest⟩ := h
    have hline' := Int.le_trans hline (Position.line_le_of_le hb.le_start)
    exact List.forall_mem_singleton.mpr (hb.build_stands hline (ih hrest hline' horelse)).within

end Branch

/-! ## Handlers -/

/-- The handlers that have been read lie between two places, and starred ones have types. -/
structure HandlerDraft.IsBuilt (lo hi : Position) (draft : HandlerDraft) : Prop where
  within : ∀ handler ∈ draft.handlers, (Node.exceptHandler handler).Within .load lo hi
  typed : draft.isStar → ∀ handler ∈ draft.handlers, handler.type.isSome

namespace Builds

variable {known : Position → Prop} {pre : Token → Prop} {lo start : Position} {read : Reading}
  {inner : Parse (List Stmt)}

/-- The choice between two readings by whether a word stands at the cursor. -/
theorem ifWord {p p' : Parse α} {P : Position → α → Prop} (word : Bytes)
    (h : Builds known (fun t => t.kind = .identifier) lo p P) (h' : Builds known pre lo p' P) :
    Builds known pre lo (Parse.isWordAt 0 word >>= fun b => if b then p else p') P := by
  intro c a c' hc hpre hrun
  rw [bind_ok (isWordAt_zero word c)] at hrun
  split at hrun
  · next hword =>
    rw [Bool.and_eq_true, beq_iff_eq] at hword
    exact h hc hword.1 hrun
  · exact h' hc hpre hrun

/-! ## Blocks -/

theorem untilEnd {ends : Parse Bool} {item : Parse (List α)} {P : Position → α → Prop}
    (hends : Looks ends) (h : Builds known anywhere lo item fun hi as => ∀ a ∈ as, P hi a) :
    Builds known pre lo (Parse.untilEnd ends item) fun hi as => ∀ a ∈ as, P hi a := by
  refine (collect (P := fun hi as => ∀ a ∈ as, P hi a) (test hends notFound
    (ifAccept .newline (pure ?_) h.found))).bind fun as => pure ?_
  · rintro hi - _ ⟨⟩
    exact List.forall_mem_nil _
  · rintro hi ⟨-, has⟩ a ha
    obtain ⟨as, hmem, ha⟩ := List.mem_flatten.mp ha
    exact has as hmem a ha

section Blocks

variable (h : ReadingBuilds read) (hinner : BuildsStmts inner)

include h hinner

theorem block : BuildsStmts (Parse.block read inner) := by
  intro known pre lo
  refine ifAccept .newline (ifAt .indent (skip fun _ _ => ?_) (failHere _)) (line h)
  exact (untilEnd Looks.endsBlock (hinner _ _ _)).bind fun body => (accept .dedent).andThen
    fun _ => pure fun _ => And.right

theorem blockAfter (header : Header) :
    Builds known pre lo (Parse.blockAfter header read inner) fun hi body =>
      lo ≤ hi ∧ Stmt.AllWithin lo hi body :=
  (expect (.colon header) rfl).bind fun _ => (block h hinner _ _ _).keep.imp fun _ _ hbody =>
    ⟨hbody.1.2, hbody.2⟩

theorem elseBlock : BuildsStmts (Parse.elseBlock read inner) := fun _ _ _ =>
  ifAccept .kwElse ((blockAfter h hinner .elseWord).imp fun _ _ => And.right)
    (pure fun _ _ => List.forall_mem_nil _)

/-! ## Conditions and loops -/

theorem branch (header : Header) :
    Builds known (fun t => t.kind.isProper) lo (Parse.branch header read inner) fun hi b =>
      b.IsBuilt lo hi := by
  refine next (fun _ => id) fun t _ hlo => (namedExpression h).bind fun test => ?_
  refine (blockAfter h hinner header).bind fun body => pure fun hi ⟨⟨hstart, htest⟩, _, hbody⟩ => ?_
  exact ⟨hlo, hstart, htest.within, hbody⟩

/-- Each further branch stands behind the beginning of the one before. -/
theorem branches :
    Builds known pre lo (Parse.collect (at? .kwElif >>= fun b => if b then
      Parse.branch .elifCondition read inner >>= fun b => Pure.pure (some b) else Pure.pure none))
      fun hi bs => Branch.AreBuilt lo hi bs := by
  -- By induction on the limit, for all places: a branch is where the ones behind it begin.
  have hupto (limit : Nat) : ∀ (known : Position → Prop) (lo : Position), Builds known anywhere lo
      (collectUpTo (at? .kwElif >>= fun b => if b then
        Parse.branch .elifCondition read inner >>= fun b => Pure.pure (some b) else Pure.pure none)
        limit) fun hi bs => Branch.AreBuilt lo hi bs := by
    induction limit with
    | zero => exact fun _ _ => failHere _
    | succ limit ih =>
      intro known lo
      have hitem : Builds known anywhere lo (at? .kwElif >>= fun b => if b then
          Parse.branch .elifCondition read inner >>= fun b => Pure.pure (some b)
          else Pure.pure none) fun hi o => ∀ b ∈ o, b.IsBuilt lo hi :=
        ifAt .kwElif ((branch h hinner .elifCondition).mono (proper rfl)).found notFound
      refine hitem.bind fun o => ?_
      cases o with
      | none => exact pure fun _ _ => trivial
      | some b =>
        refine raise (fun hi hknown => ?_) fun _ => (ih _ b.start).bind fun bs => pure ?_
        · obtain ⟨-, hb⟩ := hknown
          exact ⟨(hb b rfl).le_start, (hb b rfl).start_le⟩
        · exact fun hi ⟨⟨_, hb⟩, hbs⟩ => ⟨hb b rfl, hbs⟩
  exact fun c bs c' hc _ hrun => hupto (c.rest.length + 1) known lo hc trivial hrun

omit h hinner in
theorem ifBehind {first : Branch} {rest : List Branch} {orelse : List Stmt} (hline : 1 ≤ lo.line) :
    Builds (fun hi => (first.IsBuilt lo hi ∧ Branch.AreBuilt first.start hi rest) ∧
      Stmt.AllWithin (Branch.lastStart first.start rest) hi orelse) pre start
      (Parse.ifBehind first rest orelse) (Stmt.Stands lo) := by
  intro c s c' hc _ hrun
  cases hrun
  -- All branches end at the front of one cursor, so nothing is read between them.
  obtain ⟨⟨hfirst, hrest⟩, horelse⟩ := hc.known _ (Position.le_refl _)
  have hline' := Int.le_trans hline (Position.line_le_of_le hfirst.le_start)
  refine ⟨.refl c, fun hi hhi => ?_⟩
  exact (hfirst.build_stands hline (hrest.chain_within hline' horelse)).widen
    (Position.le_refl lo) hhi

theorem ifStmt :
    Builds known (fun t => t.kind = .kwIf) lo (Parse.ifStmt read inner) (Stmt.Stands lo) := by
  refine lined fun hline => ((branch h hinner .ifCondition).mono (proper rfl)).bind fun first => ?_
  refine raise (fun hi ⟨_, hfirst⟩ => ⟨hfirst.le_start, hfirst.start_le⟩) fun _ => ?_
  refine (branches h hinner).bind fun rest => ?_
  refine raise (fun hi ⟨⟨_, hfirst⟩, hrest⟩ => hrest.lastStart_between hfirst.start_le) fun _ => ?_
  refine (elseBlock h hinner _ _ _).bind fun orelse => (ifBehind hline).knowing ?_
  exact fun hi ⟨⟨⟨_, hfirst⟩, hrest⟩, horelse⟩ => ⟨⟨hfirst, hrest⟩, horelse⟩

theorem whileStmt :
    Builds known (fun t => t.kind = .kwWhile) lo (Parse.whileStmt read inner) (Stmt.Stands lo) := by
  refine ((branch h hinner .whileCondition).mono (proper rfl)).bind fun b => ?_
  refine raise (fun hi ⟨_, hb⟩ => ⟨hb.le_start, hb.start_le⟩) fun hlo => ?_
  refine (elseBlock h hinner _ _ _).bind fun orelse => stmtFrom hlo ?_
  rintro hi ⟨⟨-, hb⟩, horelse⟩
  refine ⟨hb.start_le, ?_⟩
  suffices hbodies : ∀ s ∈ b.body ++ orelse, (Node.stmt s).Within .load b.start hi by
    simpa using ⟨hb.test, by simpa using hbodies⟩
  exact List.forall_mem_append.mpr ⟨hb.body, horelse⟩

theorem forStmt (isAsync : Bool) (hlo : lo ≤ start) :
    Builds known pre start (Parse.forStmt read inner start isAsync) (Stmt.Stands lo) := by
  refine (starTargets h).bind fun target => (expect _ rfl).andThen fun _ => ?_
  refine (starExpressions h).bind fun iterable => (blockAfter h hinner _).bind fun body => ?_
  refine (elseBlock h hinner _ _ _).bind fun orelse => stmtFrom hlo ?_
  rintro hi ⟨⟨⟨⟨-, htarget, hshape⟩, hiterable⟩, -, hbody⟩, horelse⟩
  refine ⟨htarget.le, ?_⟩
  suffices hbodies : ∀ s ∈ body ++ orelse, (Node.stmt s).Within .load start hi by
    simpa using ⟨⟨hshape, htarget.within⟩, hiterable.within, by simpa using hbodies⟩
  exact List.forall_mem_append.mpr ⟨hbody, horelse⟩

/-! ## Context managers -/

omit hinner in
theorem withItem :
    Builds known pre lo (Parse.withItem read) fun hi item =>
      (Node.withItem item).Within .load lo hi := by
  have htarget {known : Position → Prop} {lo : Position} : Builds known anywhere lo
      (Parse.starTarget read >>= Parse.storeTarget) fun hi e =>
        e.IsTarget false false ∧ (Node.expr e).Within .store lo hi :=
    (starTarget h).bind fun e => (storeTarget fun _ => And.right).imp fun _ _ he =>
      ⟨he.2, he.1.within⟩
  refine (h .expression).first fun context hlo => optionally (accept .kwAs) htarget fun target => ?_
  refine (nodeFrom (fun span => WithItem.mk span context target) .withItem (fun _ => rfl) hlo
    ?_).imp
    fun _ _ hitem => hitem.within
  exact fun hi ⟨hcontext, htarget⟩ =>
    ⟨hcontext.start_le, by simpa using ⟨hcontext.within, htarget⟩⟩

omit hinner in
theorem parenthesizedItems :
    Builds known pre lo (Parse.parenthesizedItems read) fun hi o =>
      ∀ items ∈ o, items ≠ [] ∧ ∀ item ∈ items, (Node.withItem item).Within .load lo hi := by
  refine skip fun _ _ => (itemsUntil .closeParen (withItem h)).bind fun items => ?_
  refine ite (fun _ => notFound) fun hlength => ifAccept .closeParen ?_ notFound
  refine ifAt .colon (pure ?_) notFound
  rintro hi ⟨-, hitems⟩ _ ⟨⟩
  exact ⟨fun hnil => hlength (by rw [hnil]; rfl), hitems⟩

omit hinner in
theorem withItems :
    Builds known pre lo (Parse.withItems read) fun hi items =>
      items ≠ [] ∧ ∀ item ∈ items, (Node.withItem item).Within .load lo hi := by
  refine ifAt .openParen ((attempt (parenthesizedItems h)).bind fun o => ?_)
    (oneOrMore (withItem h))
  cases o with
  | none => exact oneOrMore (withItem h)
  | some items => exact pure fun hi hknown => hknown.2 items rfl

theorem withStmt (isAsync : Bool) (hlo : lo ≤ start) :
    Builds known pre start (Parse.withStmt read inner start isAsync) (Stmt.Stands lo) := by
  refine (withItems h).bind fun items => (blockAfter h hinner _).bind fun body => stmtFrom hlo ?_
  exact fun hi ⟨⟨_, hne, hitems⟩, hle, hbody⟩ => ⟨hle, by simpa using ⟨hne, hitems, hbody⟩⟩

/-! ## Try statements -/

omit hinner in
/-- A name belongs to a type, and a star needs one. -/
theorem handledType (isStar : Bool) :
    Builds known pre lo (Parse.handledType read isStar) fun hi handled =>
      (∀ e ∈ handled.1, (Node.expr e).Within .load lo hi) ∧
        (handled.2.isSome → handled.1.isSome) ∧ (isStar → handled.1.isSome) := by
  refine ifAt .colon (ite (fun _ => failHere _) fun hplain => pure fun _ _ => ?_) ?_
  · exact ⟨nofun, nofun, fun hstar => absurd hstar hplain⟩
  · refine (h .expression).bind fun type => (renamed .exceptionName).andThen fun name => pure ?_
    rintro hi ⟨-, htype⟩
    refine ⟨?_, fun _ => rfl, fun _ => rfl⟩
    rintro _ ⟨⟩
    exact htype.within

omit h hinner in
/-- The end of a handler that begins at a place. -/
theorem handlerFrom (type : Option Expr) (name : Option Bytes) (body : List Stmt) (hlo : lo ≤ start)
    (h : ∀ hi, known hi → start ≤ hi ∧ (∀ e ∈ type, (Node.expr e).Within .load start hi) ∧
      (name.isSome → type.isSome) ∧ Stmt.AllWithin start hi body) :
    Builds known pre start (Parse.spanFrom start) fun hi span =>
      (Node.exceptHandler (.mk span type name body)).Within .load lo hi := by
  refine (spanFrom .load (fun span => .exceptHandler (.mk span type name body)) (fun _ => rfl) hlo
    fun hi hknown => ?_).imp fun _ _ hhandler => hhandler.within
  obtain ⟨hstart, htype, hname, hbody⟩ := h hi hknown
  exact ⟨hstart, by simpa using ⟨hname, htype, hbody⟩⟩

/-- Handlers are starred like the first of them. -/
theorem addHandler (draft : HandlerDraft) :
    Builds (fun hi => draft.IsBuilt lo hi) (fun t => t.kind = .kwExcept) lo
      (Parse.addHandler read inner draft) fun hi draft => draft.IsBuilt lo hi := by
  refine (nextToken (proper rfl)).bind fun t => ?_
  refine raise (fun _ hknown => hknown.2.2) fun hlo => (accept .star).andThen fun isStar => ?_
  refine ite (fun _ => failAtToken ..) fun hmixed => (handledType h isStar).bind fun handled => ?_
  obtain ⟨type, name⟩ := handled
  refine (blockAfter h hinner .exceptClause).bind fun body =>
    (handlerFrom type name body hlo fun hi hknown => ?_).bind fun span => pure fun hi hknown => ?_
  · obtain ⟨⟨-, htype, hname, -⟩, hstart, hbody⟩ := hknown
    exact ⟨hstart, htype, hname, hbody⟩
  · obtain ⟨⟨⟨⟨hdraft, -⟩, -, -, hstar⟩, -⟩, hhandler⟩ := hknown
    refine ⟨forall_mem_concat hdraft.within hhandler, fun hisStar =>
      forall_mem_concat (fun handler hmem => hdraft.typed ?_ handler hmem) (hstar hisStar)⟩
    have hlength : draft.handlers.length ≠ 0 := (List.length_pos_of_mem hmem).ne'
    exact Classical.not_not.mp (fun hne => hmixed ⟨hlength, hne⟩) ▸ hisStar

theorem handlers :
    Builds known pre lo (Parse.handlers read inner) fun hi draft => draft.IsBuilt lo hi := by
  refine iterate (fun _ _ => ⟨List.forall_mem_nil _, fun _ => List.forall_mem_nil _⟩) fun draft =>
    ?_
  exact ifAt .kwExcept ((addHandler h hinner draft).bind fun draft => pure fun _ => And.right)
    (pure fun _ => id)

/-- There is no alternative where its word does not stand. -/
theorem elseBehind (handlers : List ExceptHandler)
    (hpre : ∀ t, pre t → handlers = [] → t.kind ≠ .kwElse) :
    Builds known pre lo (Parse.elseBlock read inner) fun hi orelse =>
      Stmt.AllWithin lo hi orelse ∧ (orelse ≠ [] → handlers ≠ []) := by
  intro c orelse c' hc hpeek hrun
  obtain ⟨hmove, hwithin⟩ := elseBlock h hinner known pre lo hc hpeek hrun
  refine ⟨hmove, fun hi hhi => ⟨hwithin hi hhi, fun hne hnil => ?_⟩⟩
  have hkind : ¬ (c.peek.kind == .kwElse) = true := by simpa using hpre _ hpeek hnil
  rw [Parse.elseBlock, Mirrors.accept_bind, bind_ok (at?_peek _ c), if_neg hkind] at hrun
  cases hrun
  exact hne rfl

theorem tryBehind {isStar : Bool} {body orelse : List Stmt} {handlers : List ExceptHandler}
    (hlo : lo ≤ start)
    (hknown : ∀ hi, known hi → (start ≤ hi ∧ Stmt.AllWithin start hi body) ∧
      HandlerDraft.IsBuilt start hi ⟨isStar, handlers⟩ ∧ Stmt.AllWithin start hi orelse ∧
        (orelse ≠ [] → handlers ≠ [])) :
    Builds known pre start (Parse.tryBehind read inner start isStar body handlers orelse)
      (Stmt.Stands lo) := by
  have hstmt (finalbody : List Stmt) :
      Builds (fun hi => known hi ∧ Stmt.AllWithin start hi finalbody) anywhere start
        (if handlers.length = 0 ∧ finalbody.length = 0 then Parse.failHere .tryAlone
          else Parse.stmtFrom start (.tryBlock isStar body handlers orelse finalbody))
        (Stmt.Stands lo) := by
    refine ite (fun _ => failHere _) fun halone => stmtFrom hlo fun hi ⟨hall, hfinal⟩ => ?_
    obtain ⟨⟨hstart, hbody⟩, hdraft, horelse, helse⟩ := hknown hi hall
    have hsome : handlers ≠ [] ∨ finalbody ≠ [] := by
      simpa [Classical.or_iff_not_imp_left] using halone
    suffices hbodies : ∀ s ∈ orelse ++ finalbody, (Node.stmt s).Within .load start hi by
      exact ⟨hstart, by simpa using
        ⟨⟨hsome, helse, hdraft.typed⟩, hbody, hdraft.within, by simpa using hbodies⟩⟩
    exact List.forall_mem_append.mpr ⟨horelse, hfinal⟩
  refine (accept .kwFinally).andThen fun b => ite (fun _ => ?_) fun _ => ?_
  · exact ((blockAfter h hinner .finallyWord).imp fun _ _ => And.right).bind hstmt
  · exact (hstmt []).knowing fun _ hall => ⟨hall, List.forall_mem_nil _⟩

theorem tryStmt :
    Builds known (fun t => t.kind = .kwTry) lo (Parse.tryStmt read inner) (Stmt.Stands lo) := by
  refine next (proper rfl) fun t _ hlo => (blockAfter h hinner .tryWord).bind fun body => ?_
  refine (handlers h hinner).bind fun draft => seen .kwElse fun b => ?_
  obtain ⟨isStar, handlers⟩ := draft
  refine ite (fun _ => of_fails (fails_failHere _).bind) fun halone => ?_
  refine (elseBehind h hinner handlers ?_).bind fun orelse => tryBehind h hinner hlo ?_
  · rintro t ⟨-, rfl⟩ rfl hkind
    exact halone (by simp [hkind])
  · exact fun hi ⟨⟨⟨_, hbody⟩, hdraft⟩, horelse⟩ => ⟨hbody, hdraft, horelse⟩

/-! ## Definitions -/

section Definitions

variable {decorators : List Expr}
  (hdecorators : ∀ e ∈ decorators, (Node.expr e).WellFormed none .load)

include hdecorators

theorem functionDef (isAsync : Bool) (hlo : lo ≤ start) :
    Builds known pre start (Parse.functionDef read inner decorators start isAsync)
      (Stmt.Stands lo) := by
  refine (expectName .functionName).bind fun name => (typeParams h).bind fun params => ?_
  refine (expect _ rfl).andThen fun _ => (parameters h .closeParen true).bind fun parameters => ?_
  refine (expect _ rfl).andThen fun _ => optionally (accept .arrow) (h .expression).within
    fun returns => (blockAfter h hinner .functionSignature).bind fun body => stmtFrom hlo ?_
  rintro hi ⟨⟨⟨⟨-, hparams⟩, hparameters⟩, hreturns⟩, hstart, hbody⟩
  exact ⟨hstart, by simpa using ⟨hdecorators, hparams, hparameters, hreturns, hbody⟩⟩

theorem classDef (hlo : lo ≤ start) :
    Builds known pre start (Parse.classDef read inner decorators start) (Stmt.Stands lo) := by
  refine (expectName .className).bind fun name => (typeParams h).bind fun params => ?_
  have hbody (draft : ArgumentDraft) {known : Position → Prop}
      (hknown : ∀ hi, known hi → (∀ p ∈ params, (Node.typeParam p).Within .load start hi) ∧
        draft.IsBuilt start hi) :
      Builds known anywhere start (Parse.blockAfter .className read inner >>= fun body =>
        Parse.stmtFrom start
          (.classDef name.text decorators params draft.positional draft.keywords body))
        (Stmt.Stands lo) := by
    refine (blockAfter h hinner .className).bind fun body => stmtFrom hlo ?_
    rintro hi ⟨hall, hstart, hbody⟩
    obtain ⟨hparams, hdraft⟩ := hknown hi hall
    exact ⟨hstart, by
      simpa using ⟨hdecorators, hparams, hdraft.positional, hdraft.keywords, hbody⟩⟩
  refine ifAccept .openParen ((arguments h).bind fun draft => hbody draft ?_)
    (hbody ⟨[], []⟩ fun hi hknown => ⟨hknown.2, nofun, nofun⟩)
  exact fun hi ⟨⟨_, hparams⟩, hdraft, _⟩ => ⟨hparams, hdraft⟩

end Definitions

omit hinner in
theorem decorators :
    Builds known pre lo (Parse.decorators read) fun _ decorators =>
      ∀ e ∈ decorators, (Node.expr e).WellFormed none .load := by
  refine collect (ifAccept .atSign ((namedExpression h).bind fun value =>
    (expectAny _).andThen fun _ => pure ?_) notFound)
  rintro hi ⟨-, hvalue⟩ _ ⟨⟩
  exact hvalue.within.widen (widens_none _)

theorem decorated : BuildsStmt (Parse.decorated read inner) := by
  intro known pre lo
  -- A definition begins behind its decorators, which hold on their own.
  refine (decorators h).bind fun decorators => given (fun _ => And.right) fun hdecorators => ?_
  refine peek fun start _ hlo => ifAccept .kwDef (functionDef h hinner hdecorators false hlo) ?_
  refine ifPair rfl ?_ (ifAccept .kwClass (classDef h hinner hdecorators hlo) (failAtToken ..))
  rintro _ rfl -
  exact functionDef h hinner hdecorators true hlo

theorem asyncStmt (hlo : lo ≤ start) :
    Builds known pre start (Parse.asyncStmt read inner start) (Stmt.Stands lo) :=
  ifAccept .kwDef (functionDef h hinner (List.forall_mem_nil _) true hlo)
    (ifAccept .kwFor (forStmt h hinner true hlo)
      (ifAccept .kwWith (withStmt h hinner true hlo) (failHere _)))

/-! ## Match statements -/

variable {field : FieldReading} (hfield : FieldBuilds field)

omit hinner in
theorem matchSubject :
    Builds known pre lo (Parse.matchSubject read) fun hi o => ∀ e ∈ o, e.Stands .load lo hi := by
  refine skip fun _ _ => test Looks.startsStarred ?_ notFound
  refine (tupleOf Looks.startsNoItem (starNamed h) _ _ _).bind fun subject => ?_
  refine look (Looks.at? _) fun _ => look (Looks.kindAt 1) fun _ => look (Looks.kindAt 2) fun _ =>
    look (Looks.isWordAt 3 _) fun _ => ite (fun _ => pure ?_) fun _ => notFound
  rintro hi ⟨-, hsubject⟩ _ ⟨⟩
  exact hsubject

include hfield

theorem matchCase :
    Builds known (fun t => t.kind = .identifier) lo (Parse.matchCase read field inner)
      fun hi case => (Node.matchCase case).Within .load lo hi := by
  refine next (proper rfl) fun t _ hlo => (casePattern hfield _ _ _).bind fun pattern => ?_
  refine optionally (accept .kwIf) (namedExpression h).within fun guard => ?_
  refine (blockAfter h hinner .casePattern).bind fun body => ?_
  refine (nodeFrom (fun span => MatchCase.mk span pattern guard body) .matchCase (fun _ => rfl) hlo
    ?_).imp fun _ _ hcase => hcase.within
  exact fun hi ⟨⟨⟨_, hpattern⟩, hguard⟩, hstart, hbody⟩ =>
    ⟨hstart, by simpa using ⟨hpattern.within, hguard, hbody⟩⟩

/-- There is a case where the word of one stands. -/
theorem matchCases :
    Builds known (fun t => t.kind = .identifier) lo (Parse.matchCases read field inner)
      fun hi cases => cases ≠ [] ∧ ∀ case ∈ cases, (Node.matchCase case).Within .load lo hi := by
  intro c cases c' hc hpre hrun
  have hcases : Builds known anywhere lo (Parse.matchCases read field inner) fun hi cases =>
      ∀ case ∈ cases, (Node.matchCase case).Within .load lo hi :=
    untilEnd Looks.endsBlock (ifWord _ ((matchCase h hinner hfield).bind fun case => pure fun hi
      hknown => List.forall_mem_singleton.mpr hknown.2) (failHere _))
  obtain ⟨hmove, hwithin⟩ := hcases hc trivial hrun
  have hproper : c.peek.kind.isProper := by
    rw [hpre]
    rfl
  refine ⟨hmove, fun hi hhi => ⟨untilEnd_ne_nil hproper (fun as c₁ has => ?_) hrun, hwithin hi hhi⟩⟩
  rw [bind_ok (isWordAt_zero _ c)] at has
  split at has
  · obtain ⟨case, c₂, -, has⟩ := exists_of_bind_eq_ok has
    cases has
    exact List.cons_ne_nil case []
  · cases has

theorem matchBehind {subject : Expr} (hlo : lo ≤ start) {c c' : Cursor} {s : Stmt}
    (hc : c.IsAt (fun hi => subject.Stands .load start hi) start)
    (hcase : (c.peekAt 3).kind = .identifier)
    (hrun : Parse.matchBehind read field inner start subject c = .ok s c') :
    c.Precedes c' ∧ ∀ hi, c'.front ≤ hi → s.Stands lo hi := by
  have hfrom :
      Builds (fun hi => subject.Stands .load start hi) (fun t => t.kind = .identifier) start
      (Parse.matchCases read field inner >>= fun cases => Parse.accept .dedent >>= fun _ =>
        Parse.stmtFrom start (.matchBlock subject cases)) (Stmt.Stands lo) := by
    refine (matchCases h hinner hfield).bind fun cases => (accept .dedent).andThen fun _ =>
      stmtFrom hlo fun hi ⟨hsubject, hne, hcases⟩ => ?_
    exact ⟨hsubject.le, by simpa using ⟨hne, hsubject.within, hcases⟩⟩
  rw [Parse.matchBehind, bind_ok (next_run c), bind_ok (next_run c.advance),
    bind_ok (next_run c.advance.advance)] at hrun
  have hpeek : c.advance.advance.advance.peek = c.peekAt 3 := by
    rw [Cursor.peek_advance, Cursor.peekAt_advance, Cursor.peekAt_advance]
  obtain ⟨hmove, hs⟩ := hfrom hc.advance.advance.advance (hpeek ▸ hcase) hrun
  have hfar := hc.isSound.precedes_advance.trans (hc.advance.isSound.precedes_advance.trans
    hc.advance.advance.isSound.precedes_advance)
  exact ⟨hfar.trans hmove, hs⟩

theorem matchStmt :
    Builds known pre lo (Parse.matchStmt read field inner) fun hi o =>
      ∀ s ∈ o, s.Stands lo hi := by
  intro c o c' hc hpre hrun
  rcases attempt_run (Parse.matchSubject read) c with hnone | ⟨subject, c₁, c₂, hsome, hsubject⟩
  · rw [matchStmt_none hnone] at hrun
    cases hrun
    exact ⟨.refl c, fun _ _ => nofun⟩
  · rw [matchStmt_some hsome] at hrun
    obtain ⟨s, c₃, hs, hlast⟩ := exists_of_bind_eq_ok hrun
    cases hlast
    have htried : Builds known anywhere c.peek.start (Parse.attempt (Parse.matchSubject read))
        fun hi o => ∀ e ∈ o, e.Stands .load c.peek.start hi := attempt (matchSubject h)
    obtain ⟨hmove, hstands⟩ := htried hc.at_peek trivial hsome
    -- The attempt has looked as far as the word of the first case, three tokens ahead.
    obtain ⟨-, -, -, -, hcase⟩ := matchSubject_eq_ok hsubject
    rw [Parse.attempt, hsubject] at hsome
    cases hsome
    have hc₁ := (hc.at_peek.move hmove).and fun hi hhi => hstands hi hhi subject rfl
    obtain ⟨hmove', hs⟩ :=
      matchBehind h hinner hfield hc.le_peek (hc₁.imp fun _ => And.right) hcase hs
    refine ⟨hmove.trans hmove', fun hi hhi => ?_⟩
    rintro _ ⟨⟩
    exact hs hi hhi

/-! ## All statements -/

omit h hinner hfield in
theorem single {p : Parse Stmt} (h : Builds known pre lo p (Stmt.Stands lo)) :
    Builds known pre lo (Parse.statements.single p) (Stmt.AllWithin lo) :=
  h.bind fun _ => pure fun _ hknown => List.forall_mem_singleton.mpr hknown.2.within

theorem statements : BuildsStmts (Parse.statements read field inner) := by
  intro known pre lo
  refine peek fun t _ hlo => ?_
  -- What begins at the token begins behind the place in front of it.
  suffices hall : Builds known (· = t) t.start _ (Stmt.AllWithin t.start) from
    hall.imp fun _ _ hbody s hs => (hbody s hs).widen (widens_some hlo (Position.le_refl _))
  have hle := Position.le_refl t.start
  split
  · exact failAtToken ..
  · exact single ((ifStmt h hinner).at_token ‹_›)
  · exact single ((whileStmt h hinner).at_token ‹_›)
  · exact single ((tryStmt h hinner).at_token ‹_›)
  · exact single (decorated h hinner _ _ _)
  · exact single (skip fun _ _ => forStmt h hinner false hle)
  · exact single (skip fun _ _ => withStmt h hinner false hle)
  · exact single (skip fun _ _ => functionDef h hinner (List.forall_mem_nil _) false hle)
  · exact single (skip fun _ _ => classDef h hinner (List.forall_mem_nil _) hle)
  · exact single (skip fun _ _ => asyncStmt h hinner hle)
  · refine look (Looks.isWordAt 0 _) fun _ => ite (fun _ => ?_) fun _ => line h
    refine (matchStmt h hinner hfield).bind fun o => ?_
    cases o with
    | none => exact line h
    | some s =>
      exact pure fun hi hknown => List.forall_mem_singleton.mpr (hknown.2 s rfl).within

omit hinner in
theorem statementsUpTo : ∀ limit : Nat, BuildsStmts (Parse.statementsUpTo read field limit)
  | 0 => fun _ _ _ => failHere _
  | limit + 1 => statements h (statementsUpTo limit) hfield

end Blocks

end Builds

end SyntaxTree.Parse
