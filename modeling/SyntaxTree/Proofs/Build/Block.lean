import SyntaxTree.Proofs.Build.Module
import SyntaxTree.Proofs.Ending.Range
import SyntaxTree.Proofs.Token.Firm
import SyntaxTree.Proofs.Tree.Block
import SyntaxTree.Unicode.NameTable

/-
# Blocks are not empty

Where tokens of the source stand behind the indentation of blocks, no block that is read is empty.
All readings move forward over the same tokens, so what is known of them stays known, and each
statement is built from blocks that have been read before.
-/

namespace SyntaxTree

/-! ## Firm cursors -/

namespace Cursor

variable {c c' : Cursor}

/-- A cursor over sound tokens that are firm. -/
structure IsFirm (c : Cursor) : Prop extends c.IsSound where
  isFirm : AreFirm c.tokens

theorem IsFirm.move (h : c.IsFirm) (hmove : c.Precedes c') : c'.IsFirm :=
  ⟨h.toIsSound.move hmove, hmove.tokens ▸ h.isFirm⟩

/-- A sound cursor stands where its next token does. -/
theorem IsSound.isAt_peek (h : c.IsSound) : c.IsAt (fun _ => True) c.peek.start :=
  ⟨h, (h.isSound _ c.peek_mem_tokens).one_le_line, Position.le_refl _, fun _ _ => trivial⟩

/-- Behind indentation stands a token of the source. -/
theorem IsFirm.isProper_peek_advance (h : c.IsFirm) (hkind : c.peek.kind = .indent) :
    c.advance.peek.kind.isProper := by
  obtain ⟨rest, hrest⟩ := h.exists_rest_eq (by rw [hkind]; decide)
  have hahead : AreFirm (c.peek :: rest ++ [c.final]) :=
    hrest ▸ (List.isChain_append.mp h.isFirm).2.1
  have hmem : c.advance.peek ∈ (rest ++ [c.final]).head? := by
    rw [advance, hrest]
    cases rest <;> rfl
  exact (List.isChain_cons.mp hahead).1 _ hmem hkind

end Cursor

/-! ## Readings over firm tokens -/

/-- Statements of a block: there is one, and none of them has an empty block. -/
structure Stmt.AreFilled (body : List Stmt) : Prop where
  ne_nil : body ≠ []
  isFilled : ∀ s ∈ body, (Node.stmt s).IsFilled

namespace Parse

variable {α β σ : Type}

/-- Over firm tokens, where the token at the cursor is as `pre` says, a reading that succeeds moves
forward and gives a result as `P` says. -/
def Fills (pre : Token → Prop) (p : Parse α) (P : α → Prop) : Prop :=
  ∀ ⦃c a c'⦄, c.IsFirm → pre c.peek → p c = .ok a c' → c.Precedes c' ∧ P a

/-- A reading that moves forward over firm tokens. -/
abbrev Moves (pre : Token → Prop) (p : Parse α) : Prop := Fills pre p fun _ => True

namespace Fills

variable {pre : Token → Prop} {p p' : Parse α} {P : α → Prop} {Q : β → Prop}

/-! ### Readings that build -/

theorem of_builds {P : Position → Position → α → Prop}
    (h : ∀ lo, Builds (fun _ => True) pre lo p (P lo)) : Moves pre p :=
  fun _ _ _ hc hpre hrun => ⟨(h _ hc.isAt_peek hpre hrun).1, trivial⟩

theorem yields (h : Moves pre p) (hp : Yields P p) : Fills pre p P :=
  fun _ _ _ hc hpre hrun => ⟨(h hc hpre hrun).1, hp hrun⟩

theorem of_fails (h : Fails p) : Fills pre p P := by
  intro c a c' _ _ hrun
  obtain ⟨_, _, herror⟩ := h c
  rw [herror] at hrun
  cases hrun

theorem imp {P' : α → Prop} (h : Fills pre p P) (hP : ∀ a, P a → P' a) : Fills pre p P' :=
  fun _ _ _ hc hpre hrun => (h hc hpre hrun).imp_right (hP _)

/-! ### Sequences -/

theorem pure {a : α} (h : P a) : Fills pre (pure a) P := by
  intro c b c' _ _ hrun
  cases hrun
  exact ⟨.refl c, h⟩

theorem bind {k : α → Parse β} (hp : Fills pre p P) (hk : ∀ a, P a → Fills anywhere (k a) Q) :
    Fills pre (p >>= k) Q := by
  intro c b c'' hc hpre hrun
  obtain ⟨a, c', hfirst, hrest⟩ := exists_of_bind_eq_ok hrun
  obtain ⟨hmove, ha⟩ := hp hc hpre hfirst
  obtain ⟨hmove', hb⟩ := hk a ha (hc.move hmove) trivial hrest
  exact ⟨hmove.trans hmove', hb⟩

/-- What is read first holds no blocks. -/
theorem behind {P : Position → Position → α → Prop} {k : α → Parse β}
    (hp : ∀ lo, Builds (fun _ => True) pre lo p (P lo)) (hk : ∀ a, Fills anywhere (k a) Q) :
    Fills pre (p >>= k) Q :=
  (of_builds hp).bind fun a _ => hk a

/-- A value that is read and given as one that is there. -/
theorem found (h : Fills pre p P) :
    Fills pre (p >>= fun a => Pure.pure (some a)) fun o => ∀ a ∈ o, P a :=
  h.bind fun _ ha => pure fun _ hb => Option.mem_some_iff.mp hb ▸ ha

/-- A value that is not there. -/
theorem notFound : Fills pre (Pure.pure none) fun o => ∀ a ∈ o, P a :=
  pure fun a ha => absurd ha (Option.not_mem_none a)

theorem ite {b : Prop} [Decidable b] (h : Fills pre p P) (h' : Fills pre p' P) :
    Fills pre (if b then p else p') P := by
  split
  · exact h
  · exact h'

/-- What follows a look goes on from the same token. -/
theorem look {b : Parse β} {k : β → Parse α} (hb : Looks b) (hk : ∀ x, Fills pre (k x) P) :
    Fills pre (b >>= k) P := by
  intro c a c' hc hpre hrun
  obtain ⟨x, hx⟩ := hb c
  rw [bind_ok hx] at hrun
  exact hk x hc hpre hrun

/-- The choice between two readings by the kind of the token at the cursor. -/
theorem ifAt (kind : TokenKind) (h : Fills (fun t => t.kind = kind) p P) (h' : Fills pre p' P) :
    Fills pre (at? kind >>= fun b => if b then p else p') P := by
  intro c a c' hc hpre hrun
  rw [bind_ok (at?_peek kind c)] at hrun
  split at hrun
  · next hkind => exact h hc (beq_iff_eq.mp hkind) hrun
  · exact h' hc hpre hrun

/-- A token is taken, whatever it is. -/
theorem skip {k : Token → Parse α} (h : ∀ t, Fills anywhere (k t) P) :
    Fills pre (Parse.next >>= k) P := by
  intro c a c' hc _ hrun
  rw [bind_ok (next_run c)] at hrun
  have hmove := hc.precedes_advance
  obtain ⟨hmove', ha⟩ := h c.peek (hc.move hmove) trivial hrun
  exact ⟨hmove.trans hmove', ha⟩

/-- Indentation is taken. -/
theorem skipIndent {k : Token → Parse α} (h : ∀ t, Fills (fun t => t.kind.isProper) (k t) P) :
    Fills (fun t => t.kind = .indent) (Parse.next >>= k) P := by
  intro c a c' hc hkind hrun
  rw [bind_ok (next_run c)] at hrun
  have hmove := hc.precedes_advance
  obtain ⟨hmove', ha⟩ := h c.peek (hc.move hmove) (hc.isProper_peek_advance hkind) hrun
  exact ⟨hmove.trans hmove', ha⟩

/-- The choice between two readings by whether a token can be taken. -/
theorem ifAccept (kind : TokenKind) (h : Fills anywhere p P) (h' : Fills anywhere p' P) :
    Fills pre (Parse.accept kind >>= fun b => if b then p else p') P :=
  behind (fun _ => Builds.accept kind) fun _ => ite h h'

/-- A value that is read if a test holds. -/
theorem optionally {P : Position → Position → α → Prop} {b : Parse Bool} {k : Option α → Parse β}
    (hb : ∀ lo, Builds (fun _ => True) pre lo b whatever)
    (h : ∀ lo, Builds (fun _ => True) anywhere lo p (P lo)) (hk : ∀ o, Fills anywhere (k o) Q) :
    Fills pre (b >>= fun b => if b then some <$> p >>= k else Pure.pure none >>= k) Q :=
  behind hb fun _ => ite (behind (fun lo => (h lo).someOf) hk) (look (fun _ => ⟨_, rfl⟩) hk)

theorem stmtFrom {start : Position} {shape : Stmt.Shape} (hblock : shape.HasBlock)
    (hlinks : Link.AllBelow Node.IsFilled shape.links) :
    Fills pre (Parse.stmtFrom start shape) fun s => (Node.stmt s).IsFilled := by
  intro c s c' _ _ hrun
  cases hrun
  exact ⟨.refl c, .of_links hblock hlinks⟩

/-! ### Repeating -/

/-- All collected items are as each item is. -/
theorem collect {item : Parse (Option α)} (h : Fills anywhere item fun o => ∀ a ∈ o, P a) :
    Fills pre (Parse.collect item) fun as => ∀ a ∈ as, P a := by
  have hupto (limit : Nat) : Fills anywhere (collectUpTo item limit) fun as => ∀ a ∈ as, P a := by
    induction limit with
    | zero => exact of_fails (fails_failHere _)
    | succ limit ih =>
      refine h.bind fun o ho => ?_
      cases o with
      | none => exact pure (List.forall_mem_nil _)
      | some a => exact ih.bind fun as has => pure (List.forall_mem_cons.mpr ⟨ho a rfl, has⟩)
  exact fun c as c' hc _ hrun => hupto (c.rest.length + 1) hc trivial hrun

/-- A loop keeps what each step keeps. -/
theorem iterate {I : σ → Prop} {step : σ → Parse (ForInStep σ)} {s : σ} (hs : I s)
    (hstep : ∀ s, I s → Fills anywhere (step s) fun r => I r.value) :
    Fills pre (Parse.iterate step s) I := by
  have hupto (limit : Nat) (s : σ) (hs : I s) : Fills anywhere (iterateUpTo step limit s) I := by
    induction limit generalizing s with
    | zero => exact of_fails (fails_failHere _)
    | succ limit ih =>
      refine (hstep s hs).bind fun r hr => ?_
      cases r with
      | done s' => exact pure hr
      | yield s' => exact ih s' hr
  exact fun c a c' hc _ hrun => hupto (c.rest.length + 1) s hs hc trivial hrun

end Fills

/-! ## Simple statements -/

namespace Yields

variable {start : Position} {read : Reading}

/-- A statement without blocks. -/
theorem phrase {shape : Stmt.Shape} (hblock : shape.HasBlock)
    (hlinks : Link.AllBelow (fun n => n.isPhrase) shape.links) :
    Yields (fun s => (Node.stmt s).IsFilled) (Parse.stmtFrom start shape) :=
  .stmtFrom fun _ => .of_links hblock fun l hl => Node.isFilled_of_isPhrase (hlinks l hl)

theorem expressionStmt : Yields (fun s => (Node.stmt s).IsFilled) (Parse.expressionStmt read) := by
  refine .bind fun t => .bind fun first => .bind fun b => .ite ?_ (.bind fun kind => ?_)
  · refine .bind fun _ => .bind fun _ => .bind fun b => .ite ?_ ?_
    · exact .bind fun _ => phrase trivial (by simp)
    · exact .bind fun _ => phrase trivial (by simp)
  · split
    · exact .bind fun _ => .bind fun _ => .bind fun _ => .bind fun _ => phrase trivial (by simp)
    · refine .bind fun b => .ite ?_ (.bind fun _ => phrase trivial (by simp))
      exact .bind fun _ => .bind fun _ => .bind fun _ => phrase trivial (by simp)

/-- A simple statement has no block. -/
theorem simpleStmt : Yields (fun s => (Node.stmt s).IsFilled) (Parse.simpleStmt read) := by
  refine .bind fun kind => ?_
  split
  -- Statements of one word come first, a type alias and what begins with an expression last.
  · exact .bind fun _ => phrase trivial (by simp)
  · exact .bind fun _ => phrase trivial (by simp)
  · exact .bind fun _ => phrase trivial (by simp)
  · refine .bind fun _ => .bind fun b => .ite ?_ (phrase trivial (by simp))
    exact .bind fun _ => .bind fun _ => phrase trivial (by simp)
  · refine .bind fun _ => .bind fun b => .ite ?_ (phrase trivial (by simp))
    refine .bind fun _ => .bind fun b => .ite ?_ ?_
    · exact .bind fun _ => phrase trivial (by simp)
    · exact .bind fun _ => phrase trivial (by simp)
  · refine .bind fun _ => .bind fun b => .ite ?_ (.of_fails (fails_failHere _))
    exact .bind fun _ => .bind fun _ => phrase trivial (by simp)
  · refine .bind fun _ => .bind fun _ => .bind fun b => .ite ?_ ?_
    · exact .bind fun _ => phrase trivial (by simp)
    · exact .bind fun _ => phrase trivial (by simp)
  · exact .bind fun _ => .bind fun _ => phrase trivial (by simp)
  · exact .bind fun _ => .bind fun _ => phrase trivial (by simp)
  · exact .bind fun _ => .bind fun _ => phrase trivial (by simp)
  · refine .bind fun _ => .bind fun _ => .bind fun b => .ite ?_ ?_
    · exact .bind fun _ => .bind fun _ => .bind fun _ => phrase trivial (by simp)
    · exact .bind fun _ => .bind fun _ => .bind fun _ => phrase trivial (by simp)
  · refine .bind fun b => .ite ?_ expressionStmt
    refine .bind fun _ => .bind fun _ => .bind fun _ => ?_
    exact .bind fun _ => .bind fun _ => .bind fun _ => phrase trivial (by simp)

end Yields

/-! ## Branches -/

namespace Branch

variable {orelse : List Stmt}

theorem isFilled_build (c : Cursor) {b : Branch} (hbody : Stmt.AreFilled b.body)
    (horelse : ∀ s ∈ orelse, (Node.stmt s).IsFilled) : (Node.stmt (b.build c orelse)).IsFilled := by
  refine .of_links hbody.ne_nil ?_
  simpa [build, or_imp, forall_and] using ⟨hbody.isFilled, horelse⟩

/-- Each further branch is the only statement in the alternative of the one before. -/
theorem isFilled_chain (c : Cursor) {bs : List Branch} (h : ∀ b ∈ bs, Stmt.AreFilled b.body)
    (horelse : ∀ s ∈ orelse, (Node.stmt s).IsFilled) :
    ∀ s ∈ chain c bs orelse, (Node.stmt s).IsFilled := by
  induction bs with
  | nil => exact horelse
  | cons b bs ih =>
    obtain ⟨hb, hbs⟩ := List.forall_mem_cons.mp h
    exact List.forall_mem_singleton.mpr (isFilled_build c hb (ih hbs))

end Branch

/-! ## Blocks -/

namespace Fills

variable {α : Type} {pre : Token → Prop} {read : Reading} {inner : Parse (List Stmt)}

theorem line (h : ReadingBuilds read) : Fills pre (Parse.line read) Stmt.AreFilled := by
  have hstmt {pre : Token → Prop} : Fills pre (Parse.simpleStmt read)
      fun s => (Node.stmt s).IsFilled :=
    (of_builds fun _ => Builds.simpleStmt h _ _ _).yields .simpleStmt
  have hfurther : Fills anywhere (furtherStmt (Parse.simpleStmt read)) fun o =>
      ∀ s ∈ o, (Node.stmt s).IsFilled :=
    ifAccept .semicolon (look Looks.endsLine fun _ => ite notFound hstmt.found) notFound
  rw [line_eq_lineOf]
  refine hstmt.bind fun first hfirst => (collect hfurther).bind fun rest hrest => ?_
  have hline {pre : Token → Prop} : Fills pre (Pure.pure (first :: rest)) Stmt.AreFilled :=
    pure ⟨List.cons_ne_nil first rest, List.forall_mem_cons.mpr ⟨hfirst, hrest⟩⟩
  exact ifAccept .newline hline (ifAt .endOfInput hline (of_fails (fails_failHere _)))

/-- What is read up to some end is as all that is read at once. -/
theorem untilEnd {ends : Parse Bool} {item : Parse (List α)} {P : α → Prop} (hends : Looks ends)
    (h : Fills anywhere item fun as => ∀ a ∈ as, P a) :
    Fills pre (Parse.untilEnd ends item) fun as => ∀ a ∈ as, P a := by
  have hitem : Fills anywhere (ends >>= fun b => if b then Pure.pure none else
      Parse.accept .newline >>= fun b => if b then Pure.pure (some []) else
        item >>= fun as => Pure.pure (some as)) fun o => ∀ as ∈ o, ∀ a ∈ as, P a :=
    look hends fun _ => ite notFound <|
      ifAccept .newline (found (pure (List.forall_mem_nil _))) h.found
  refine (collect hitem).bind fun items hitems => pure fun a ha => ?_
  obtain ⟨as, hmem, ha⟩ := List.mem_flatten.mp ha
  exact hitems as hmem a ha

section Statements

variable (h : ReadingBuilds read) (hinner : Fills anywhere inner Stmt.AreFilled)

/-- A block that begins at a token of the source has a statement. -/
theorem untilEndsBlock (hinner : Fills anywhere inner Stmt.AreFilled) :
    Fills (fun t => t.kind.isProper) (Parse.untilEnd endsBlock inner) Stmt.AreFilled := by
  intro c body c' hc hproper hrun
  have hall : Fills (fun t => t.kind.isProper) (Parse.untilEnd endsBlock inner) fun body =>
      ∀ s ∈ body, (Node.stmt s).IsFilled :=
    untilEnd Looks.endsBlock (hinner.imp fun _ => Stmt.AreFilled.isFilled)
  obtain ⟨hmove, hfilled⟩ := hall hc hproper hrun
  have hne : body ≠ [] :=
    untilEnd_ne_nil hproper (fun _ _ hfirst => (hinner hc trivial hfirst).2.ne_nil) hrun
  exact ⟨hmove, hne, hfilled⟩

include h hinner

theorem block : Fills pre (Parse.block read inner) Stmt.AreFilled := by
  refine ifAccept .newline (ifAt .indent ?_ (of_fails (fails_failHere _))) (line h)
  refine skipIndent fun _ => (untilEndsBlock hinner).bind fun body hbody => ?_
  exact behind (fun _ => Builds.accept .dedent) fun _ => pure hbody

theorem blockAfter (header : Header) :
    Fills pre (Parse.blockAfter header read inner) Stmt.AreFilled :=
  behind (fun _ => Builds.expectAny (.colon header)) fun _ => block h hinner

theorem elseBlock :
    Fills pre (Parse.elseBlock read inner) fun orelse => ∀ s ∈ orelse, (Node.stmt s).IsFilled :=
  ifAccept .kwElse ((blockAfter h hinner _).imp fun _ => Stmt.AreFilled.isFilled)
    (pure (List.forall_mem_nil _))

/-! ## Compound statements -/

/-- The block of a branch has a statement. -/
theorem branch (header : Header) :
    Fills pre (Parse.branch header read inner) fun b => Stmt.AreFilled b.body :=
  skip fun _ => behind (fun _ => Builds.namedExpression h _ _ _) fun _ =>
    (blockAfter h hinner header).bind fun _ hbody => pure hbody

theorem ifStmt : Fills pre (Parse.ifStmt read inner) fun s => (Node.stmt s).IsFilled := by
  have hfurther : Fills anywhere (at? .kwElif >>= fun b => if b then
      Parse.branch .elifCondition read inner >>= fun b => Pure.pure (some b)
      else Pure.pure none) fun o => ∀ b ∈ o, Stmt.AreFilled b.body :=
    ifAt .kwElif (branch h hinner _).found notFound
  refine (branch h hinner _).bind fun first hfirst => (collect hfurther).bind fun rest hrest => ?_
  refine (elseBlock h hinner).bind fun orelse horelse => ?_
  refine look (fun c => ⟨c, rfl⟩) fun c => pure ?_
  exact Branch.isFilled_build c hfirst (Branch.isFilled_chain c hrest horelse)

theorem whileStmt : Fills pre (Parse.whileStmt read inner) fun s => (Node.stmt s).IsFilled := by
  refine (branch h hinner _).bind fun b hbody => (elseBlock h hinner).bind fun orelse horelse => ?_
  exact stmtFrom hbody.ne_nil (by simpa [or_imp, forall_and] using ⟨hbody.isFilled, horelse⟩)

theorem forStmt (start : Position) (isAsync : Bool) :
    Fills pre (Parse.forStmt read inner start isAsync) fun s => (Node.stmt s).IsFilled := by
  refine behind (fun _ => Builds.starTargets h) fun target => ?_
  refine behind (fun _ => Builds.expectAny _) fun _ => ?_
  refine behind (fun _ => Builds.starExpressions h _ _ _) fun iterable => ?_
  refine (blockAfter h hinner _).bind fun body hbody => ?_
  refine (elseBlock h hinner).bind fun orelse horelse => ?_
  exact stmtFrom hbody.ne_nil (by simpa [or_imp, forall_and] using ⟨hbody.isFilled, horelse⟩)

theorem withStmt (start : Position) (isAsync : Bool) :
    Fills pre (Parse.withStmt read inner start isAsync) fun s => (Node.stmt s).IsFilled := by
  refine behind (fun _ => Builds.withItems h) fun items => ?_
  refine (blockAfter h hinner _).bind fun body hbody => ?_
  exact stmtFrom hbody.ne_nil (by simpa using hbody.isFilled)

/-! ## Handlers -/

theorem addHandler (draft : HandlerDraft)
    (hdraft : ∀ handler ∈ draft.handlers, (Node.exceptHandler handler).IsFilled) :
    Fills pre (Parse.addHandler read inner draft) fun draft =>
      ∀ handler ∈ draft.handlers, (Node.exceptHandler handler).IsFilled := by
  refine skip fun start => behind (fun _ => Builds.accept .star) fun isStar => ?_
  refine ite (of_fails (fails_failAtToken _ _)) ?_
  refine behind (fun _ => Builds.handledType h isStar) fun handled => ?_
  obtain ⟨type, name⟩ := handled
  refine (blockAfter h hinner _).bind fun body hbody => look (fun _ => ⟨_, rfl⟩) fun span => pure ?_
  exact forall_mem_concat hdraft (.of_links hbody.ne_nil (by simpa using hbody.isFilled))

theorem handlers :
    Fills pre (Parse.handlers read inner) fun draft =>
      ∀ handler ∈ draft.handlers, (Node.exceptHandler handler).IsFilled :=
  iterate (List.forall_mem_nil _) fun draft hdraft => ifAt .kwExcept
    ((addHandler h hinner draft hdraft).bind fun _ hdraft => pure hdraft) (pure hdraft)

theorem tryBehind (start : Position) (isStar : Bool) {body orelse : List Stmt}
    {handlers : List ExceptHandler} (hbody : Stmt.AreFilled body)
    (hhandlers : ∀ handler ∈ handlers, (Node.exceptHandler handler).IsFilled)
    (horelse : ∀ s ∈ orelse, (Node.stmt s).IsFilled) :
    Fills pre (Parse.tryBehind read inner start isStar body handlers orelse) fun s =>
      (Node.stmt s).IsFilled := by
  have hstmt {pre : Token → Prop} {finalbody : List Stmt}
      (hfinal : ∀ s ∈ finalbody, (Node.stmt s).IsFilled) : Fills pre
      (if handlers.length = 0 ∧ finalbody.length = 0 then Parse.failHere .tryAlone
        else Parse.stmtFrom start (.tryBlock isStar body handlers orelse finalbody)) fun s =>
          (Node.stmt s).IsFilled := by
    refine ite (of_fails (fails_failHere _)) (stmtFrom hbody.ne_nil ?_)
    simpa [or_imp, forall_and] using ⟨hbody.isFilled, hhandlers, horelse, hfinal⟩
  exact ifAccept .kwFinally
    ((blockAfter h hinner _).bind fun finalbody hfinal => hstmt hfinal.isFilled)
    (hstmt (List.forall_mem_nil _))

theorem tryStmt : Fills pre (Parse.tryStmt read inner) fun s => (Node.stmt s).IsFilled := by
  refine skip fun start => (blockAfter h hinner _).bind fun body hbody => ?_
  refine (handlers h hinner).bind fun draft hdraft => look (Looks.at? _) fun b => ite ?_ ?_
  · exact of_fails (fails_failHere _).bind
  · exact (elseBlock h hinner).bind fun orelse => tryBehind h hinner _ _ hbody hdraft

/-! ## Definitions -/

theorem functionDef (decorators : List Expr) (start : Position) (isAsync : Bool) :
    Fills pre (Parse.functionDef read inner decorators start isAsync) fun s =>
      (Node.stmt s).IsFilled := by
  refine behind (fun _ => Builds.expectName _) fun name => ?_
  refine behind (fun _ => Builds.typeParams h) fun params => ?_
  refine behind (fun _ => Builds.expectAny _) fun _ => ?_
  refine behind (fun _ => Builds.parameters h _ _) fun parameters => ?_
  refine behind (fun _ => Builds.expectAny _) fun _ => ?_
  refine optionally (fun _ => Builds.accept _) (fun _ => (h .expression).builds) fun returns => ?_
  refine (blockAfter h hinner _).bind fun body hbody => ?_
  exact stmtFrom hbody.ne_nil (by simpa using hbody.isFilled)

theorem classDef (decorators : List Expr) (start : Position) :
    Fills pre (Parse.classDef read inner decorators start) fun s => (Node.stmt s).IsFilled := by
  refine behind (fun _ => Builds.expectName _) fun name => ?_
  refine behind (fun _ => Builds.typeParams h) fun params => ?_
  have hbody (draft : ArgumentDraft) : Fills anywhere
      (Parse.blockAfter .className read inner >>= fun body => Parse.stmtFrom start
        (.classDef name.text decorators params draft.positional draft.keywords body)) fun s =>
          (Node.stmt s).IsFilled := by
    refine (blockAfter h hinner _).bind fun body hbody => ?_
    exact stmtFrom hbody.ne_nil (by simpa using hbody.isFilled)
  exact ifAccept .openParen (behind (fun _ => Builds.arguments h) hbody) (hbody ⟨[], []⟩)

theorem decorated : Fills pre (Parse.decorated read inner) fun s => (Node.stmt s).IsFilled := by
  refine behind (fun _ => Builds.decorators h) fun decorators => ?_
  refine look (fun c => ⟨_, peek_run c⟩) fun start => ?_
  refine ifAccept .kwDef (functionDef h hinner _ _ _) ?_
  refine look (Looks.at? _) fun _ => look (Looks.kindAt 1) fun _ => ite ?_ ?_
  · exact skip fun _ => skip fun _ => functionDef h hinner _ _ _
  · exact ifAccept .kwClass (classDef h hinner _ _) (of_fails (fails_failAtToken _ _))

theorem asyncStmt (start : Position) :
    Fills pre (Parse.asyncStmt read inner start) fun s => (Node.stmt s).IsFilled :=
  ifAccept .kwDef (functionDef h hinner _ _ _) <|
    ifAccept .kwFor (forStmt h hinner _ _) <|
      ifAccept .kwWith (withStmt h hinner _ _) (of_fails (fails_failHere _))

/-! ## Match statements -/

variable {field : FieldReading} (hfield : FieldBuilds field)

include hfield

theorem matchCase :
    Fills pre (Parse.matchCase read field inner) fun case => (Node.matchCase case).IsFilled := by
  refine skip fun start => behind (fun _ => Builds.casePattern hfield _ _ _) fun pattern => ?_
  refine optionally (fun _ => Builds.accept _) (fun _ => (Builds.namedExpression h).builds) ?_
  refine fun guard => (blockAfter h hinner _).bind fun body hbody => ?_
  refine look (fun _ => ⟨_, rfl⟩) fun span => pure ?_
  exact .of_links hbody.ne_nil (by simpa using hbody.isFilled)

theorem matchCases :
    Fills pre (Parse.matchCases read field inner) fun cases =>
      ∀ case ∈ cases, (Node.matchCase case).IsFilled := by
  refine untilEnd Looks.endsBlock (look (Looks.isWordAt 0 _) fun _ => ite ?_ ?_)
  · exact (matchCase h hinner hfield).bind fun case hcase =>
      pure (List.forall_mem_singleton.mpr hcase)
  · exact of_fails (fails_failHere _)

theorem matchStmt :
    Fills pre (Parse.matchStmt read field inner) fun o => ∀ s ∈ o, (Node.stmt s).IsFilled := by
  refine look (fun c => ⟨_, peek_run c⟩) fun start => ?_
  refine behind (fun _ => Builds.attempt (Builds.matchSubject h)) fun o => ?_
  cases o with
  | none => exact notFound
  | some subject =>
    refine skip fun _ => skip fun _ => skip fun _ => ?_
    refine (matchCases h hinner hfield).bind fun cases hcases => ?_
    refine behind (fun _ => Builds.accept .dedent) fun _ => found (stmtFrom trivial ?_)
    simpa using hcases

/-! ## All statements -/

omit h hinner hfield in
theorem single {p : Parse Stmt} (hp : Fills pre p fun s => (Node.stmt s).IsFilled) :
    Fills pre (Parse.statements.single p) Stmt.AreFilled :=
  hp.bind fun s hs => pure ⟨List.cons_ne_nil s [], List.forall_mem_singleton.mpr hs⟩

theorem statements : Fills pre (Parse.statements read field inner) Stmt.AreFilled := by
  refine look (fun c => ⟨_, peek_run c⟩) fun token => ?_
  split
  · exact of_fails (fails_failAtToken _ _)
  · exact single (ifStmt h hinner)
  · exact single (whileStmt h hinner)
  · exact single (tryStmt h hinner)
  · exact single (decorated h hinner)
  · exact single (skip fun _ => forStmt h hinner _ _)
  · exact single (skip fun _ => withStmt h hinner _ _)
  · exact single (skip fun _ => functionDef h hinner _ _ _)
  · exact single (skip fun _ => classDef h hinner _ _)
  · exact single (skip fun _ => asyncStmt h hinner _)
  · refine look (Looks.isWordAt 0 _) fun _ => ite ?_ (line h)
    refine (matchStmt h hinner hfield).bind fun o ho => ?_
    cases o with
    | none => exact line h
    | some s => exact pure ⟨List.cons_ne_nil s [], List.forall_mem_singleton.mpr (ho s rfl)⟩

omit hinner in
theorem statementsUpTo : ∀ limit : Nat,
    Fills anywhere (Parse.statementsUpTo read field limit) Stmt.AreFilled
  | 0 => of_fails (fails_failHere _)
  | limit + 1 => statements h (statementsUpTo limit) hfield

end Statements

end Fills

/-! ## Modules -/

namespace Fills

variable {pre : Token → Prop}

theorem execModule [names : Unicode.CharacterNames] :
    Fills pre Parse.execModule fun m => ∀ s ∈ m.body, (Node.stmt s).IsFilled := by
  have hbehind {field : FieldReading} {read : Reading} (hfield : FieldBuilds field)
      (h : ReadingBuilds read) (limit : Nat) : Fills pre
      (Parse.untilEnd (at? .endOfInput) (Parse.statementsUpTo read field limit) >>= fun body =>
        Pure.pure { Module.empty .exec with body := body }) fun m =>
          ∀ s ∈ m.body, (Node.stmt s).IsFilled := by
    have hstatements := (statementsUpTo h hfield limit).imp fun _ => Stmt.AreFilled.isFilled
    exact (untilEnd (Looks.at? _) hstatements).bind fun body hbody => pure hbody
  have hfield (depth : Nat) : FieldBuilds (fieldUpTo names depth) := fieldBuilds_fieldUpTo depth
  exact fun c m c' hc hpre hrun =>
    hbehind (hfield _) (readingBuilds_readUpTo (hfield _) _) _ hc hpre hrun

/-- In every mode no block is empty that is read. -/
theorem moduleIn [Unicode.CharacterNames] :
    ∀ mode : Mode, Fills pre (Parse.moduleIn mode) fun m => ∀ s ∈ m.body, (Node.stmt s).IsFilled
  | .exec => execModule
  | .interactive => execModule.bind fun _ hm => pure hm
  | .eval => behind (fun _ => Builds.onlyExpression _ _ _) fun _ => pure (List.forall_mem_nil _)
  | .functionType => by
    refine (of_builds fun _ => Builds.functionTypeModule).yields ?_
    refine .bind fun _ => .bind fun _ => .bind fun _ => .bind fun _ => .bind fun _ => ?_
    refine .bind fun _ => .bind fun _ => .bind fun _ => .bind fun _ => ?_
    refine .ite (.pure (List.forall_mem_nil _)) ?_
    exact .of_fails (fails_failHere _)

end Fills

end Parse

/-! ## Sources -/

/-- The cursor in front of the tokens of a source stands over firm ones. -/
theorem Cursor.isFirm_ofTokens {source : Bytes} {tokens : List Token} (lines : List Bytes)
    (h : tokenize false source = .ok tokens) (hfirm : AreFirm tokens) :
    (ofTokens lines tokens).IsFirm := by
  obtain ⟨hsound, ts, final, rfl, hfinal⟩ := areSound_of_tokenize h
  refine ⟨(isAt_ofTokens lines hsound hfinal (by decide)).1.isSound, ?_⟩
  have hwithout : withoutComments (ts ++ [final]) = ts ++ [final] := by
    obtain ⟨all, -, hall⟩ := exists_of_map_eq_ok ((tokenize_withoutComments source).trans h)
    rw [← hall, withoutComments_withoutComments]
  rcases tokens_ofTokens lines (ts ++ [final]) with htokens | ⟨stop, htokens⟩
  · rw [htokens, hwithout]
    exact hfirm
  · rw [htokens, hwithout]
    exact hfirm.append (.singleton _) (by simp [hfinal])

/-- Where tokens of the source stand behind the indentation of blocks, every block of the tree has a
statement. -/
theorem Module.hasBlock_of_reaches [Unicode.CharacterNames] {mode : Mode} {source : Bytes}
    {tokens : List Token} {m : Module} (htokens : tokenize false source = .ok tokens)
    (hfirm : AreFirm tokens) (h : Module.ofSource mode source = .ok m) {path : List Link} {n : Node}
    (hn : (Node.module m).Reaches path n) : n.HasBlock := by
  rw [Module.ofSource, Parse.ofSource, htokens] at h
  obtain ⟨c, hrun⟩ := Parse.ofTokens_eq_ok.mp h
  have hcursor := Cursor.isFirm_ofTokens (Bytes.lines source) htokens hfirm
  have hmodule : Parse.Fills Parse.anywhere (Parse.moduleIn mode) _ := Parse.Fills.moduleIn mode
  have hfilled : (Node.module m).IsFilled :=
    .of_links trivial (by simpa using (hmodule hcursor trivial hrun).2)
  exact hfilled hn

/-- Where every join continues a line that has a token, every block of the tree has a statement. -/
theorem Module.hasBlock_of_joinsContinue [Unicode.CharacterNames] {mode : Mode} {source : Bytes}
    {m : Module} (hjoins : Lexeme.joinsContinue false (Division.ofBytes (dropMark source)).lexemes)
    (h : Module.ofSource mode source = .ok m) {path : List Link} {n : Node}
    (hn : (Node.module m).Reaches path n) : n.HasBlock := by
  cases htokens : tokenize false source with
  | error e =>
    rw [Module.ofSource, Parse.ofSource, htokens] at h
    cases h
  | ok tokens =>
    exact Module.hasBlock_of_reaches htokens (areFirm_of_tokenize htokens hjoins) h hn

open scoped Unicode.NameTable in
/-- A join takes the place of the first token of a block, and nothing but its test hangs below the
if statement. -/
example : (Module.ofSource .exec (text "if x:\n    \\\n\ny\n")).map
    (fun m => m.body.map fun s => (Node.stmt s).links.length) = .ok [1, 1] := by
  decide +kernel

end SyntaxTree
