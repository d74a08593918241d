import SyntaxTree.Proofs.Build.Statement
import SyntaxTree.Proofs.Ending.Pattern
import SyntaxTree.Proofs.Ending.Simple

/-
# Statements are read to their end

Every compound statement takes a token before it reads the statements of a block, so the tokens
ahead bound how deep blocks are nested.
-/

namespace SyntaxTree.Parse

variable {α : Type} {depth limit : Nat} {pre : Token → Prop} {read : Reading}
  {inner : Parse (List Stmt)}

/-- A reading of statements that comes to an end and takes a token, wherever it begins. -/
def StmtsEnd (depth limit : Nat) (p : Parse (List Stmt)) : Prop :=
  ∀ {pre : Token → Prop}, Ends depth limit pre always p

namespace Ends

/-! ## Blocks -/

theorem untilEnd {ends : Parse Bool} {item : Parse (List α)} (hends : Looks ends)
    (h : Ends depth limit anywhere always item) :
    Ends depth limit pre never (Parse.untilEnd ends item) := by
  have hitem : Ends depth limit anywhere isThere (ends >>= fun b =>
      if b then Pure.pure none else Parse.accept .newline >>= fun b =>
        if b then Pure.pure (some []) else item >>= fun as => Pure.pure (some as)) := by
    refine test hends (pure Bool.noConfusion) (ifAccept (by decide) (result _) ?_)
    exact h.at_any.first fun as => result _
  exact (collect hitem).bind fun items => result _

section Blocks

variable (h : ReadingEnds depth limit read) (hinner : StmtsEnd depth limit inner)

include h hinner

theorem block : Ends depth limit pre never (Parse.block read inner) := by
  refine ifAccept (by decide) (ifAt .indent (skip.bind fun _ => ?_) (failHere rfl)) (line h).loosely
  exact (untilEnd Looks.endsBlock hinner).bind fun body => (accept _).bind fun _ => result body

theorem blockAfter (header : Header) :
    Ends depth limit pre always (Parse.blockAfter header read inner) :=
  (expect (.colon header)).first fun _ => block h hinner

theorem elseBlock : Ends depth limit pre never (Parse.elseBlock read inner) :=
  ifAccept (by decide) (blockAfter h hinner _).loosely (result [])

/-! ## Conditions and loops -/

/-- What stands in the block of a branch may be nested once less than the branch. -/
theorem branch (header : Header) {kind : TokenKind} (hkind : kind ≠ .endOfInput) :
    Ends depth (limit + 1) (fun t => t.kind = kind) always (Parse.branch header read inner) := by
  refine (nextOf hkind).deeper fun start => (namedExpression h).bind fun test => ?_
  exact (blockAfter h hinner header).bind fun body => result _

theorem ifStmt :
    Ends depth (limit + 1) (fun t => t.kind = .kwIf) always (Parse.ifStmt read inner) := by
  have hfurther : Ends depth (limit + 1) anywhere isThere (at? .kwElif >>= fun b => if b then
      Parse.branch .elifCondition read inner >>= fun b => Pure.pure (some b)
      else Pure.pure none) :=
    ifAt .kwElif ((branch h hinner _ (by decide)).first fun b => result _) (pure Bool.noConfusion)
  refine (branch h hinner _ (by decide)).deeper fun first => ?_
  refine (collect (hfurther.mono (Nat.le_succ limit))).bind fun rest => ?_
  exact (elseBlock h hinner).bind fun orelse => of_looks fun _ => ⟨_, rfl⟩

theorem whileStmt :
    Ends depth (limit + 1) (fun t => t.kind = .kwWhile) always (Parse.whileStmt read inner) := by
  refine (branch h hinner _ (by decide)).deeper fun b => ?_
  exact (elseBlock h hinner).bind fun orelse => stmtFrom _ _

theorem forStmt (start : Position) (isAsync : Bool) :
    Ends depth limit pre never (Parse.forStmt read inner start isAsync) := by
  refine (starTargets h).bind fun target => (expect _).bind fun _ => ?_
  refine (starExpressions h).bind fun iterable => (blockAfter h hinner _).bind fun body => ?_
  exact (elseBlock h hinner).bind fun orelse => stmtFrom _ _

/-! ## Context managers -/

omit hinner in
theorem withItem : Ends depth limit pre always (Parse.withItem read) := by
  have htarget : Ends depth limit anywhere always (Parse.starTarget read >>= Parse.storeTarget) :=
    (starTarget h).first storeTarget
  refine (h .expression).first fun context => optionally (accept .kwAs) htarget fun target => ?_
  exact (spanFrom _).bind fun span => result _

omit hinner in
/-- The list of context managers in parentheses is read to its end even where it is no such list. -/
theorem parenthesizedItems : Ends depth limit pre isThere (Parse.parenthesizedItems read) := by
  refine skip.bind fun _ => (itemsUntil .closeParen (withItem h).loosely).bind fun items => ?_
  refine ite (fun _ => pure Bool.noConfusion) fun _ => ?_
  -- A list that has been found has been closed.
  exact ifAccept (by decide) (ifAt .colon (result _) (result _)) (pure Bool.noConfusion)

omit hinner in
theorem withItems : Ends depth limit pre never (Parse.withItems read) := by
  refine ifAt .openParen ?_ (oneOrMore (withItem h)).loosely
  refine (attempt (parenthesizedItems h) fun _ => id).bind fun o => ?_
  cases o with
  | some items => exact result items
  | none => exact (oneOrMore (withItem h)).loosely

theorem withStmt (start : Position) (isAsync : Bool) :
    Ends depth limit pre never (Parse.withStmt read inner start isAsync) :=
  (withItems h).bind fun _ => (blockAfter h hinner _).bind fun _ => stmtFrom _ _

/-! ## Handlers -/

omit hinner in
theorem handledType (isStar : Bool) :
    Ends depth limit pre never (Parse.handledType read isStar) := by
  refine ifAt .colon (ite (fun _ => failHere rfl) fun _ => result _) ?_
  exact (h .expression).bind fun type => (renamed _).bind fun name => result _

theorem addHandler (draft : HandlerDraft) :
    Ends depth limit (fun t => t.kind = .kwExcept) always
      (Parse.addHandler read inner draft) := by
  refine (nextOf (by decide)).first fun start => (accept .star).bind fun isStar => ?_
  refine ite (fun _ => failAtToken _ rfl) fun _ => (handledType h isStar).bind fun handled => ?_
  exact (blockAfter h hinner _).bind fun body => (spanFrom _).bind fun span => result _

theorem handlers : Ends depth limit pre never (Parse.handlers read inner) :=
  iterate (fun draft => ifAt .kwExcept ((addHandler h hinner draft).first fun _ => result _)
    (pure id)) _

theorem tryBehind (start : Position) (isStar : Bool) (body : List Stmt)
    (handlers : List ExceptHandler) (orelse : List Stmt) :
    Ends depth limit pre never
      (Parse.tryBehind read inner start isStar body handlers orelse) := by
  have hstmt (finalbody : List Stmt) : Ends depth limit anywhere never
      (if handlers.length = 0 ∧ finalbody.length = 0 then Parse.failHere .tryAlone
        else Parse.stmtFrom start (.tryBlock isStar body handlers orelse finalbody)) :=
    ite (fun _ => failHere rfl) fun _ => stmtFrom _ _
  exact ifAccept (by decide) ((blockAfter h hinner _).bind hstmt) ((result []).bind hstmt)

theorem tryStmt :
    Ends depth (limit + 1) (fun t => t.kind = .kwTry) always (Parse.tryStmt read inner) := by
  refine (nextOf (by decide)).deeper fun start => (blockAfter h hinner _).bind fun body => ?_
  refine (handlers h hinner).bind fun draft => ?_
  obtain ⟨isStar, handlers⟩ := draft
  have hbehind (orelse : List Stmt) : Ends depth limit anywhere never
      (Parse.tryBehind read inner start.start isStar body handlers orelse) :=
    tryBehind h hinner _ _ _ _ _
  have halone : Ends depth limit anywhere never (Parse.failHere .tryAlone : Parse (List Stmt)) :=
    failHere rfl
  exact look (Looks.at? _) fun _ => ite (fun _ => halone.bind hbehind) fun _ =>
    (elseBlock h hinner).bind hbehind

/-! ## Definitions -/

theorem functionDef (decorators : List Expr) (start : Position) (isAsync : Bool) :
    Ends depth limit pre never (Parse.functionDef read inner decorators start isAsync) := by
  refine (expectName _).bind fun name => (typeParams h).bind fun params => ?_
  refine (expect _).bind fun _ => (parameters h _ _).bind fun parameters => ?_
  refine (expect _).bind fun _ => optionally (accept .arrow) (h .expression) fun returns => ?_
  exact (blockAfter h hinner _).bind fun body => stmtFrom _ _

theorem classDef (decorators : List Expr) (start : Position) :
    Ends depth limit pre never (Parse.classDef read inner decorators start) := by
  refine (expectName _).bind fun name => (typeParams h).bind fun params => ?_
  have hbody (draft : ArgumentDraft) {pre : Token → Prop} : Ends depth limit pre never
      (Parse.blockAfter .className read inner >>= fun body => Parse.stmtFrom start
        (.classDef name.text decorators params draft.positional draft.keywords body)) :=
    (blockAfter h hinner _).bind fun body => stmtFrom _ _
  exact ifAccept (by decide) ((arguments h).bind fun draft => hbody draft) (hbody ⟨[], []⟩)

omit hinner in
theorem decorators :
    Ends depth limit (fun t => t.kind = .atSign) always (Parse.decorators read) := by
  have hvalue : Ends depth limit anywhere never (Parse.namedExpression read >>= fun value =>
      Parse.expect .decoratorEnd >>= fun _ => Pure.pure (some value)) :=
    (namedExpression h).bind fun value => (expect _).bind fun _ => result _
  refine collectFirst (ifAccept (by decide) hvalue ?_)
    (ifAccept (by decide) hvalue (pure Bool.noConfusion))
  exact fun _ _ hat => absurd hat.1 hat.2

theorem asyncStmt (start : Position) :
    Ends depth limit pre never (Parse.asyncStmt read inner start) :=
  ifAccept (by decide) (functionDef h hinner _ _ _) <|
    ifAccept (by decide) (forStmt h hinner _ _) <|
      ifAccept (by decide) (withStmt h hinner _ _) (failHere rfl)

/-! ## Match statements -/

omit hinner in
/-- The head of a match statement is read to its end even where there is no such statement. -/
theorem matchSubject : Ends depth limit pre isThere (Parse.matchSubject read) := by
  refine skip.bind fun _ => test Looks.startsStarred ?_ (pure Bool.noConfusion)
  refine (tupleOf Looks.startsNoItem (starNamed h)).first fun subject => ?_
  refine look (Looks.at? _) fun _ => look (Looks.kindAt 1) fun _ => look (Looks.kindAt 2) fun _ =>
    look (Looks.isWordAt 3 _) fun _ => ?_
  exact ite (fun _ => result _) fun _ => result _

section Cases

variable {field : FieldReading} (hfield : FieldEnds depth field)

include hfield

theorem matchCase : Ends depth limit pre always (Parse.matchCase read field inner) := by
  refine skip.bind fun start => (casePattern hfield).first fun pattern => ?_
  refine optionally (accept .kwIf) (namedExpression h) fun guard => ?_
  exact (blockAfter h hinner _).bind fun body => (spanFrom _).bind fun span => result _

theorem matchCases : Ends depth limit pre never (Parse.matchCases read field inner) := by
  refine untilEnd Looks.endsBlock (test (Looks.isWordAt 0 _) ?_ (failHere rfl))
  exact (matchCase h hinner hfield).first fun case => result _

end Cases

end Blocks

/-! ## All statements -/

section Statements

variable {field : FieldReading} (h : ReadingEnds depth (limit + 1) read)
  (hinner : StmtsEnd depth limit inner)

include h hinner

theorem decorated :
    Ends depth (limit + 1) (fun t => t.kind = .atSign) always (Parse.decorated read inner) := by
  have hread := h.mono (Nat.le_succ limit)
  refine (decorators h).deeper fun decorators => peek fun start _ => ?_
  refine ifAccept (by decide) (functionDef hread hinner _ _ _) (ifFollowed ?_ ?_)
  · exact skip.bind fun _ => skip.bind fun _ => functionDef hread hinner _ _ _
  · exact ifAccept (by decide) (classDef hread hinner _ _) (failAtToken _ rfl)

theorem matchStmt (hfield : FieldEnds depth field) :
    Ends depth (limit + 1) pre isThere (Parse.matchStmt read field inner) := by
  have hread := h.mono (Nat.le_succ limit)
  refine peek fun start _ => ?_
  refine (attempt (matchSubject h) fun _ => id).found (fun subject => ?_) (pure Bool.noConfusion)
  refine skip.bind fun _ => skip.bind fun _ => skip.bind fun _ => ?_
  refine (matchCases hread hinner hfield).bind fun cases => (accept _).bind fun _ => ?_
  exact (stmtFrom _ _).bind fun s => result _

omit h hinner in
theorem single {p : Parse Stmt} (hp : Ends depth limit pre always p) :
    Ends depth limit pre always (Parse.statements.single p) :=
  hp.first fun _ => result _

theorem statements (hfield : FieldEnds depth field) :
    StmtsEnd depth (limit + 1) (Parse.statements read field inner) := by
  intro pre
  have hread := h.mono (Nat.le_succ limit)
  refine peek fun t _ => ?_
  have hbehind {p : Parse Stmt} {kind : TokenKind} (hkind : t.kind = kind)
      (hne : kind ≠ .endOfInput) (hp : Ends depth limit anywhere never p) :
      Ends depth (limit + 1) (· = t) always
        (Parse.statements.single (Parse.next >>= fun _ => p)) :=
    single ((nextPeeked (hkind ▸ hne)).deeper fun _ => hp)
  split
  · exact failAtToken _ rfl
  · exact single ((ifStmt hread hinner).at_token ‹_›)
  · exact single ((whileStmt hread hinner).at_token ‹_›)
  · exact single ((tryStmt hread hinner).at_token ‹_›)
  · exact single ((decorated h hinner).at_token ‹_›)
  · exact hbehind ‹_› (by decide) (forStmt hread hinner _ _)
  · exact hbehind ‹_› (by decide) (withStmt hread hinner _ _)
  · exact hbehind ‹_› (by decide) (functionDef hread hinner _ _ _)
  · exact hbehind ‹_› (by decide) (classDef hread hinner _ _)
  · exact hbehind ‹_› (by decide) (asyncStmt hread hinner _)
  · refine look (Looks.isWordAt 0 _) fun _ => ite (fun _ => ?_) fun _ => line h
    exact (matchStmt h hinner hfield).found (fun s => result [s]) (line h)

end Statements

end Ends

/-- Statements are read to their end if their blocks may be nested as deep as there are tokens. -/
theorem stmtsEnd_statementsUpTo {field : FieldReading} {n : Nat} (h : ReadingEnds depth n read)
    (hfield : FieldEnds depth field) :
    ∀ limit ≤ n, StmtsEnd depth limit (statementsUpTo read field limit)
  | 0, _ => fun _ hc => absurd hc.length_lt (Nat.not_lt_zero _)
  | limit + 1, hle =>
    Ends.statements (h.mono hle) (stmtsEnd_statementsUpTo h hfield limit (Nat.le_of_succ_le hle))
      hfield

end SyntaxTree.Parse
