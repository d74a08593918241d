import SyntaxTree.Proofs.Build.Pattern
import SyntaxTree.Proofs.Rename.Line

/-
# What simple statements build

Statements of one word, imports, assignments and the like build well-formed nodes.  What must not be
empty is not: a list has a first item, and an assignment is read where an equals sign stands.
-/

namespace SyntaxTree.Parse

variable {α : Type}

/-- A reading that gives statements, wherever it begins. -/
def BuildsStmt (p : Parse Stmt) : Prop :=
  ∀ (known : Position → Prop) (pre : Token → Prop) (lo : Position),
    Builds known pre lo p (Stmt.Stands lo)

theorem Looks.endsLine : Looks endsLine := endsLine_run

namespace Builds

variable {known : Position → Prop} {pre : Token → Prop} {lo start : Position}
  {P : Position → α → Prop} {item : Parse α}

/-! ## Names -/

theorem oneOrMore (h : Builds known anywhere lo item P) :
    Builds known pre lo (Parse.oneOrMore item) fun hi as => as ≠ [] ∧ ∀ a ∈ as, P hi a := by
  refine h.at_any.bind fun first => ?_
  refine ((collect (behind .comma h)).knowing fun _ => And.left).bind fun rest => pure ?_
  exact fun hi hknown =>
    ⟨List.cons_ne_nil first rest, List.forall_mem_cons.mpr ⟨hknown.1.2, hknown.2⟩⟩

theorem names (role : NameRole) :
    Builds known pre lo (Parse.names role) fun _ names => names ≠ [] :=
  (oneOrMore (P := whatever) ((expectName role).andThen fun _ => pure fun _ _ => trivial)).imp
    fun _ _ => And.left

theorem renamed (role : NameRole) : Builds known pre lo (Parse.renamed role) whatever :=
  ifAccept .kwAs ((expectName role).andThen fun _ => pure fun _ _ => trivial)
    (pure fun _ _ => trivial)

theorem dottedName : Builds known pre lo Parse.dottedName fun hi _ => lo ≤ hi := by
  refine (expectName .moduleName).bind fun first => ?_
  refine (collect (P := whatever) (ifAccept .dot ((expectName .submoduleName).andThen fun _ =>
    pure fun _ _ _ _ => trivial) notFound)).andThen fun rest => pure ?_
  exact fun hi ⟨_, hlo, hhi⟩ => Position.le_trans hlo hhi

/-! ## Statements of one line -/

theorem wordStmt {kind : TokenKind} (hproper : kind.isProper) {shape : Stmt.Shape}
    (hfits : ∀ start hi, (Node.stmt (.node ⟨start, some hi⟩ shape)).Fits .load (some ⟨start, hi⟩)) :
    Builds known (fun t => t.kind = kind) lo (Parse.wordStmt shape) (Stmt.Stands lo) :=
  next (proper hproper) fun _ _ hlo => stmtFrom hlo fun hi hstart => ⟨hstart, hfits _ hi⟩

theorem globalStmt :
    Builds known (fun t => t.kind = .kwGlobal) lo Parse.globalStmt (Stmt.Stands lo) := by
  refine next (proper rfl) fun t _ hlo => (names .globalName).bind fun names => ?_
  exact stmtFrom hlo fun hi ⟨hstart, hnames⟩ => ⟨hstart, by simpa using hnames⟩

theorem nonlocalStmt :
    Builds known (fun t => t.kind = .kwNonlocal) lo Parse.nonlocalStmt (Stmt.Stands lo) := by
  refine next (proper rfl) fun t _ hlo => (names .nonlocalName).bind fun names => ?_
  exact stmtFrom hlo fun hi ⟨hstart, hnames⟩ => ⟨hstart, by simpa using hnames⟩

/-! ## Imports -/

/-- The end of an alias that begins at a place. -/
theorem aliasFrom {name : Bytes} {renamed : Option Bytes} (hlo : lo ≤ start)
    (h : ∀ hi, known hi → start ≤ hi) :
    Builds known pre start
      (Parse.spanFrom start >>= fun span => Pure.pure (Alias.mk span name renamed)) fun hi a =>
      (Node.importAlias a).Within .load lo hi :=
  (nodeFrom (fun span => Alias.mk span name renamed) .importAlias (fun _ => rfl) hlo
    fun hi hknown => ⟨h hi hknown, by simp⟩).imp fun _ _ ha => ha.within

theorem moduleAlias :
    Builds known pre lo Parse.moduleAlias fun hi a => (Node.importAlias a).Within .load lo hi :=
  peek fun _ _ hlo => dottedName.bind fun _ => (renamed .aliasName).andThen fun _ =>
    aliasFrom hlo fun _ => And.right

theorem importStmt :
    Builds known (fun t => t.kind = .kwImport) lo Parse.importStmt (Stmt.Stands lo) := by
  refine next (proper rfl) fun t _ hlo => (oneOrMore moduleAlias).bind fun names => ?_
  exact stmtFrom hlo fun hi ⟨hstart, hne, hnames⟩ => ⟨hstart, by simpa using ⟨hne, hnames⟩⟩

theorem memberAlias :
    Builds known pre lo Parse.memberAlias fun hi a => (Node.importAlias a).Within .load lo hi :=
  nameFirst fun _ hlo => (renamed .aliasName).andThen fun _ => aliasFrom hlo fun _ => id

theorem importLevel : Builds known pre lo Parse.importLevel whatever :=
  (collect (P := whatever) (ifAccept .dot (pure fun _ _ _ _ => trivial)
    (ifAccept .ellipsis (pure fun _ _ _ _ => trivial) notFound))).andThen
      fun _ => pure fun _ _ => trivial

theorem importedNames :
    Builds known pre lo Parse.importedNames fun hi names =>
      names ≠ [] ∧ ∀ a ∈ names, (Node.importAlias a).Within .load lo hi := by
  refine ifAt .star (next (proper rfl) fun t _ hlo => ?_) (ifAccept .openParen ?_ ?_)
  · refine (spanFrom .load (fun span => .importAlias ⟨span, text "*", none⟩) (fun _ => rfl) hlo
      fun hi hstart => ⟨hstart, by simp⟩).bind fun span => pure fun hi hknown => ?_
    exact ⟨List.cons_ne_nil _ _, List.forall_mem_singleton.mpr hknown.2.within⟩
  · refine (itemsUntil .closeParen memberAlias).bind fun names => (expect _ rfl).andThen fun _ => ?_
    refine ite (fun _ => failHere _) fun hlength => pure fun hi hknown => ⟨?_, hknown.2⟩
    exact fun hnil => hlength (by rw [hnil]; rfl)
  · refine memberAlias.bind fun first => ?_
    have hfurther : Builds known anywhere lo
        (Parse.accept .comma >>= fun b => if b then
          at? .identifier >>= fun b => if b then
            Parse.memberAlias >>= fun a => Pure.pure (some a)
          else Parse.failHere .trailingImportComma
        else Pure.pure none) fun hi o => ∀ a ∈ o, (Node.importAlias a).Within .load lo hi :=
      ifAccept .comma (ifAt .identifier memberAlias.found (failHere _)) notFound
    refine ((collect hfurther).knowing fun _ => And.left).bind fun rest => pure ?_
    exact fun hi hknown =>
      ⟨List.cons_ne_nil first rest, List.forall_mem_cons.mpr ⟨hknown.1.2, hknown.2⟩⟩

theorem importFromStmt :
    Builds known (fun t => t.kind = .kwFrom) lo Parse.importFromStmt (Stmt.Stands lo) := by
  refine next (proper rfl) fun t _ hlo => importLevel.andThen fun level => ?_
  have hnames (source : Option Bytes) (hsource : source = none → 1 ≤ level) :
      Builds (t.start ≤ ·) anywhere t.start
        (Parse.expect .importWord >>= fun _ => Parse.importedNames >>= fun names =>
          Parse.stmtFrom t.start (.importFrom level source names)) (Stmt.Stands lo) := by
    refine (expect _ rfl).andThen fun _ => importedNames.bind fun names => stmtFrom hlo ?_
    exact fun hi ⟨hstart, hne, hnames⟩ => ⟨hstart, by simpa using ⟨⟨hne, hsource⟩, hnames⟩⟩
  refine look (Looks.at? _) fun _ => ite (fun _ => ?_) fun hlevel => ?_
  · refine (map (f := some) (Q := fun _ o => o ≠ none) (dottedName.imp fun _ _ _ => nofun)).bind
      fun source => ?_
    exact given (fun _ => And.right) fun hsource =>
      (hnames source fun hnone => absurd hnone hsource).knowing fun _ => And.left
  · exact hnames none fun _ => by grind

/-! ## Type aliases -/

section Statements

variable {read : Reading} (h : ReadingBuilds read)

include h

omit h in
theorem typeParamDefault {value : Parse Expr} (hvalue : BuildsExpr value) :
    Builds known pre lo (Parse.typeParamDefault value) fun hi o =>
      ∀ e ∈ o, (Node.expr e).Within .load lo hi :=
  ifAccept .equal hvalue.within.someOf notFound

omit h in
/-- The end of a type parameter that begins at a place. -/
theorem typeParamFrom {kind : TypeParamKind} {name : Bytes} {bound default : Option Expr}
    (hlo : lo ≤ start)
    (h : ∀ hi, known hi → start ≤ hi ∧ (∀ e ∈ bound, (Node.expr e).Within .load start hi) ∧
      ∀ e ∈ default, (Node.expr e).Within .load start hi) :
    Builds known pre start (Parse.spanFrom start >>= fun span =>
      Pure.pure (TypeParam.mk span kind name bound default)) fun hi p =>
      (Node.typeParam p).Within .load lo hi := by
  refine (nodeFrom (fun span => TypeParam.mk span kind name bound default) .typeParam
    (fun _ => rfl) hlo fun hi hknown => ?_).imp fun _ _ hp => hp.within
  obtain ⟨hstart, hbound, hdefault⟩ := h hi hknown
  suffices hparts :
      ∀ e, bound = some e ∨ default = some e → (Node.expr e).Within .load start hi from
    ⟨hstart, by simpa using hparts⟩
  rintro e (he | he)
  · exact hbound e he
  · exact hdefault e he

theorem typeParam :
    Builds known pre lo (Parse.typeParam read) fun hi p =>
      (Node.typeParam p).Within .load lo hi := by
  refine peek fun start _ hlo => ifAccept .star ?_ (ifAccept .doubleStar ?_ ?_)
  · refine (expectName _).bind fun name => (typeParamDefault (starExpression h)).bind fun default =>
      typeParamFrom hlo fun hi hknown => ?_
    obtain ⟨⟨-, hname, hstop⟩, hdefault⟩ := hknown
    exact ⟨Position.le_trans hname hstop, nofun, hdefault⟩
  · refine (expectName _).bind fun name => (typeParamDefault (h .expression)).bind fun default =>
      typeParamFrom hlo fun hi hknown => ?_
    obtain ⟨⟨-, hname, hstop⟩, hdefault⟩ := hknown
    exact ⟨Position.le_trans hname hstop, nofun, hdefault⟩
  · refine (expectName _).bind fun name => optionally (accept .colon) (h .expression).within
      fun bound => (typeParamDefault (h .expression)).bind fun default =>
        typeParamFrom hlo fun hi hknown => ?_
    obtain ⟨⟨⟨-, hname, hstop⟩, hbound⟩, hdefault⟩ := hknown
    exact ⟨Position.le_trans hname hstop, hbound, hdefault⟩

theorem typeParams :
    Builds known pre lo (Parse.typeParams read) fun hi params =>
      ∀ p ∈ params, (Node.typeParam p).Within .load lo hi := by
  refine ifAt .openBracket (skip fun _ _ => ifAt .closeBracket (failHere _) ?_)
    (pure fun _ _ => List.forall_mem_nil _)
  exact (itemsUntil .closeBracket (typeParam h)).bind fun params =>
    (expect _ rfl).andThen fun _ => pure fun _ => And.right

/-- What follows the word of a type alias begins with a name. -/
theorem aliasBehind (hlo : lo ≤ start) :
    Builds (start ≤ ·) (fun t => t.kind = .identifier) start
      (Parse.next >>= fun t => Parse.nameOf t .store >>= fun name => Parse.typeParams read >>=
        fun params => Parse.expect .aliasEqual >>= fun _ => read .expression >>= fun value =>
          Parse.stmtFrom start (.typeAlias name params value)) (Stmt.Stands lo) := by
  refine (nextToken (proper rfl)).bind fun t => ?_
  have hname : Builds (fun hi => start ≤ hi ∧ t.kind = .identifier ∧ start ≤ t.start ∧ t.start ≤ hi)
      anywhere start (Parse.nameOf t .store) fun hi e => e.Stands .store start hi ∧ e.isPlace :=
    raise (fun _ hknown => hknown.2.2) fun ht => nameOf .store ht fun _ hknown => hknown.2.2.2
  refine hname.bind fun name => (typeParams h).bind fun params => (expect _ rfl).andThen fun _ => ?_
  refine (h .expression).bind fun value => stmtFrom hlo fun hi hknown => ?_
  obtain ⟨⟨⟨⟨hstart, -⟩, hname, hplace⟩, hparams⟩, hvalue⟩ := hknown
  exact ⟨hstart, by simpa using ⟨⟨hplace, hname.within⟩, hparams, hvalue.within⟩⟩

/-- A type alias is read where its word and a name stand. -/
theorem ifTypeAlias {p : Parse Stmt} (hp : Builds known pre lo p (Stmt.Stands lo)) :
    Builds known pre lo
      (Parse.startsTypeAlias >>= fun b => if b then Parse.typeAliasStmt read else p)
      (Stmt.Stands lo) := by
  intro c s c' hc hpre hrun
  obtain ⟨b, hstarts, hkinds⟩ := startsTypeAlias_run c
  rw [bind_ok hstarts] at hrun
  cases b with
  | false => exact hp hc hpre hrun
  | true =>
    obtain ⟨hfirst, -, hsecond⟩ := hkinds rfl
    rw [if_pos rfl, Parse.typeAliasStmt, bind_ok (next_run c)] at hrun
    obtain ⟨hmove, hs⟩ := aliasBehind h hc.le_peek (hc.taken (hfirst ▸ rfl))
      (c.peek_advance ▸ hsecond) hrun
    exact ⟨hc.isSound.precedes_advance.trans hmove, hs⟩

/-! ## Statements with expressions -/

omit h in
theorem plainValue {e : Expr} {P : Position → Expr → Prop} (h : ∀ hi, known hi → P hi e) :
    Builds known pre lo (Parse.plainValue e) P :=
  ite (fun _ => failAtSpan ..) fun _ => pure h

/-- Expressions of which none is starred. -/
theorem plainExpressions : BuildsExpr (Parse.yieldOrExpressions read >>= Parse.plainValue) :=
  fun _ _ _ => (yieldOrExpressions h).bind fun _ => plainValue fun _ => And.right

theorem returnStmt :
    Builds known (fun t => t.kind = .kwReturn) lo (Parse.returnStmt read) (Stmt.Stands lo) := by
  refine next (proper rfl) fun t _ hlo => test Looks.startsStarred ?_ ?_
  · refine (starExpressions h).bind fun value => (plainValue fun _ => And.right).bind fun value =>
      stmtFrom hlo fun hi ⟨⟨hstart, _⟩, hvalue⟩ => ?_
    exact ⟨hstart, by simpa using hvalue.within⟩
  · exact stmtFrom hlo fun hi hstart => ⟨hstart, by simp⟩

theorem raiseStmt :
    Builds known (fun t => t.kind = .kwRaise) lo (Parse.raiseStmt read) (Stmt.Stands lo) := by
  refine next (proper rfl) fun t _ hlo => test Looks.startsExpression ?_ ?_
  · refine (h .expression).bind fun exception => optionally (accept .kwFrom) (h .expression).within
      fun cause => stmtFrom hlo fun hi ⟨⟨hstart, hexception⟩, hcause⟩ => ?_
    exact ⟨hstart, by simpa using ⟨hexception.within, hcause⟩⟩
  · exact stmtFrom hlo fun hi hstart => ⟨hstart, by simp⟩

theorem deleteStmt :
    Builds known (fun t => t.kind = .kwDel) lo (Parse.deleteStmt read) (Stmt.Stands lo) := by
  have htarget {known : Position → Prop} {lo : Position} : Builds known anywhere lo
      (read .operand >>= Parse.deleteTarget) fun hi e =>
        (Node.expr e).Within .delete lo hi ∧ e.IsTarget true false :=
    (h .operand).bind fun e => (deleteTarget fun _ => And.right).imp fun _ _ he =>
      ⟨he.1.within, he.2⟩
  have hstops : Looks (Parse.startsExpression >>= fun b => Pure.pure !b) :=
    Looks.startsExpression.bind fun _ => Looks.pure _
  refine next (proper rfl) fun t _ hlo => test Looks.startsExpression ?_ (failHere _)
  refine htarget.bind fun first => (moreItems hstops htarget).bind fun rest => stmtFrom hlo ?_
  exact fun hi ⟨⟨hstart, hfirst⟩, hrest⟩ =>
    ⟨hstart, by simpa using ⟨hfirst.symm, fun e he => (hrest e he).symm⟩⟩

theorem assertStmt :
    Builds known (fun t => t.kind = .kwAssert) lo (Parse.assertStmt read) (Stmt.Stands lo) := by
  refine next (proper rfl) fun t _ hlo => (h .expression).bind fun test => ?_
  refine optionally (accept .comma) (h .expression).within fun message => stmtFrom hlo ?_
  exact fun hi ⟨⟨hstart, htest⟩, hmessage⟩ =>
    ⟨hstart, by simpa using ⟨htest.within, hmessage⟩⟩

/-! ## Assignments -/

theorem annotatedStmt {t : Token} {first : Expr} (hlo : lo ≤ t.start) :
    Builds (fun hi => first.Stands .load t.start hi) pre t.start
      (Parse.annotatedStmt read t first) (Stmt.Stands lo) := by
  refine (placeTarget fun _ => id).bind fun target => (h .expression).bind fun hint => ?_
  refine optionally (accept .equal) (plainExpressions h).within fun value => stmtFrom hlo ?_
  rintro hi ⟨⟨⟨hfirst, htarget, hplace⟩, hhint⟩, hvalue⟩
  exact ⟨hfirst.le, by simpa using ⟨⟨hplace, htarget.within⟩, hhint.within, hvalue⟩⟩

theorem augmentedAssign {op : BinaryOperator} {first : Expr} (hlo : lo ≤ start) :
    Builds (fun hi => first.Stands .load start hi) pre start
      (Parse.augmentedAssign read start op first) (Stmt.Stands lo) := by
  refine skip fun _ _ => (placeTarget fun _ => id).bind fun target => ?_
  refine (yieldOrExpressions h).bind fun value => (plainValue fun _ => And.right).bind fun value =>
    stmtFrom hlo ?_
  rintro hi ⟨⟨⟨hfirst, htarget, hplace⟩, -⟩, hvalue⟩
  exact ⟨hfirst.le, by simpa using ⟨⟨hplace, htarget.within⟩, hvalue.within⟩⟩

/-- There is a target in front of the equals sign, and all but the last expression are targets. -/
theorem assignment {first : Expr} (hlo : lo ≤ start) :
    Builds (fun hi => first.Stands .load start hi) (fun t => t.kind = .equal) start
      (Parse.assignment read start first) (Stmt.Stands lo) := by
  refine (collectBehind .equal (yieldOrExpressions h).builds).bind fun rest => ?_
  refine given (fun _ hknown => hknown.2.1) fun hrest => ?_
  have hall {hi : Position} (hknown : first.Stands .load start hi ∧ rest ≠ [] ∧
      ∀ e ∈ rest, e.Stands .load start hi) : ∀ e ∈ first :: rest, e.Stands .load start hi :=
    List.forall_mem_cons.mpr ⟨hknown.1, hknown.2.2⟩
  refine (plainValue fun hi hknown => hall hknown _ (List.getLast_mem _)).bind fun value => ?_
  refine (mapM fun e he => storeTarget fun hi hknown =>
    hall hknown.1 e (List.dropLast_subset _ he)).bind fun targets => stmtFrom hlo ?_
  rintro hi ⟨⟨⟨hfirst, -⟩, hvalue⟩, hlength, htargets⟩
  have hne : targets ≠ [] := by
    rw [← List.length_pos_iff, hlength, List.length_dropLast, List.length_cons, Nat.add_sub_cancel]
    exact List.length_pos_iff.mpr hrest
  refine ⟨hfirst.le, ?_⟩
  simpa using ⟨hne, fun e he => ⟨(htargets e he).2, (htargets e he).1.within⟩, hvalue.within⟩

theorem expressionStmt : BuildsStmt (Parse.expressionStmt read) := by
  intro known pre lo
  refine peek fun t _ hlo => (yieldOrExpressions h).bind fun first => ?_
  refine ifAccept .colon ((annotatedStmt h hlo).knowing fun _ => And.right) (kind fun u _ => ?_)
  split
  · exact ((augmentedAssign h hlo).knowing fun _ => And.right)
  · refine ifAt .equal ((assignment h hlo).knowing fun _ => And.right) ?_
    refine (plainValue fun _ => And.right).bind fun value => stmtFrom hlo fun hi hknown => ?_
    exact ⟨hknown.2.le, by simpa using hknown.2.within⟩

/-! ## Simple statements -/

theorem simpleStmt : BuildsStmt (Parse.simpleStmt read) := by
  intro known pre lo
  refine kind fun t _ => ?_
  split
  · exact (wordStmt rfl fun _ _ => by simp).at_token ‹_›
  · exact (wordStmt rfl fun _ _ => by simp).at_token ‹_›
  · exact (wordStmt rfl fun _ _ => by simp).at_token ‹_›
  · exact (returnStmt h).at_token ‹_›
  · exact (raiseStmt h).at_token ‹_›
  · exact (deleteStmt h).at_token ‹_›
  · exact (assertStmt h).at_token ‹_›
  · exact globalStmt.at_token ‹_›
  · exact nonlocalStmt.at_token ‹_›
  · exact importStmt.at_token ‹_›
  · exact importFromStmt.at_token ‹_›
  · exact ifTypeAlias h (expressionStmt h _ _ _)

theorem line : Builds known pre lo (Parse.line read) (Stmt.AllWithin lo) := by
  have hstmt {known : Position → Prop} {pre : Token → Prop} : Builds known pre lo
      (Parse.simpleStmt read) fun hi s => (Node.stmt s).Within .load lo hi :=
    (simpleStmt h _ _ _).imp fun _ _ hs => hs.within
  have hfurther : Builds known anywhere lo (furtherStmt (Parse.simpleStmt read)) fun hi o =>
      ∀ s ∈ o, (Node.stmt s).Within .load lo hi :=
    ifAccept .semicolon (test Looks.endsLine notFound hstmt.found) notFound
  rw [line_eq_lineOf]
  refine hstmt.bind fun first => ((collect hfurther).knowing fun _ => And.left).bind fun rest => ?_
  have hdone (hi : Position) (hknown : (known hi ∧ (Node.stmt first).Within .load lo hi) ∧
      Stmt.AllWithin lo hi rest) : Stmt.AllWithin lo hi (first :: rest) :=
    List.forall_mem_cons.mpr ⟨hknown.1.2, hknown.2⟩
  exact ifAccept .newline (pure hdone) (ifAt .endOfInput (pure hdone) (failHere _))

end Statements

end Builds

end SyntaxTree.Parse
