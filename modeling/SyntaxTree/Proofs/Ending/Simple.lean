import SyntaxTree.Proofs.Build.Simple
import SyntaxTree.Proofs.Ending.Expression

/-
# Simple statements are read to their end

Every simple statement takes a token: its first word, or that of the expression it begins with.
-/

namespace SyntaxTree.Parse.Ends

variable {α : Type} {depth limit : Nat} {pre : Token → Prop} {read : Reading}

/-! ## Names -/

theorem oneOrMore {item : Parse α} (h : ∀ {pre : Token → Prop}, Ends depth limit pre always item) :
    Ends depth limit pre always (Parse.oneOrMore item) :=
  h.first fun _ => (collect (behind (by decide) h.loosely)).bind fun _ => result _

theorem names (role : NameRole) : Ends depth limit pre always (Parse.names role) :=
  oneOrMore ((expectName role).first fun _ => result _)

theorem dottedName : Ends depth limit pre always Parse.dottedName := by
  have hfurther : Ends depth limit anywhere isThere (Parse.accept .dot >>= fun b =>
      if b then Parse.expectName .submoduleName >>= fun name => Pure.pure (some name.text)
      else Pure.pure none) :=
    ifAccept (by decide) ((expectName _).bind fun _ => result _) (pure Bool.noConfusion)
  exact (expectName _).first fun _ => (collect hfurther).bind fun _ => result _

theorem renamed (role : NameRole) : Ends depth limit pre never (Parse.renamed role) :=
  ifAccept (by decide) ((expectName role).bind fun _ => result _) (result none)

/-! ## Statements of one line -/

theorem wordStmt {t : Token} (ht : t.kind ≠ .endOfInput) (shape : Stmt.Shape) :
    Ends depth limit (· = t) always (Parse.wordStmt shape) :=
  (nextPeeked ht).first fun _ => stmtFrom _ _

theorem globalStmt :
    Ends depth limit (fun t => t.kind = .kwGlobal) always Parse.globalStmt :=
  (nextOf (by decide)).first fun _ => (names _).bind fun _ => stmtFrom _ _

theorem nonlocalStmt :
    Ends depth limit (fun t => t.kind = .kwNonlocal) always Parse.nonlocalStmt :=
  (nextOf (by decide)).first fun _ => (names _).bind fun _ => stmtFrom _ _

/-! ## Imports -/

theorem moduleAlias : Ends depth limit pre always Parse.moduleAlias :=
  peek fun _ _ => dottedName.first fun _ => (renamed _).bind fun _ => (spanFrom _).bind fun _ =>
    result _

theorem importStmt :
    Ends depth limit (fun t => t.kind = .kwImport) always Parse.importStmt :=
  (nextOf (by decide)).first fun _ => (oneOrMore moduleAlias).bind fun _ => stmtFrom _ _

theorem memberAlias : Ends depth limit pre always Parse.memberAlias :=
  (expectName _).first fun _ => (renamed _).bind fun _ => (spanFrom _).bind fun _ => result _

theorem importLevel : Ends depth limit pre never Parse.importLevel := by
  have hdots : Ends depth limit anywhere isThere (Parse.accept .dot >>= fun b =>
      if b then Pure.pure (some 1) else Parse.accept .ellipsis >>= fun b =>
        if b then Pure.pure (some 3) else Pure.pure none) :=
    ifAccept (by decide) (result _) (ifAccept (by decide) (result _) (pure Bool.noConfusion))
  exact (collect hdots).bind fun _ => result _

theorem importedNames : Ends depth limit pre never Parse.importedNames := by
  refine ifAt .star (skip.bind fun _ => (spanFrom _).bind fun _ => result _) ?_
  refine ifAccept (by decide) ?_ (memberAlias.bind fun first => ?_)
  · refine (itemsUntil .closeParen memberAlias.loosely).bind fun names => ?_
    exact (expect _).bind fun _ => ite (fun _ => failHere rfl) fun _ => result names
  · have hfurther : Ends depth limit anywhere isThere (Parse.accept .comma >>= fun b =>
        if b then at? .identifier >>= fun b =>
          if b then Parse.memberAlias >>= fun a => Pure.pure (some a)
          else Parse.failHere .trailingImportComma
        else Pure.pure none) :=
      ifAccept (by decide) (ifAt .identifier (memberAlias.bind fun _ => result _) (failHere rfl))
        (pure Bool.noConfusion)
    exact (collect hfurther).bind fun _ => result _

theorem importFromStmt :
    Ends depth limit (fun t => t.kind = .kwFrom) always Parse.importFromStmt := by
  refine (nextOf (by decide)).first fun start => importLevel.bind fun level => ?_
  have hnames (source : Option Bytes) : Ends depth limit anywhere never
      (Parse.expect .importWord >>= fun _ => Parse.importedNames >>= fun names =>
        Parse.stmtFrom start.start (.importFrom level source names)) :=
    (expect _).bind fun _ => importedNames.bind fun _ => stmtFrom _ _
  refine look (Looks.at? _) fun _ => ite (fun _ => ?_) fun _ => ?_
  · rw [map_eq_pure_bind, bind_assoc]
    exact dottedName.bind fun source => (result _).bind hnames
  · exact (result none).bind hnames

section Statements

variable (h : ReadingEnds depth limit read)

include h

/-! ## Type aliases -/

omit h in
theorem typeParamDefault {value : Parse Expr} (hvalue : Ends depth limit anywhere always value) :
    Ends depth limit pre never (Parse.typeParamDefault value) := by
  refine ifAccept (by decide) ?_ (result none)
  exact hvalue.map

theorem typeParam : Ends depth limit pre never (Parse.typeParam read) := by
  refine peek fun start _ => ifAccept (by decide) ?_ (ifAccept (by decide) ?_ ?_)
  · refine (expectName _).bind fun name => (typeParamDefault (starExpression h)).bind fun _ => ?_
    exact (spanFrom _).bind fun _ => result _
  · refine (expectName _).bind fun name => (typeParamDefault (h .expression)).bind fun _ => ?_
    exact (spanFrom _).bind fun _ => result _
  · refine (expectName _).bind fun name => ?_
    refine optionally (accept .colon) (h .expression) fun bound => ?_
    exact (typeParamDefault (h .expression)).bind fun _ => (spanFrom _).bind fun _ => result _

theorem typeParams : Ends depth limit pre never (Parse.typeParams read) := by
  refine ifAt .openBracket (skip.bind fun _ => ifAt .closeBracket (failHere rfl) ?_) (result [])
  exact (itemsUntil .closeBracket (typeParam h)).bind fun _ => (expect _).bind fun _ => result _

/-- The equals sign of a type alias is a token that is taken. -/
theorem typeAliasStmt : Ends depth limit pre always (Parse.typeAliasStmt read) := by
  refine skip.bind fun start => skip.bind fun t => (nameOf t .store).bind fun name => ?_
  refine (typeParams h).bind fun params => (expect _).first fun _ => ?_
  exact (h .expression).bind fun value => stmtFrom _ _

/-! ## Statements with expressions -/

omit h in
theorem plainValue (e : Expr) : Ends depth limit pre never (Parse.plainValue e) :=
  ite (fun _ => failAtSpan _ rfl) fun _ => result e

/-- Expressions of which none is starred. -/
theorem plainExpressions :
    Ends depth limit pre always (Parse.yieldOrExpressions read >>= Parse.plainValue) :=
  (yieldOrExpressions h).first plainValue

theorem returnStmt :
    Ends depth limit (fun t => t.kind = .kwReturn) always (Parse.returnStmt read) := by
  refine (nextOf (by decide)).first fun start => test Looks.startsStarred ?_ (stmtFrom _ _)
  exact (starExpressions h).bind fun value => (plainValue value).bind fun value => stmtFrom _ _

theorem raiseStmt :
    Ends depth limit (fun t => t.kind = .kwRaise) always (Parse.raiseStmt read) := by
  refine (nextOf (by decide)).first fun start => test Looks.startsExpression ?_ (stmtFrom _ _)
  refine (h .expression).bind fun exception => ?_
  exact optionally (accept .kwFrom) (h .expression) fun cause => stmtFrom _ _

theorem deleteStmt :
    Ends depth limit (fun t => t.kind = .kwDel) always (Parse.deleteStmt read) := by
  have htarget {pre : Token → Prop} :
      Ends depth limit pre never (read .operand >>= Parse.deleteTarget) :=
    (h .operand).bind deleteTarget
  have hstops : Looks (Parse.startsExpression >>= fun b => Pure.pure !b) :=
    Looks.startsExpression.bind fun _ => Looks.pure _
  refine (nextOf (by decide)).first fun start => test Looks.startsExpression ?_ (failHere rfl)
  exact htarget.bind fun first => (moreItems hstops htarget).bind fun rest => stmtFrom _ _

theorem assertStmt :
    Ends depth limit (fun t => t.kind = .kwAssert) always (Parse.assertStmt read) := by
  refine (nextOf (by decide)).first fun start => (h .expression).bind fun test => ?_
  exact optionally (accept .comma) (h .expression) fun message => stmtFrom _ _

/-! ## Assignments -/

theorem annotatedStmt (start : Token) (first : Expr) :
    Ends depth limit pre never (Parse.annotatedStmt read start first) := by
  have htarget : Ends depth limit pre never (Parse.annotatedTarget first) :=
    ite (fun _ => result _) fun _ => failAtSpan _ rfl
  refine htarget.bind fun target => (h .expression).bind fun hint => ?_
  exact optionally (accept .equal) (plainExpressions h) fun value => stmtFrom _ _

theorem augmentedAssign (start : Position) (op : BinaryOperator) (first : Expr) :
    Ends depth limit pre never (Parse.augmentedAssign read start op first) := by
  have htarget : Ends depth limit anywhere never (Parse.augmentedTarget first) :=
    ite (fun _ => result _) fun _ => failAtSpan _ rfl
  refine skip.bind fun _ => htarget.bind fun target => (yieldOrExpressions h).bind fun value => ?_
  exact (plainValue value).bind fun value => stmtFrom _ _

theorem assignment (start : Position) (first : Expr) :
    Ends depth limit pre never (Parse.assignment read start first) := by
  refine (collect (behind (by decide) (yieldOrExpressions h).loosely)).bind fun rest => ?_
  exact (plainValue _).bind fun value => (mapM storeTarget).bind fun targets => stmtFrom _ _

theorem expressionStmt : Ends depth limit pre always (Parse.expressionStmt read) := by
  refine peek fun start _ => (yieldOrExpressions h).first fun first => ?_
  refine ifAccept (by decide) (annotatedStmt h start first) (kind fun t _ => ?_)
  split
  · exact augmentedAssign h _ _ _
  · exact ifAt .equal (assignment h _ _) ((plainValue first).bind fun value => stmtFrom _ _)

/-! ## Simple statements -/

theorem simpleStmt : Ends depth limit pre always (Parse.simpleStmt read) := by
  refine kind fun t _ => ?_
  split
  · next hkind => exact wordStmt (by simp [hkind]) _
  · next hkind => exact wordStmt (by simp [hkind]) _
  · next hkind => exact wordStmt (by simp [hkind]) _
  · exact (returnStmt h).at_token ‹_›
  · exact (raiseStmt h).at_token ‹_›
  · exact (deleteStmt h).at_token ‹_›
  · exact (assertStmt h).at_token ‹_›
  · exact globalStmt.at_token ‹_›
  · exact nonlocalStmt.at_token ‹_›
  · exact importStmt.at_token ‹_›
  · exact importFromStmt.at_token ‹_›
  · have hstarts : Looks startsTypeAlias := fun c => (startsTypeAlias_run c).imp fun _ => And.left
    exact test hstarts (typeAliasStmt h) (expressionStmt h)

theorem line : Ends depth limit pre always (Parse.line read) := by
  have hfurther : Ends depth limit anywhere isThere (furtherStmt (Parse.simpleStmt read)) :=
    ifAccept (by decide) (test Looks.endsLine (result none)
      ((simpleStmt h).bind fun _ => result _)) (pure Bool.noConfusion)
  rw [line_eq_lineOf]
  refine (simpleStmt h).first fun first => (collect hfurther).bind fun rest => ?_
  exact ifAccept (by decide) (result _) (ifAt .endOfInput (result _) (failHere rfl))

end Statements

end SyntaxTree.Parse.Ends
