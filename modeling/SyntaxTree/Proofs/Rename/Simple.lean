import SyntaxTree.Proofs.Rename.Expression

/-
# Simple statements over renamed tokens

Names, imports, assignments and the statements of one word are mirrored over renamed tokens.  None
of them has a soft keyword.
-/

namespace SyntaxTree

/-! ## Dotted names -/

/-- What stands in front of the first of some names stands in front of all of them. -/
theorem intercalate_append_cons (sep front name : Bytes) (names : List Bytes) :
    sep.intercalate ((front ++ name) :: names) = front ++ sep.intercalate (name :: names) := by
  cases names with
  | nil => simp
  | cons other names => simp [List.intercalate_cons_cons]

/-- A name with further names behind dots. -/
theorem foldl_dots (name : Bytes) (parts : List Bytes) :
    parts.foldl (fun name part => name ++ ascii '.' :: part) name =
      [ascii '.'].intercalate (name :: parts) := by
  induction parts generalizing name with
  | nil => simp
  | cons part parts ih =>
    calc (part :: parts).foldl (fun name part => name ++ ascii '.' :: part) name
      _ = [ascii '.'].intercalate ((name ++ ascii '.' :: part) :: parts) := ih _
      _ = name ++ [ascii '.'].intercalate (([ascii '.'] ++ part) :: parts) :=
        intercalate_append_cons ..
      _ = name ++ ([ascii '.'] ++ [ascii '.'].intercalate (part :: parts)) := by
        rw [intercalate_append_cons]
      _ = [ascii '.'].intercalate (name :: part :: parts) := by
        rw [List.intercalate_cons_cons, List.append_assoc]

namespace Parse

variable {α β γ : Type}

/-- A statement that has a soft keyword. -/
abbrev SoftStmt (s : Stmt) : Prop := s.isSoft = true

/-- Statements of which one has a soft keyword. -/
abbrev SoftStmts (l : List Stmt) : Prop := Stmt.anySoft l = true

namespace Mirrors

variable {σ : Bytes → Bytes} {keep : Prop} {pre : Token → Prop} {read read' : Reading}

/-! ## Names -/

theorem oneOrMore {f : α → β} {item : Parse α} {item' : Parse β}
    (h : Mirrors σ keep anywhere (Becomes f) never item item') :
    Mirrors σ keep pre (Becomes (List.map f)) never (Parse.oneOrMore item)
      (Parse.oneOrMore item') := by
  refine h.at_any.bind ?_
  rintro first _ rfl
  refine (collect (behind .comma (fun _ => rfl) h)).bind ?_
  rintro rest _ rfl
  exact pure rfl id

theorem names (role : NameRole) :
    Mirrors σ keep pre (Becomes (List.map σ)) never (Parse.names role) (Parse.names role) := by
  refine oneOrMore ((expectName role).bind ?_)
  rintro t _ ⟨ht, -, rfl⟩
  exact pure (Token.text_rename_of_identifier ht).symm id

theorem renamed (role : NameRole) :
    Mirrors σ keep pre (Becomes (Option.map σ)) never (Parse.renamed role)
      (Parse.renamed role) := by
  refine ifAccept .kwAs (fun _ => rfl) ((expectName role).bind ?_) (pure rfl id)
  rintro t _ ⟨ht, -, rfl⟩
  exact pure (by rw [Becomes, Token.text_rename_of_identifier ht]; rfl) id

/-- The parts of a dotted name are identifiers, so that the dots are where they were. -/
theorem dottedName :
    Mirrors σ keep pre (Becomes (renameDotted σ)) never Parse.dottedName Parse.dottedName := by
  have hpart : Mirrors σ keep anywhere
      (Option.Rel fun part part' => ascii '.' ∉ part ∧ σ part = part') (fun o => ∃ a ∈ o, never a)
      (Parse.accept .dot >>= fun b => if b then
        Parse.expectName .submoduleName >>= fun t => Pure.pure (some t.text) else Pure.pure none)
      (Parse.accept .dot >>= fun b => if b then
        Parse.expectName .submoduleName >>= fun t =>
        Pure.pure (some t.text) else Pure.pure none) := by
    refine ifAccept .dot (fun _ => rfl) ((expectName .submoduleName).bind ?_)
      (pure .none (by simp))
    rintro t _ ⟨ht, hplain, rfl⟩
    refine pure (.some ⟨hplain.dotless ht, ?_⟩) (by simp [never])
    rw [Token.text_rename_of_identifier ht]
  refine (expectName .moduleName).bind ?_
  rintro t _ ⟨ht, hplain, rfl⟩
  refine ((collectRel hpart).congr_soft (by simp [never])).bind fun parts parts' hparts => ?_
  obtain ⟨hdotless, hparts⟩ := (List.forall₂_and_left parts parts').mp hparts
  obtain rfl := map_eq_of_forall₂ hparts
  refine pure ?_ id
  rw [Becomes, foldl_dots, foldl_dots, renameDotted_intercalate (List.cons_ne_nil _ _)
      (List.forall_mem_cons.mpr ⟨hplain.dotless ht, hdotless⟩),
    List.map_cons, Token.text_rename_of_identifier ht]

/-! ## Simple statements -/

/-- A statement whose shape has no soft keyword. -/
theorem stmtFrom {start start' : Position} {shape shape' : Stmt.Shape} (hstart : start' = start)
    (hshape : shape.rename σ = shape') (hsoft : ∀ span, ¬ SoftStmt (.node span shape)) :
    Mirrors σ keep pre (Becomes (Stmt.rename σ)) SoftStmt (Parse.stmtFrom start shape)
      (Parse.stmtFrom start' shape') := by
  subst hstart hshape
  exact spanFrom start' fun span => pure rfl (hsoft span)

/-- A statement of one word. -/
theorem wordStmt {kind : TokenKind} (hkind : kind.isOpen) {shape : Stmt.Shape}
    (hshape : shape.rename σ = shape) (hsoft : ∀ span, ¬ SoftStmt (.node span shape)) :
    Mirrors σ keep (fun t => t.kind = kind) (Becomes (Stmt.rename σ)) SoftStmt
      (Parse.wordStmt shape) (Parse.wordStmt shape) :=
  next (taking hkind) fun t _ _ => stmtFrom (t.start_rename σ) hshape hsoft

theorem globalStmt :
    Mirrors σ keep (fun t => t.kind = .kwGlobal) (Becomes (Stmt.rename σ)) SoftStmt
      Parse.globalStmt Parse.globalStmt := by
  refine next (taking rfl) fun t _ _ => (names .globalName).bind ?_
  rintro names _ rfl
  exact stmtFrom (t.start_rename σ) rfl fun _ => nofun

theorem nonlocalStmt :
    Mirrors σ keep (fun t => t.kind = .kwNonlocal) (Becomes (Stmt.rename σ)) SoftStmt
      Parse.nonlocalStmt Parse.nonlocalStmt := by
  refine next (taking rfl) fun t _ _ => (names .nonlocalName).bind ?_
  rintro names _ rfl
  exact stmtFrom (t.start_rename σ) rfl fun _ => nofun

theorem moduleAlias :
    Mirrors σ keep pre (Becomes (Alias.renameModule σ)) never Parse.moduleAlias
      Parse.moduleAlias := by
  refine peek fun start _ _ => dottedName.bind ?_
  rintro name _ rfl
  refine (renamed .aliasName).bind ?_
  rintro renamed _ rfl
  rw [start.start_rename]
  exact spanFrom start.start fun span => pure rfl id

theorem importStmt :
    Mirrors σ keep (fun t => t.kind = .kwImport) (Becomes (Stmt.rename σ)) SoftStmt
      Parse.importStmt Parse.importStmt := by
  refine next (taking rfl) fun t _ _ => (oneOrMore moduleAlias).bind ?_
  rintro names _ rfl
  exact stmtFrom (t.start_rename σ) rfl fun _ => nofun

theorem memberAlias :
    Mirrors σ keep pre (Becomes (Alias.renameMember σ)) never Parse.memberAlias
      Parse.memberAlias := by
  refine (expectName .importedName).bind ?_
  rintro t _ ⟨ht, -, rfl⟩
  refine (renamed .aliasName).bind ?_
  rintro renamed _ rfl
  rw [t.start_rename, Token.text_rename_of_identifier ht]
  exact spanFrom t.start fun span => pure rfl id

theorem importLevel :
    Mirrors σ keep pre Eq never Parse.importLevel Parse.importLevel := by
  refine (collect (f := id) ?dots).bind ?_
  case dots =>
    exact ifAccept .dot (fun _ => rfl) (pure rfl id)
      (ifAccept .ellipsis (fun _ => rfl) (pure rfl id) (pure rfl id))
  · rintro dots _ rfl
    exact pure (by rw [List.map_id]) id

theorem importedNames (hstar : σ (text "*") = text "*") :
    Mirrors σ keep pre (Becomes (List.map (Alias.renameMember σ))) never Parse.importedNames
      Parse.importedNames := by
  refine ifAt .star (next (taking rfl) fun t _ _ => ?_)
    (ifAccept .openParen (fun _ => rfl) ((itemsUntil .closeParen memberAlias).bind ?_)
      (memberAlias.bind ?_))
  · rw [t.start_rename]
    refine spanFrom t.start fun span => pure ?_ id
    rw [Becomes, List.map_singleton, Alias.renameMember, hstar]
    rfl
  · rintro names _ rfl
    refine (expect .importClose fun _ => rfl).bind fun _ _ _ => ?_
    exact ite (by simp) (fun _ => failHere _) fun _ => pure rfl id
  · rintro first _ rfl
    refine (collect (f := Alias.renameMember σ) ?further).bind ?_
    case further =>
      refine ifAccept .comma (fun _ => rfl) (ifAt .identifier (memberAlias.bind ?_) (failHere _))
        (pure rfl id)
      rintro member _ rfl
      exact pure rfl id
    rintro rest _ rfl
    exact pure rfl id

theorem importFromStmt (hstar : σ (text "*") = text "*") :
    Mirrors σ keep (fun t => t.kind = .kwFrom) (Becomes (Stmt.rename σ)) SoftStmt
      Parse.importFromStmt Parse.importFromStmt := by
  refine next (taking rfl) fun t _ _ => importLevel.bind ?_
  rintro level _ rfl
  have hnames (source : Option Bytes) : Mirrors σ keep anywhere (Becomes (Stmt.rename σ)) SoftStmt
      (Parse.expect .importWord >>= fun _ => Parse.importedNames >>= fun names =>
        Parse.stmtFrom t.start (.importFrom level source names))
      (Parse.expect .importWord >>= fun _ => Parse.importedNames >>= fun names =>
        Parse.stmtFrom (t.rename σ).start
        (.importFrom level (source.map (renameDotted σ)) names)) := by
    refine (expect .importWord fun _ => rfl).bind fun _ _ _ => (importedNames hstar).bind ?_
    rintro names _ rfl
    exact stmtFrom (t.start_rename σ) rfl fun _ => nofun
  refine (atKind .kwImport).bind ?_
  rintro b _ rfl
  exact ite .rfl (fun _ => present dottedName hnames) fun _ => hnames none

section Simple

variable (h : ReadingMirrors σ keep read read')

include h

theorem returnStmt :
    Mirrors σ keep (fun t => t.kind = .kwReturn) (Becomes (Stmt.rename σ)) SoftStmt
      (Parse.returnStmt read) (Parse.returnStmt read') := by
  refine next (taking rfl) fun t _ _ => test startsStarred ((starExpressions h).bind ?_)
    (stmtFrom (t.start_rename σ) rfl fun _ => nofun)
  rintro value _ rfl
  refine (plainValue value).bind ?_
  rintro value _ rfl
  exact stmtFrom (t.start_rename σ) rfl fun _ => nofun

theorem raiseStmt :
    Mirrors σ keep (fun t => t.kind = .kwRaise) (Becomes (Stmt.rename σ)) SoftStmt
      (Parse.raiseStmt read) (Parse.raiseStmt read') := by
  refine next (taking rfl) fun t _ _ => test startsExpression ((h.mirrors .expression).bind ?_)
    (stmtFrom (t.start_rename σ) rfl fun _ => nofun)
  rintro exception _ rfl
  refine optionally (accept .kwFrom fun _ => rfl) (h.mirrors .expression) fun cause => ?_
  exact stmtFrom (t.start_rename σ) rfl fun _ => nofun

theorem deleteStmt :
    Mirrors σ keep (fun t => t.kind = .kwDel) (Becomes (Stmt.rename σ)) SoftStmt
      (Parse.deleteStmt read) (Parse.deleteStmt read') := by
  have htarget : Mirrors σ keep anywhere (Becomes (Expr.rename σ)) never
      (read .operand >>= Parse.deleteTarget) (read' .operand >>= Parse.deleteTarget) := by
    refine (h.mirrors .operand).bind ?_
    rintro e _ rfl
    exact deleteTarget e
  have hstops : Mirrors σ keep anywhere Eq never
      (Parse.startsExpression >>= fun b => Pure.pure !b)
      (Parse.startsExpression >>= fun b => Pure.pure !b) := by
    refine startsExpression.bind ?_
    rintro b _ rfl
    exact pure rfl id
  refine next (taking rfl) fun t _ _ => test startsExpression (htarget.bind ?_) (failHere _)
  rintro first _ rfl
  refine (moreItems hstops htarget).bind ?_
  rintro rest _ rfl
  exact stmtFrom (t.start_rename σ) rfl fun _ => nofun

theorem assertStmt :
    Mirrors σ keep (fun t => t.kind = .kwAssert) (Becomes (Stmt.rename σ)) SoftStmt
      (Parse.assertStmt read) (Parse.assertStmt read') := by
  refine next (taking rfl) fun t _ _ => (h.mirrors .expression).bind ?_
  rintro test _ rfl
  refine optionally (accept .comma fun _ => rfl) (h.mirrors .expression) fun message => ?_
  exact stmtFrom (t.start_rename σ) rfl fun _ => nofun

/-! ## Assignments -/

theorem annotatedStmt (start : Token) (first : Expr) :
    Mirrors σ keep pre (Becomes (Stmt.rename σ)) SoftStmt (Parse.annotatedStmt read start first)
      (Parse.annotatedStmt read' (start.rename σ) (first.rename σ)) := by
  have hvalue : Mirrors σ keep anywhere (Becomes (Expr.rename σ)) never
      (Parse.yieldOrExpressions read >>= Parse.plainValue)
      (Parse.yieldOrExpressions read' >>= Parse.plainValue) := by
    refine (yieldOrExpressions h).bind ?_
    rintro e _ rfl
    exact plainValue e
  refine (annotatedTarget first).bind ?_
  rintro target _ rfl
  refine (h.mirrors .expression).bind ?_
  rintro hint _ rfl
  refine optionally (accept .equal fun _ => rfl) hvalue fun value => ?_
  exact stmtFrom (start.start_rename σ) (by simp) fun _ => nofun

/-- The hint of an annotation does not begin at the end of a line. -/
theorem needsToken_annotatedStmt (start : Token) (first : Expr) :
    NeedsToken (Parse.annotatedStmt read start first) := by
  rw [Parse.annotatedStmt, Parse.annotatedTarget]
  split
  · rw [pure_bind]
    exact (h.needsToken .expression).bind
  · exact .bind (.of_fails (fails_failAtSpan _ _))

theorem augmentedAssign {t : Token} (start : Position) {op : BinaryOperator}
    (hop : augmentedOf? t.kind = some op) (first : Expr) :
    Mirrors σ keep (· = t) (Becomes (Stmt.rename σ)) SoftStmt
      (Parse.augmentedAssign read start op first)
      (Parse.augmentedAssign read' start op (first.rename σ)) := by
  refine next (fun _ _ ht => ht ▸ TokenKind.isOpen_of_eq_some hop rfl rfl rfl rfl) fun _ _ _ => ?_
  refine (augmentedTarget first).bind ?_
  rintro target _ rfl
  refine (yieldOrExpressions h).bind ?_
  rintro value _ rfl
  refine (plainValue value).bind ?_
  rintro value _ rfl
  exact stmtFrom rfl rfl fun _ => nofun

theorem assignment (start : Position) (first : Expr) :
    Mirrors σ keep pre (Becomes (Stmt.rename σ)) SoftStmt (Parse.assignment read start first)
      (Parse.assignment read' start (first.rename σ)) := by
  refine (collect (behind .equal (fun _ => rfl) (yieldOrExpressions h))).bind ?_
  rintro rest _ rfl
  have hlast : (first.rename σ :: rest.map (Expr.rename σ)).getLast (List.cons_ne_nil _ _) =
      ((first :: rest).getLast (List.cons_ne_nil _ _)).rename σ := by
    simp only [← List.map_cons, List.getLast_map]
  have htargets : (first.rename σ :: rest.map (Expr.rename σ)).dropLast =
      (first :: rest).dropLast.map (Expr.rename σ) := by
    rw [List.map_dropLast, List.map_cons]
  rw [hlast, htargets]
  refine (plainValue _).bind ?_
  rintro value _ rfl
  refine (mapM storeTarget _).bind ?_
  rintro targets _ rfl
  exact stmtFrom rfl rfl fun _ => nofun

theorem expressionStmt :
    Mirrors σ keep pre (Becomes (Stmt.rename σ)) SoftStmt (Parse.expressionStmt read)
      (Parse.expressionStmt read') := by
  refine peek fun start _ _ => (yieldOrExpressions h).bind ?_
  rintro first _ rfl
  refine ifColon (needsToken_annotatedStmt h start first) (annotatedStmt h start first)
    (kind fun t _ => ?_)
  · cases hop : augmentedOf? t.kind with
    | some op =>
      rw [start.start_rename]
      exact augmentedAssign h start.start hop first
    | none =>
      refine ifAt .equal ?_ ((plainValue first).bind ?_)
      · rw [start.start_rename]
        exact assignment h start.start first
      · rintro value _ rfl
        exact stmtFrom (start.start_rename σ) rfl fun _ => nofun

end Simple

end Mirrors

end Parse

end SyntaxTree
