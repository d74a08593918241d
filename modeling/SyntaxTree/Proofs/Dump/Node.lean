import SyntaxTree.Proofs.Dump.Statement

/-
# Dumps tell nodes apart

The dump of a node with legible names determines the node apart from positions: its lines give a
tree of lines, the label at its root gives the sort and the kind of the node, and the fields give
its children.
-/

namespace SyntaxTree

/-! ## Sorts of nodes -/

/-- What a node is: a module, a statement, an expression, a pattern, or a part of a kind. -/
inductive NodeSort where
  | module | stmt | expr | pattern
  | part (kind : NodeKind)

/-- The sort of the nodes of a kind. -/
def NodeKind.sort : NodeKind → NodeSort
  | .wholeModule => .module
  | .functionDef | .classDef | .returnStmt | .delStmt | .assignStmt | .augAssignStmt
  | .annAssignStmt | .forStmt | .whileStmt | .ifStmt | .withStmt | .matchStmt | .raiseStmt
  | .tryStmt | .assertStmt | .importNames | .importFrom | .globalStmt | .nonlocalStmt | .exprStmt
  | .passStmt | .breakStmt | .continueStmt | .typeAlias | .blank => .stmt
  | .boolOp | .namedExpr | .binaryExpr | .unaryExpr | .lambdaExpr | .ifExpr | .dictLiteral
  | .setLiteral | .listLiteral | .tupleLiteral | .listComp | .setComp | .dictComp | .generatorExpr
  | .awaitExpr | .yieldExpr | .yieldFromExpr | .compare | .call | .formattedValue | .joinedStr
  | .constant | .attributeAccess | .subscript | .starred | .nameExpr | .slice => .expr
  | .matchValue | .matchSingleton | .matchSequence | .matchMapping | .matchClass | .matchStar
  | .matchAs | .matchOr => .pattern
  | kind => .part kind

/-- The sort of a node. -/
def Node.sort : Node → NodeSort
  | module _ => .module
  | stmt _ => .stmt
  | expr _ => .expr
  | pattern _ => .pattern
  | parameters _ => .part .parameters
  | parameter _ => .part .parameter
  | keyword _ => .part .keywordArgument
  | importAlias _ => .part .importAlias
  | withItem _ => .part .withItem
  | matchCase _ => .part .matchCase
  | exceptHandler _ => .part .exceptHandler
  | comprehension _ => .part .comprehension
  | typeParam _ => .part .typeParam

/-- The kind of a node tells its sort. -/
theorem Node.sort_kind (n : Node) : n.kind.sort = n.sort := by
  cases n with
  | stmt s =>
    obtain ⟨_, shape⟩ := s
    cases shape <;> rfl
  | expr e =>
    obtain ⟨_, shape⟩ := e
    cases shape <;> rfl
  | pattern p =>
    obtain ⟨_, shape⟩ := p
    cases shape <;> rfl
  | parameters p =>
    cases p
    rfl
  | parameter p =>
    cases p
    rfl
  | keyword k =>
    cases k
    rfl
  | matchCase c =>
    cases c
    rfl
  | exceptHandler handler =>
    cases handler
    rfl
  | comprehension c =>
    cases c
    rfl
  | _ => rfl

/-- Nodes with equal branches are of the same kind. -/
theorem Node.kind_eq_of_branch_eq {a b : Node} (h : a.doc.branch = b.doc.branch) :
    a.kind = b.kind := by
  have hkind := Node.ofLabel?_label a
  rw [Doc.label_eq_of_branch_eq h, Node.ofLabel?_label b] at hkind
  exact (Option.some.inj hkind).symm

/-- Nodes with equal branches are of the same sort. -/
theorem Node.sort_eq_of_branch_eq {a b : Node} (h : a.doc.branch = b.doc.branch) :
    a.sort = b.sort := by
  rw [← Node.sort_kind a, Node.kind_eq_of_branch_eq h, Node.sort_kind b]

/-! ## Equal dumps -/

section

variable {numbers : Set Binary64} (hnum : Set.InjOn FloatFormat.exact.write numbers)

include hnum

/-- Legible modules with equal branches are equal apart from positions. -/
theorem Module.bare_eq_of_branch_eq {a b : Module} (ha : a.Legible numbers)
    (hb : b.Legible numbers) (h : a.doc.branch = b.doc.branch) : a.bare = b.bare := by
  obtain ⟨hlabel, hfields⟩ := Doc.parts_of_branch_eq ["body", "expression", "argtypes", "returns"]
    (by decide) rfl rfl h
  simp only [Doc.named_cons_inj, List.map_nil, and_true] at hfields
  obtain ⟨hbody, hexpression, hargumentTypes, hreturns⟩ := hfields
  have hmode := Mode.name_injective (List.append_cancel_left hlabel)
  obtain ⟨ha₁, ha₂, ha₃, ha₄⟩ := ha
  obtain ⟨hb₁, hb₂, hb₃, hb₄⟩ := hb
  rw [Module.bare, Module.bare, hmode, Stmt.areTold hnum a.body ha₁ b.body hb₁ hbody,
    Expr.isToldOption hnum a.expression ha₂ b.expression hb₂ hexpression,
    Expr.areTold hnum a.argumentTypes ha₃ b.argumentTypes hb₃ hargumentTypes,
    Expr.isToldOption hnum a.returns ha₄ b.returns hb₄ hreturns]

/-- Legible nodes with equal branches are equal apart from positions. -/
theorem Node.bare_eq_of_branch_eq {a b : Node} (ha : a.Legible numbers) (hb : b.Legible numbers)
    (h : a.doc.branch = b.doc.branch) : a.bare = b.bare := by
  have hsort := Node.sort_eq_of_branch_eq h
  -- The label of the branch tells the sort, so both nodes are of one sort.
  cases a with
  | module m =>
    cases b with
    | module m' => exact congrArg Node.module (Module.bare_eq_of_branch_eq hnum ha hb h)
    | _ => exact nomatch hsort
  | stmt s =>
    cases b with
    | stmt s' => exact congrArg Node.stmt (Stmt.isTold hnum s ha s' hb h)
    | _ => exact nomatch hsort
  | expr e =>
    cases b with
    | expr e' => exact congrArg Node.expr (Expr.isTold hnum e ha e' hb h)
    | _ => exact nomatch hsort
  | pattern p =>
    cases b with
    | pattern p' => exact congrArg Node.pattern (Pattern.isTold hnum p ha p' hb h)
    | _ => exact nomatch hsort
  | parameters p =>
    cases b with
    | parameters p' => exact congrArg Node.parameters (Parameters.isTold hnum p ha p' hb h)
    | _ => exact nomatch hsort
  | parameter p =>
    cases b with
    | parameter p' => exact congrArg Node.parameter (Parameter.isTold hnum p ha p' hb h)
    | _ => exact nomatch hsort
  | keyword k =>
    cases b with
    | keyword k' => exact congrArg Node.keyword (Keyword.isTold hnum k ha k' hb h)
    | _ => exact nomatch hsort
  | importAlias a =>
    cases b with
    | importAlias b => exact congrArg Node.importAlias (Alias.bare_eq_of_branch_eq ha hb h)
    | _ => exact nomatch hsort
  | withItem item =>
    cases b with
    | withItem item' =>
      exact congrArg Node.withItem (WithItem.bare_eq_of_branch_eq hnum ha hb h)
    | _ => exact nomatch hsort
  | matchCase c =>
    cases b with
    | matchCase c' => exact congrArg Node.matchCase (MatchCase.isTold hnum c ha c' hb h)
    | _ => exact nomatch hsort
  | exceptHandler handler =>
    cases b with
    | exceptHandler handler' =>
      exact congrArg Node.exceptHandler (ExceptHandler.isTold hnum handler ha handler' hb h)
    | _ => exact nomatch hsort
  | comprehension c =>
    cases b with
    | comprehension c' =>
      exact congrArg Node.comprehension (Comprehension.isTold hnum c ha c' hb h)
    | _ => exact nomatch hsort
  | typeParam p =>
    cases b with
    | typeParam p' =>
      exact congrArg Node.typeParam (TypeParam.bare_eq_of_branch_eq hnum ha hb h)
    | _ => exact nomatch hsort

/-- Nodes with legible names and equal dumps are equal apart from positions, if the texts of their
numbers tell the numbers apart.  The nodes are those that the types admit: keys and their values,
parameters and their defaults, and the names and patterns of attributes come in pairs, a singleton
pattern is one of three constants, and an import goes up no negative number of levels. -/
theorem Node.bare_eq_of_dump_eq {a b : Node} (ha : a.Legible numbers) (hb : b.Legible numbers)
    (h : a.dump = b.dump) : a.bare = b.bare := by
  have hlines : ∀ {n : Node}, n.Legible numbers → ∀ l ∈ n.doc.lines 0, l.IsClean :=
    fun hn => (Node.isClean_doc hn).lines 0
  exact Node.bare_eq_of_branch_eq hnum ha hb
    (Doc.branch_eq_of_render_eq (hlines ha) (hlines hb) h)

end

/-- The comparison `x < 0.0` at two places. -/
theorem Node.bare_eq_of_dump_eq_less :
    let less (start : Position) : Node :=
      .expr (.node ⟨start, none⟩ (.compare (.node ⟨start, none⟩ (.name (text "x") .load))
        [.mk .less (.node ⟨start.nextColumn, none⟩ (.constant (.float .zero)))]))
    (less .origin).Legible {.zero} ∧ (less .origin).dump = (less ⟨7, 3⟩).dump ∧
      (less .origin).bare = (less ⟨7, 3⟩).bare := by
  intro less
  have hlegible : ∀ start, (less start).Legible {.zero} :=
    fun start => ⟨show IsLegible (text "x") by decide, rfl, trivial⟩
  refine ⟨hlegible .origin, rfl, ?_⟩
  exact Node.bare_eq_of_dump_eq (Set.injOn_singleton _ _) (hlegible .origin) (hlegible ⟨7, 3⟩) rfl

end SyntaxTree
