import SyntaxTree.Tree.Dump
import SyntaxTree.Tree.Outline

/-
# Links between nodes

Every node of a tree hangs below its parent by a link, which says what the parent does with it: it
may be read, assigned to or deleted.  The links of a node are those of its outline, in order.  A
path is the list of links from one node down to another.
-/

namespace SyntaxTree

/-! ## Links -/

/-- How a node hangs below another. -/
inductive Link where
  /-- A value, a statement, a pattern, or a part of one of them. -/
  | part
  | decorator
  /-- What an assignment, a loop, a clause of a comprehension or a context manager assigns to. -/
  | target
  /-- What is assigned to where a list of targets is out of place: behind an operator or a colon,
  within an expression, or as the name of a type. -/
  | place
  | deleted
  /-- An element of a tuple or a list, or what stands behind a star. -/
  | element
  deriving DecidableEq, Repr

/-- Links of one kind to each item of a list. -/
def Link.each {α : Type} (link : Link) (node : α → Node) (items : List α) : List (Link × Node) :=
  items.map fun item => (link, node item)

/-! ## Links of each node -/

/-- The links of a dict item, the key before the value. -/
@[simp]
def DictItem.links : DictItem → List (Link × Node)
  | .entry key value => [(.part, .expr key), (.part, .expr value)]
  | .unpack value => [(.part, .expr value)]

/-- The operand of a further comparison. -/
def Comparison.operand : Comparison → Expr
  | .mk _ operand => operand

@[simp]
theorem Comparison.operand_mk (op : CompareOperator) (operand : Expr) :
    (Comparison.mk op operand).operand = operand := rfl

/-- The values of a format specification as an f-string. -/
def FormatSpec.expr : FormatSpec → Expr
  | .mk span values => .node span (.fstring values)

@[simp]
theorem FormatSpec.expr_mk (span : Span) (values : List Expr) :
    (FormatSpec.mk span values).expr = .node span (.fstring values) := rfl

/-- The parameter of one that is given by keyword only. -/
def KeywordOnly.parameter : KeywordOnly → Parameter
  | .mk parameter _ => parameter

@[simp]
theorem KeywordOnly.parameter_mk (parameter : Parameter) (default : Option Expr) :
    (KeywordOnly.mk parameter default).parameter = parameter := rfl

/-- The default of a parameter that is given by keyword only. -/
def KeywordOnly.default : KeywordOnly → Option Expr
  | .mk _ default => default

@[simp]
theorem KeywordOnly.default_mk (parameter : Parameter) (default : Option Expr) :
    (KeywordOnly.mk parameter default).default = default := rfl

/-- The links of an expression's shape. -/
@[simp]
def Expr.Shape.links : Expr.Shape → List (Link × Node)
  | .name .. | .constant _ => []
  | .boolean _ values => Link.part.each .expr values
  | .named target value => [(.place, .expr target), (.part, .expr value)]
  | .binary _ left right => [(.part, .expr left), (.part, .expr right)]
  | .unary _ operand => [(.part, .expr operand)]
  | .lambda parameters body => [(.part, .parameters parameters), (.part, .expr body)]
  | .conditional test body orelse =>
    [(.part, .expr body), (.part, .expr test), (.part, .expr orelse)]
  | .dict items => items.flatMap DictItem.links
  | .set elements => Link.part.each .expr elements
  | .list elements _ | .tuple elements _ => Link.element.each .expr elements
  | .listComp element clauses | .setComp element clauses | .generator element clauses =>
    (.part, .expr element) :: Link.part.each .comprehension clauses
  | .dictComp key value clauses =>
    (.part, .expr key) :: (.part, .expr value) :: Link.part.each .comprehension clauses
  | .await value | .yieldFrom value => [(.part, .expr value)]
  | .yield value => Link.part.each .expr value.toList
  | .compare left rest => (.part, .expr left) :: Link.part.each (.expr ·.operand) rest
  | .call callee arguments keywords =>
    (.part, .expr callee) :: Link.part.each .expr arguments ++ Link.part.each .keyword keywords
  | .field value _ spec => (.part, .expr value) :: Link.part.each (.expr ·.expr) spec.toList
  | .fstring values => Link.part.each .expr values
  | .attribute value _ _ => [(.part, .expr value)]
  | .subscript value index _ => [(.part, .expr value), (.part, .expr index)]
  | .starred value _ => [(.element, .expr value)]
  | .slice lower upper step =>
    Link.part.each .expr (lower.toList ++ upper.toList ++ step.toList)

/-- The links of the parameters of a function; all defaults come last. -/
@[simp]
def Parameters.links : Parameters → List (Link × Node)
  | .mk positionalOnly positional variadic keywordOnly variadicKeyword defaults =>
    Link.part.each .parameter (positionalOnly ++ positional ++ variadic.toList ++
        keywordOnly.map KeywordOnly.parameter ++ variadicKeyword.toList) ++
      Link.part.each .expr (defaults ++ keywordOnly.filterMap KeywordOnly.default)

/-- The links of a pattern's shape. -/
@[simp]
def Pattern.Shape.links : Pattern.Shape → List (Link × Node)
  | .value e => [(.part, .expr e)]
  | .singleton _ | .star _ => []
  | .sequence patterns | .or patterns => Link.part.each .pattern patterns
  | .mapping entries _ =>
    entries.flatMap fun entry => [(.part, .expr entry.1), (.part, .pattern entry.2)]
  | .record callee patterns attributes =>
    (.part, .expr callee) :: Link.part.each .pattern (patterns ++ attributes.map Prod.snd)
  | .as pattern _ => Link.part.each .pattern pattern.toList

/-- The links of a statement's shape. -/
@[simp]
def Stmt.Shape.links : Stmt.Shape → List (Link × Node)
  | .functionDef _ _ decorators typeParams parameters returns body =>
    Link.decorator.each .expr decorators ++ Link.part.each .typeParam typeParams ++
      [(.part, .parameters parameters)] ++ Link.part.each .expr returns.toList ++
      Link.part.each .stmt body
  | .classDef _ decorators typeParams bases keywords body =>
    Link.decorator.each .expr decorators ++ Link.part.each .typeParam typeParams ++
      Link.part.each .expr bases ++ Link.part.each .keyword keywords ++ Link.part.each .stmt body
  | .returnValue value => Link.part.each .expr value.toList
  | .delete targets => Link.deleted.each .expr targets
  | .assign targets value => Link.target.each .expr targets ++ [(.part, .expr value)]
  | .augmentedAssign target _ value => [(.place, .expr target), (.part, .expr value)]
  | .annotatedAssign target hint value _ =>
    (.place, .expr target) :: (.part, .expr hint) :: Link.part.each .expr value.toList
  | .forLoop _ target iterable body orelse =>
    (.target, .expr target) :: (.part, .expr iterable) :: Link.part.each .stmt (body ++ orelse)
  | .whileLoop test body orelse | .conditional test body orelse =>
    (.part, .expr test) :: Link.part.each .stmt (body ++ orelse)
  | .withBlock _ items body => Link.part.each .withItem items ++ Link.part.each .stmt body
  | .matchBlock subject cases => (.part, .expr subject) :: Link.part.each .matchCase cases
  | .raise exception cause => Link.part.each .expr (exception.toList ++ cause.toList)
  | .tryBlock _ body handlers orelse finalbody =>
    Link.part.each .stmt body ++ Link.part.each .exceptHandler handlers ++
      Link.part.each .stmt (orelse ++ finalbody)
  | .assertion test message => (.part, .expr test) :: Link.part.each .expr message.toList
  | .importNames names | .importFrom _ _ names => Link.part.each .importAlias names
  | .expression value => [(.part, .expr value)]
  | .typeAlias name typeParams value =>
    (.place, .expr name) :: Link.part.each .typeParam typeParams ++ [(.part, .expr value)]
  | .globalNames _ | .nonlocalNames _ | .pass | .breakLoop | .continueLoop | .blank _ => []

namespace Node

/-- The links of a node. -/
@[simp]
def links : Node → List (Link × Node)
  | module m =>
    Link.part.each .stmt m.body ++
      Link.part.each .expr (m.expression.toList ++ m.argumentTypes ++ m.returns.toList)
  | stmt (.node _ shape) => shape.links
  | expr (.node _ shape) => shape.links
  | pattern (.node _ shape) => shape.links
  | parameters p => p.links
  | parameter (.mk _ _ hint) => Link.part.each .expr hint.toList
  | keyword (.mk _ _ value) => [(.part, .expr value)]
  | importAlias _ => []
  | withItem item => (.part, .expr item.context) :: Link.target.each .expr item.target.toList
  | matchCase (.mk _ p guard body) =>
    (.part, .pattern p) :: Link.part.each .expr guard.toList ++ Link.part.each .stmt body
  | exceptHandler (.mk _ type _ body) =>
    Link.part.each .expr type.toList ++ Link.part.each .stmt body
  | comprehension (.mk _ target iterable conditions _) =>
    (.target, .expr target) :: (.part, .expr iterable) :: Link.part.each .expr conditions
  | typeParam p => Link.part.each .expr (p.bound.toList ++ p.default.toList)

/-- The span of a node; the parameters of a function have none of their own. -/
@[simp]
def span : Node → Span
  | module m => m.span
  | stmt s => s.span
  | expr e => e.span
  | pattern p => p.span
  | parameters _ => .none
  | parameter (.mk span _ _) => span
  | keyword (.mk span _ _) => span
  | importAlias a => a.span
  | withItem item => item.span
  | matchCase (.mk span _ _ _) => span
  | exceptHandler (.mk span _ _ _) => span
  | comprehension (.mk span _ _ _ _) => span
  | typeParam p => p.span

/-! ## Paths -/

/-- The nodes at and below a node, each with the path that leads there. -/
inductive Reaches (n : Node) : List Link → Node → Prop where
  | here : Reaches n [] n
  | step {path : List Link} {parent child : Node} {link : Link} (hparent : Reaches n path parent)
    (hlink : (link, child) ∈ parent.links) : Reaches n (path ++ [link]) child

end Node

/-- A link decides how what stands at the end of a path is used: behind it there are only
elements. -/
def Link.Governs (link : Link) (path : List Link) : Prop :=
  ∃ front back, path = front ++ link :: back ∧ ∀ l ∈ back, l = .element

namespace Link

variable {link last : Link} {path : List Link}

theorem not_governs_nil : ¬ link.Governs [] := by
  rintro ⟨front, back, h, -⟩
  cases front <;> cases h

/-- What decides is the last link, or one in front of it if that is an element. -/
theorem governs_concat (hlink : link ≠ .element) :
    link.Governs (path ++ [last]) ↔ last = link ∨ last = .element ∧ link.Governs path := by
  constructor
  · rintro ⟨front, back, h, hback⟩
    rcases List.eq_nil_or_concat back with rfl | ⟨back, l, rfl⟩
    · exact .inl (List.append_singleton_inj.mp h).2
    · rw [List.concat_eq_append] at h hback
      rw [← List.cons_append, ← List.append_assoc] at h
      obtain ⟨hpath, rfl⟩ := List.append_singleton_inj.mp h
      obtain ⟨hback, hlast⟩ := List.forall_mem_append.mp hback
      exact .inr ⟨hlast last List.mem_cons_self, front, back, hpath, hback⟩
  · rintro (rfl | ⟨rfl, front, back, rfl, hback⟩)
    · exact ⟨path, [], rfl, List.forall_mem_nil _⟩
    · refine ⟨front, back ++ [.element], by simp, List.forall_mem_append.mpr ⟨hback, ?_⟩⟩
      exact List.forall_mem_singleton.mpr rfl

end Link

end SyntaxTree
