import SyntaxTree.Tree.Basic

/-
# Outlines

The outline of a tree keeps the kind, the span and the children of every node.  The children of a
node are in the order of its source where the source has one: the keys of a dict display stand
beside their values, and the value of a conditional expression stands before its test.
-/

namespace SyntaxTree

/-- The kinds of nodes. -/
inductive NodeKind where
  | wholeModule | functionDef | classDef | returnStmt | delStmt | assignStmt
  | augAssignStmt | annAssignStmt | forStmt | whileStmt | ifStmt | withStmt
  | matchStmt | raiseStmt | tryStmt | assertStmt | importNames | importFrom
  | globalStmt | nonlocalStmt | exprStmt | passStmt | breakStmt | continueStmt
  | typeAlias | blank | boolOp | namedExpr | binaryExpr | unaryExpr
  | lambdaExpr | ifExpr | dictLiteral | setLiteral | listLiteral | tupleLiteral
  | listComp | setComp | dictComp | generatorExpr | awaitExpr | yieldExpr
  | yieldFromExpr | compare | call | formattedValue | joinedStr | constant
  | attributeAccess | subscript | starred | nameExpr | slice | matchValue
  | matchSingleton | matchSequence | matchMapping | matchClass | matchStar | matchAs
  | matchOr | parameters | parameter | keywordArgument | importAlias | withItem
  | matchCase | exceptHandler | comprehension | typeParam
  deriving DecidableEq, Repr

namespace NodeKind

/-- All kinds: modules, statements, expressions, patterns, and their parts. -/
def all : List NodeKind := [
  .wholeModule, .functionDef, .classDef, .returnStmt, .delStmt, .assignStmt, .augAssignStmt,
  .annAssignStmt, .forStmt, .whileStmt, .ifStmt, .withStmt, .matchStmt, .raiseStmt, .tryStmt,
  .assertStmt, .importNames, .importFrom, .globalStmt, .nonlocalStmt, .exprStmt, .passStmt,
  .breakStmt, .continueStmt, .typeAlias, .blank, .boolOp, .namedExpr, .binaryExpr, .unaryExpr,
  .lambdaExpr, .ifExpr, .dictLiteral, .setLiteral, .listLiteral, .tupleLiteral, .listComp,
  .setComp, .dictComp, .generatorExpr, .awaitExpr, .yieldExpr, .yieldFromExpr, .compare, .call,
  .formattedValue, .joinedStr, .constant, .attributeAccess, .subscript, .starred, .nameExpr,
  .slice, .matchValue, .matchSingleton, .matchSequence, .matchMapping, .matchClass, .matchStar,
  .matchAs, .matchOr, .parameters, .parameter, .keywordArgument, .importAlias, .withItem,
  .matchCase, .exceptHandler, .comprehension, .typeParam]

/-- The name of a kind. -/
def label : NodeKind → String
  | .wholeModule => "Module"
  | .functionDef => "FunctionDef"
  | .classDef => "ClassDef"
  | .returnStmt => "ReturnStmt"
  | .delStmt => "DelStmt"
  | .assignStmt => "AssignStmt"
  | .augAssignStmt => "AugAssignStmt"
  | .annAssignStmt => "AnnAssignStmt"
  | .forStmt => "ForStmt"
  | .whileStmt => "WhileStmt"
  | .ifStmt => "IfStmt"
  | .withStmt => "WithStmt"
  | .matchStmt => "MatchStmt"
  | .raiseStmt => "RaiseStmt"
  | .tryStmt => "TryStmt"
  | .assertStmt => "AssertStmt"
  | .importNames => "Import"
  | .importFrom => "ImportFrom"
  | .globalStmt => "GlobalStmt"
  | .nonlocalStmt => "NonlocalStmt"
  | .exprStmt => "ExprStmt"
  | .passStmt => "PassStmt"
  | .breakStmt => "BreakStmt"
  | .continueStmt => "ContinueStmt"
  | .typeAlias => "TypeAlias"
  | .blank => "Blank"
  | .boolOp => "BoolOp"
  | .namedExpr => "NamedExpr"
  | .binaryExpr => "BinaryExpr"
  | .unaryExpr => "UnaryExpr"
  | .lambdaExpr => "LambdaExpr"
  | .ifExpr => "IfExpr"
  | .dictLiteral => "DictLiteral"
  | .setLiteral => "SetLiteral"
  | .listLiteral => "ListLiteral"
  | .tupleLiteral => "TupleLiteral"
  | .listComp => "ListComp"
  | .setComp => "SetComp"
  | .dictComp => "DictComp"
  | .generatorExpr => "GeneratorExpr"
  | .awaitExpr => "AwaitExpr"
  | .yieldExpr => "YieldExpr"
  | .yieldFromExpr => "YieldFromExpr"
  | .compare => "Compare"
  | .call => "Call"
  | .formattedValue => "FormattedValue"
  | .joinedStr => "JoinedStr"
  | .constant => "Constant"
  | .attributeAccess => "Attribute"
  | .subscript => "Subscript"
  | .starred => "Starred"
  | .nameExpr => "Name"
  | .slice => "Slice"
  | .matchValue => "MatchValue"
  | .matchSingleton => "MatchSingleton"
  | .matchSequence => "MatchSequence"
  | .matchMapping => "MatchMapping"
  | .matchClass => "MatchClass"
  | .matchStar => "MatchStar"
  | .matchAs => "MatchAs"
  | .matchOr => "MatchOr"
  | .parameters => "Arguments"
  | .parameter => "Arg"
  | .keywordArgument => "Keyword"
  | .importAlias => "Alias"
  | .withItem => "WithItem"
  | .matchCase => "MatchCase"
  | .exceptHandler => "ExceptHandler"
  | .comprehension => "Comprehension"
  | .typeParam => "TypeParam"

end NodeKind


/-- A node's kind and span, and the outlines of its children. -/
inductive Outline where
  | node (kind : NodeKind) (span : Span) (children : List Outline)

/-- A node without children. -/
def Outline.leaf (kind : NodeKind) (span : Span) : Outline := .node kind span []

/-! ## Expressions -/

mutual

/-- The outline of an expression. -/
def Expr.outline : Expr → Outline
  | .node span shape => Expr.Shape.outline span shape

/-- The outline of a shape at a span. -/
def Expr.Shape.outline (span : Span) : Expr.Shape → Outline
  | .name .. => .leaf .nameExpr span
  | .constant _ => .leaf .constant span
  | .boolean _ values => .node .boolOp span (Expr.outlines values)
  | .named target value => .node .namedExpr span [target.outline, value.outline]
  | .binary _ left right => .node .binaryExpr span [left.outline, right.outline]
  | .unary _ operand => .node .unaryExpr span [operand.outline]
  | .lambda parameters body => .node .lambdaExpr span [parameters.outline, body.outline]
  | .conditional test body orelse =>
    .node .ifExpr span [body.outline, test.outline, orelse.outline]
  | .dict items => .node .dictLiteral span (DictItem.outlines items)
  | .set elements => .node .setLiteral span (Expr.outlines elements)
  | .list elements _ => .node .listLiteral span (Expr.outlines elements)
  | .tuple elements _ => .node .tupleLiteral span (Expr.outlines elements)
  | .listComp element clauses =>
    .node .listComp span (element.outline :: Comprehension.outlines clauses)
  | .setComp element clauses =>
    .node .setComp span (element.outline :: Comprehension.outlines clauses)
  | .dictComp key value clauses =>
    .node .dictComp span (key.outline :: value.outline :: Comprehension.outlines clauses)
  | .generator element clauses =>
    .node .generatorExpr span (element.outline :: Comprehension.outlines clauses)
  | .await value => .node .awaitExpr span [value.outline]
  | .yield value => .node .yieldExpr span (Expr.optionalOutline value)
  | .yieldFrom value => .node .yieldFromExpr span [value.outline]
  | .compare left rest => .node .compare span (left.outline :: Comparison.outlines rest)
  | .call callee arguments keywords =>
    .node .call span (callee.outline :: Expr.outlines arguments ++ Keyword.outlines keywords)
  | .field value _ spec =>
    .node .formattedValue span (value.outline :: FormatSpec.optionalOutline spec)
  | .fstring values => .node .joinedStr span (Expr.outlines values)
  | .attribute value _ _ => .node .attributeAccess span [value.outline]
  | .subscript value index _ => .node .subscript span [value.outline, index.outline]
  | .starred value _ => .node .starred span [value.outline]
  | .slice lower upper step =>
    .node .slice span
      (Expr.optionalOutline lower ++ Expr.optionalOutline upper ++ Expr.optionalOutline step)

/-- The outlines of a list of expressions. -/
def Expr.outlines : List Expr → List Outline
  | [] => []
  | e :: rest => e.outline :: Expr.outlines rest

/-- The outline of an expression that may be missing. -/
def Expr.optionalOutline : Option Expr → List Outline
  | none => []
  | some e => [e.outline]

/-- The outlines of dict items, each key before its value. -/
def DictItem.outlines : List DictItem → List Outline
  | [] => []
  | .entry key value :: rest => key.outline :: value.outline :: DictItem.outlines rest
  | .unpack value :: rest => value.outline :: DictItem.outlines rest

/-- The outlines of the operands of further comparisons. -/
def Comparison.outlines : List Comparison → List Outline
  | [] => []
  | .mk _ operand :: rest => operand.outline :: Comparison.outlines rest

/-- The outlines of the clauses of a comprehension. -/
def Comprehension.outlines : List Comprehension → List Outline
  | [] => []
  | .mk span target iterable conditions _ :: rest =>
    .node .comprehension span (target.outline :: iterable.outline :: Expr.outlines conditions) ::
      Comprehension.outlines rest

/-- The outlines of keyword arguments. -/
def Keyword.outlines : List Keyword → List Outline
  | [] => []
  | .mk span _ value :: rest =>
    .node .keywordArgument span [value.outline] :: Keyword.outlines rest

/-- The outline of a format specification, which is an f-string. -/
def FormatSpec.optionalOutline : Option FormatSpec → List Outline
  | none => []
  | some (.mk span values) => [.node .joinedStr span (Expr.outlines values)]

/-- The outline of a parameter. -/
def Parameter.outline : Parameter → Outline
  | .mk span _ hint => .node .parameter span (Expr.optionalOutline hint)

/-- The outlines of a list of parameters. -/
def Parameter.outlines : List Parameter → List Outline
  | [] => []
  | p :: rest => p.outline :: Parameter.outlines rest

/-- The outline of a parameter that may be missing. -/
def Parameter.optionalOutline : Option Parameter → List Outline
  | none => []
  | some p => [p.outline]

/-- The outlines of parameters that are given by keyword only. -/
def KeywordOnly.outlines : List KeywordOnly → List Outline
  | [] => []
  | .mk parameter _ :: rest => parameter.outline :: KeywordOnly.outlines rest

/-- The outlines of the defaults of such parameters. -/
def KeywordOnly.defaultOutlines : List KeywordOnly → List Outline
  | [] => []
  | .mk _ none :: rest => KeywordOnly.defaultOutlines rest
  | .mk _ (some default) :: rest => default.outline :: KeywordOnly.defaultOutlines rest

/-- The outline of the parameters of a function; it has no span of its own, and all defaults come
last. -/
def Parameters.outline : Parameters → Outline
  | .mk positionalOnly positional variadic keywordOnly variadicKeyword defaults =>
    .node .parameters .none
      (Parameter.outlines positionalOnly ++ Parameter.outlines positional ++
        Parameter.optionalOutline variadic ++ KeywordOnly.outlines keywordOnly ++
        Parameter.optionalOutline variadicKeyword ++ Expr.outlines defaults ++
        KeywordOnly.defaultOutlines keywordOnly)

end

/-! ## Patterns -/

mutual

/-- The outline of a pattern. -/
def Pattern.outline : Pattern → Outline
  | .node span shape => Pattern.Shape.outline span shape

/-- The outline of a pattern's shape at a span. -/
def Pattern.Shape.outline (span : Span) : Pattern.Shape → Outline
  | .value value => .node .matchValue span [value.outline]
  | .singleton _ => .leaf .matchSingleton span
  | .sequence patterns => .node .matchSequence span (Pattern.outlines patterns)
  | .mapping entries _ => .node .matchMapping span (Pattern.entryOutlines entries)
  | .record callee patterns attributes =>
    .node .matchClass span
      (callee.outline :: Pattern.outlines patterns ++ Pattern.attributeOutlines attributes)
  | .star _ => .leaf .matchStar span
  | .as pattern _ => .node .matchAs span (Pattern.optionalOutline pattern)
  | .or patterns => .node .matchOr span (Pattern.outlines patterns)

/-- The outlines of a list of patterns. -/
def Pattern.outlines : List Pattern → List Outline
  | [] => []
  | p :: rest => p.outline :: Pattern.outlines rest

/-- The outline of a pattern that may be missing. -/
def Pattern.optionalOutline : Option Pattern → List Outline
  | none => []
  | some p => [p.outline]

/-- The outlines of the entries of a mapping, each key before its pattern. -/
def Pattern.entryOutlines : List (Expr × Pattern) → List Outline
  | [] => []
  | (key, p) :: rest => key.outline :: p.outline :: Pattern.entryOutlines rest

/-- The outlines of the patterns of named attributes. -/
def Pattern.attributeOutlines : List (Bytes × Pattern) → List Outline
  | [] => []
  | (_, p) :: rest => p.outline :: Pattern.attributeOutlines rest

end

/-! ## Statements -/

/-- The outline of an imported name. -/
def Alias.outline (name : Alias) : Outline := .leaf .importAlias name.span

/-- The outline of an item of a with statement. -/
def WithItem.outline (item : WithItem) : Outline :=
  .node .withItem item.span (item.context.outline :: Expr.optionalOutline item.target)

/-- The outline of a type parameter. -/
def TypeParam.outline (param : TypeParam) : Outline :=
  .node .typeParam param.span
    (Expr.optionalOutline param.bound ++ Expr.optionalOutline param.default)

mutual

/-- The outline of a statement. -/
def Stmt.outline : Stmt → Outline
  | .node span shape => Stmt.Shape.outline span shape

/-- The outline of a statement's shape at a span. -/
def Stmt.Shape.outline (span : Span) : Stmt.Shape → Outline
  | .functionDef _ _ decorators typeParams parameters returns body =>
    .node .functionDef span
      (Expr.outlines decorators ++ typeParams.map TypeParam.outline ++ [parameters.outline] ++
        Expr.optionalOutline returns ++ Stmt.outlines body)
  | .classDef _ decorators typeParams bases keywords body =>
    .node .classDef span
      (Expr.outlines decorators ++ typeParams.map TypeParam.outline ++ Expr.outlines bases ++
        Keyword.outlines keywords ++ Stmt.outlines body)
  | .returnValue value => .node .returnStmt span (Expr.optionalOutline value)
  | .delete targets => .node .delStmt span (Expr.outlines targets)
  | .assign targets value => .node .assignStmt span (Expr.outlines targets ++ [value.outline])
  | .augmentedAssign target _ value => .node .augAssignStmt span [target.outline, value.outline]
  | .annotatedAssign target hint value _ =>
    .node .annAssignStmt span
      (target.outline :: hint.outline :: Expr.optionalOutline value)
  | .forLoop _ target iterable body orelse =>
    .node .forStmt span
      (target.outline :: iterable.outline :: Stmt.outlines body ++ Stmt.outlines orelse)
  | .whileLoop test body orelse =>
    .node .whileStmt span (test.outline :: Stmt.outlines body ++ Stmt.outlines orelse)
  | .conditional test body orelse =>
    .node .ifStmt span (test.outline :: Stmt.outlines body ++ Stmt.outlines orelse)
  | .withBlock _ items body =>
    .node .withStmt span (items.map WithItem.outline ++ Stmt.outlines body)
  | .matchBlock subject cases => .node .matchStmt span (subject.outline :: MatchCase.outlines cases)
  | .raise exception cause =>
    .node .raiseStmt span (Expr.optionalOutline exception ++ Expr.optionalOutline cause)
  | .tryBlock _ body handlers orelse finalbody =>
    .node .tryStmt span
      (Stmt.outlines body ++ ExceptHandler.outlines handlers ++ Stmt.outlines orelse ++
        Stmt.outlines finalbody)
  | .assertion test message =>
    .node .assertStmt span (test.outline :: Expr.optionalOutline message)
  | .importNames names => .node .importNames span (names.map Alias.outline)
  | .importFrom _ _ names => .node .importFrom span (names.map Alias.outline)
  | .globalNames _ => .leaf .globalStmt span
  | .nonlocalNames _ => .leaf .nonlocalStmt span
  | .expression value => .node .exprStmt span [value.outline]
  | .pass => .leaf .passStmt span
  | .breakLoop => .leaf .breakStmt span
  | .continueLoop => .leaf .continueStmt span
  | .typeAlias name typeParams value =>
    .node .typeAlias span
      (name.outline :: typeParams.map TypeParam.outline ++ [value.outline])
  | .blank _ => .leaf .blank span

/-- The outlines of a list of statements. -/
def Stmt.outlines : List Stmt → List Outline
  | [] => []
  | s :: rest => s.outline :: Stmt.outlines rest

/-- The outlines of the cases of a match statement. -/
def MatchCase.outlines : List MatchCase → List Outline
  | [] => []
  | .mk span pattern guard body :: rest =>
    .node .matchCase span
      (pattern.outline :: Expr.optionalOutline guard ++ Stmt.outlines body) ::
        MatchCase.outlines rest

/-- The outlines of the handlers of a try statement. -/
def ExceptHandler.outlines : List ExceptHandler → List Outline
  | [] => []
  | .mk span type _ body :: rest =>
    .node .exceptHandler span (Expr.optionalOutline type ++ Stmt.outlines body) ::
      ExceptHandler.outlines rest

end

/-- The outline of a module. -/
def Module.outline (m : Module) : Outline :=
  .node .wholeModule m.span
    (Stmt.outlines m.body ++ Expr.optionalOutline m.expression ++ Expr.outlines m.argumentTypes ++
      Expr.optionalOutline m.returns)

/-! ## Walks -/

/-- A node met on a walk, with its distance from the root. -/
structure Visit where
  depth : Nat
  kind : NodeKind
  span : Span
  deriving DecidableEq, Repr

mutual

/-- The nodes of an outline, each before its children. -/
def Outline.visits (depth : Nat) : Outline → List Visit
  | .node kind span children => ⟨depth, kind, span⟩ :: Outline.visitsAll (depth + 1) children

/-- The nodes of a list of outlines in order. -/
def Outline.visitsAll (depth : Nat) : List Outline → List Visit
  | [] => []
  | o :: rest => o.visits depth ++ Outline.visitsAll depth rest

end

mutual

/-- The number of nodes. -/
def Outline.size : Outline → Nat
  | .node _ _ children => 1 + Outline.sizeAll children

/-- The number of nodes of a list of outlines. -/
def Outline.sizeAll : List Outline → Nat
  | [] => 0
  | o :: rest => o.size + Outline.sizeAll rest

end

mutual

/-- The greatest distance of a node from the root. -/
def Outline.height : Outline → Nat
  | .node _ _ children => Outline.heightAll children

/-- The greatest height of a list of outlines, each one level below. -/
def Outline.heightAll : List Outline → Nat
  | [] => 0
  | o :: rest => max (o.height + 1) (Outline.heightAll rest)

end

/-- The size and the height of a tree. -/
structure Geometry where
  nodes : Nat
  maxDepth : Nat
  deriving DecidableEq, Repr

/-- The geometry of an outline. -/
def Outline.geometry (o : Outline) : Geometry := ⟨o.size, o.height⟩

end SyntaxTree
