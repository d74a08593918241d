import SyntaxTree.Tree.Dump

/-
# Trees without positions

The bare form of a tree keeps its kinds, its scalars and its children, and forgets where its nodes
stood in a source.  Two trees are equal apart from positions exactly if their bare forms are equal.
-/

namespace SyntaxTree

/-! ## Expressions -/

mutual

/-- An expression without positions. -/
@[simp] def Expr.bare : Expr → Expr
  | .node _ shape => .node .none shape.bare

/-- A shape whose parts have no positions. -/
@[simp] def Expr.Shape.bare : Expr.Shape → Expr.Shape
  | .name id context => .name id context
  | .constant value => .constant value
  | .boolean op values => .boolean op (Expr.bareAll values)
  | .named target value => .named target.bare value.bare
  | .binary op left right => .binary op left.bare right.bare
  | .unary op operand => .unary op operand.bare
  | .lambda parameters body => .lambda parameters.bare body.bare
  | .conditional test body orelse => .conditional test.bare body.bare orelse.bare
  | .dict items => .dict (DictItem.bareAll items)
  | .set elements => .set (Expr.bareAll elements)
  | .list elements context => .list (Expr.bareAll elements) context
  | .tuple elements context => .tuple (Expr.bareAll elements) context
  | .listComp element clauses => .listComp element.bare (Comprehension.bareAll clauses)
  | .setComp element clauses => .setComp element.bare (Comprehension.bareAll clauses)
  | .dictComp key value clauses =>
    .dictComp key.bare value.bare (Comprehension.bareAll clauses)
  | .generator element clauses => .generator element.bare (Comprehension.bareAll clauses)
  | .await value => .await value.bare
  | .yield value => .yield (Expr.bareOption value)
  | .yieldFrom value => .yieldFrom value.bare
  | .compare left rest => .compare left.bare (Comparison.bareAll rest)
  | .call callee arguments keywords =>
    .call callee.bare (Expr.bareAll arguments) (Keyword.bareAll keywords)
  | .field value conversion spec => .field value.bare conversion (FormatSpec.bareOption spec)
  | .fstring values => .fstring (Expr.bareAll values)
  | .attribute value name context => .attribute value.bare name context
  | .subscript value index context => .subscript value.bare index.bare context
  | .starred value context => .starred value.bare context
  | .slice lower upper step =>
    .slice (Expr.bareOption lower) (Expr.bareOption upper) (Expr.bareOption step)

/-- Expressions without positions. -/
@[simp] def Expr.bareAll : List Expr → List Expr
  | [] => []
  | e :: rest => e.bare :: Expr.bareAll rest

/-- An expression that may be missing, without positions. -/
@[simp] def Expr.bareOption : Option Expr → Option Expr
  | none => none
  | some e => some e.bare

/-- Dict items without positions. -/
@[simp] def DictItem.bareAll : List DictItem → List DictItem
  | [] => []
  | .entry key value :: rest => .entry key.bare value.bare :: DictItem.bareAll rest
  | .unpack value :: rest => .unpack value.bare :: DictItem.bareAll rest

/-- Comparisons without positions. -/
@[simp] def Comparison.bareAll : List Comparison → List Comparison
  | [] => []
  | .mk op operand :: rest => .mk op operand.bare :: Comparison.bareAll rest

/-- A clause of a comprehension without positions. -/
@[simp] def Comprehension.bare : Comprehension → Comprehension
  | .mk _ target iterable conditions isAsync =>
    .mk .none target.bare iterable.bare (Expr.bareAll conditions) isAsync

/-- Clauses without positions. -/
@[simp] def Comprehension.bareAll : List Comprehension → List Comprehension
  | [] => []
  | clause :: rest => clause.bare :: Comprehension.bareAll rest

/-- A keyword argument without positions. -/
@[simp] def Keyword.bare : Keyword → Keyword
  | .mk _ name value => .mk .none name value.bare

/-- Keyword arguments without positions. -/
@[simp] def Keyword.bareAll : List Keyword → List Keyword
  | [] => []
  | keyword :: rest => keyword.bare :: Keyword.bareAll rest

/-- A format specification without positions. -/
@[simp] def FormatSpec.bare : FormatSpec → FormatSpec
  | .mk _ values => .mk .none (Expr.bareAll values)

/-- A format specification that may be missing, without positions. -/
@[simp] def FormatSpec.bareOption : Option FormatSpec → Option FormatSpec
  | none => none
  | some spec => some spec.bare

/-- A parameter without positions. -/
@[simp] def Parameter.bare : Parameter → Parameter
  | .mk _ name hint => .mk .none name (Expr.bareOption hint)

/-- Parameters without positions. -/
@[simp] def Parameter.bareAll : List Parameter → List Parameter
  | [] => []
  | p :: rest => p.bare :: Parameter.bareAll rest

/-- A parameter that may be missing, without positions. -/
@[simp] def Parameter.bareOption : Option Parameter → Option Parameter
  | none => none
  | some p => some p.bare

/-- Keyword-only parameters without positions. -/
@[simp] def KeywordOnly.bareAll : List KeywordOnly → List KeywordOnly
  | [] => []
  | .mk parameter default :: rest =>
    .mk parameter.bare (Expr.bareOption default) :: KeywordOnly.bareAll rest

/-- The parameters of a function without positions. -/
@[simp] def Parameters.bare : Parameters → Parameters
  | .mk positionalOnly positional variadic keywordOnly variadicKeyword defaults =>
    .mk (Parameter.bareAll positionalOnly) (Parameter.bareAll positional)
      (Parameter.bareOption variadic) (KeywordOnly.bareAll keywordOnly)
      (Parameter.bareOption variadicKeyword) (Expr.bareAll defaults)

end

mutual

/-- Positions are forgotten once and for all. -/
theorem Expr.bare_bare : ∀ e : Expr, e.bare.bare = e.bare
  | .node _ shape => by rw [Expr.bare, Expr.bare, Expr.Shape.bare_bare shape]

theorem Expr.Shape.bare_bare : ∀ shape : Expr.Shape, shape.bare.bare = shape.bare
  | .name _ _ | .constant _ => rfl
  | .boolean _ es | .set es | .list es _ | .tuple es _ | .fstring es => by
    simp only [Expr.Shape.bare, Expr.bareAll_bareAll es]
  | .named l r | .binary _ l r | .subscript l r _ => by
    simp only [Expr.Shape.bare, Expr.bare_bare l, Expr.bare_bare r]
  | .unary _ e | .await e | .yieldFrom e | .attribute e _ _ | .starred e _ => by
    simp only [Expr.Shape.bare, Expr.bare_bare e]
  | .lambda parameters body => by
    simp only [Expr.Shape.bare, Parameters.bare_bare parameters, Expr.bare_bare body]
  | .conditional test body orelse => by
    simp only [Expr.Shape.bare, Expr.bare_bare test, Expr.bare_bare body, Expr.bare_bare orelse]
  | .dict items => by simp only [Expr.Shape.bare, DictItem.bareAll_bareAll items]
  | .listComp e clauses | .setComp e clauses | .generator e clauses => by
    simp only [Expr.Shape.bare, Expr.bare_bare e, Comprehension.bareAll_bareAll clauses]
  | .dictComp key value clauses => by
    simp only [Expr.Shape.bare, Expr.bare_bare key, Expr.bare_bare value,
      Comprehension.bareAll_bareAll clauses]
  | .yield value => by simp only [Expr.Shape.bare, Expr.bareOption_bareOption value]
  | .compare left rest => by
    simp only [Expr.Shape.bare, Expr.bare_bare left, Comparison.bareAll_bareAll rest]
  | .call callee es keywords => by
    simp only [Expr.Shape.bare, Expr.bare_bare callee, Expr.bareAll_bareAll es,
      Keyword.bareAll_bareAll keywords]
  | .field value _ spec => by
    simp only [Expr.Shape.bare, Expr.bare_bare value, FormatSpec.bareOption_bareOption spec]
  | .slice lower upper step => by
    simp only [Expr.Shape.bare, Expr.bareOption_bareOption lower, Expr.bareOption_bareOption upper,
      Expr.bareOption_bareOption step]

theorem Expr.bareAll_bareAll :
    ∀ es : List Expr, Expr.bareAll (Expr.bareAll es) = Expr.bareAll es
  | [] => rfl
  | e :: es => by rw [Expr.bareAll, Expr.bareAll, Expr.bare_bare e, Expr.bareAll_bareAll es]

theorem Expr.bareOption_bareOption :
    ∀ e : Option Expr, Expr.bareOption (Expr.bareOption e) = Expr.bareOption e
  | none => rfl
  | some e => by rw [Expr.bareOption, Expr.bareOption, Expr.bare_bare e]

theorem DictItem.bareAll_bareAll :
    ∀ items : List DictItem, DictItem.bareAll (DictItem.bareAll items) = DictItem.bareAll items
  | [] => rfl
  | .entry key value :: items => by
    rw [DictItem.bareAll, DictItem.bareAll, Expr.bare_bare key, Expr.bare_bare value,
      DictItem.bareAll_bareAll items]
  | .unpack value :: items => by
    rw [DictItem.bareAll, DictItem.bareAll, Expr.bare_bare value, DictItem.bareAll_bareAll items]

theorem Comparison.bareAll_bareAll :
    ∀ rest : List Comparison, Comparison.bareAll (Comparison.bareAll rest) = Comparison.bareAll rest
  | [] => rfl
  | .mk _ operand :: rest => by
    rw [Comparison.bareAll, Comparison.bareAll, Expr.bare_bare operand,
      Comparison.bareAll_bareAll rest]

theorem Comprehension.bareAll_bareAll : ∀ clauses : List Comprehension,
    Comprehension.bareAll (Comprehension.bareAll clauses) = Comprehension.bareAll clauses
  | [] => rfl
  | .mk _ target iterable conditions _ :: clauses => by
    rw [Comprehension.bareAll, Comprehension.bareAll, Comprehension.bare, Comprehension.bare,
      Expr.bare_bare target, Expr.bare_bare iterable, Expr.bareAll_bareAll conditions,
      Comprehension.bareAll_bareAll clauses]

theorem Keyword.bareAll_bareAll :
    ∀ keywords : List Keyword, Keyword.bareAll (Keyword.bareAll keywords) = Keyword.bareAll keywords
  | [] => rfl
  | .mk _ _ value :: keywords => by
    rw [Keyword.bareAll, Keyword.bareAll, Keyword.bare, Keyword.bare, Expr.bare_bare value,
      Keyword.bareAll_bareAll keywords]

theorem FormatSpec.bareOption_bareOption : ∀ spec : Option FormatSpec,
    FormatSpec.bareOption (FormatSpec.bareOption spec) = FormatSpec.bareOption spec
  | none => rfl
  | some (.mk _ values) => by
    rw [FormatSpec.bareOption, FormatSpec.bareOption, FormatSpec.bare, FormatSpec.bare,
      Expr.bareAll_bareAll values]

theorem Parameter.bare_bare : ∀ p : Parameter, p.bare.bare = p.bare
  | .mk _ _ hint => by rw [Parameter.bare, Parameter.bare, Expr.bareOption_bareOption hint]

theorem Parameter.bareAll_bareAll :
    ∀ ps : List Parameter, Parameter.bareAll (Parameter.bareAll ps) = Parameter.bareAll ps
  | [] => rfl
  | p :: ps => by
    rw [Parameter.bareAll, Parameter.bareAll, Parameter.bare_bare p, Parameter.bareAll_bareAll ps]

theorem Parameter.bareOption_bareOption :
    ∀ p : Option Parameter, Parameter.bareOption (Parameter.bareOption p) = Parameter.bareOption p
  | none => rfl
  | some p => by rw [Parameter.bareOption, Parameter.bareOption, Parameter.bare_bare p]

theorem KeywordOnly.bareAll_bareAll :
    ∀ ks : List KeywordOnly, KeywordOnly.bareAll (KeywordOnly.bareAll ks) = KeywordOnly.bareAll ks
  | [] => rfl
  | .mk parameter default :: ks => by
    rw [KeywordOnly.bareAll, KeywordOnly.bareAll, Parameter.bare_bare parameter,
      Expr.bareOption_bareOption default, KeywordOnly.bareAll_bareAll ks]

theorem Parameters.bare_bare : ∀ parameters : Parameters, parameters.bare.bare = parameters.bare
  | .mk positionalOnly positional variadic keywordOnly variadicKeyword defaults => by
    rw [Parameters.bare, Parameters.bare, Parameter.bareAll_bareAll positionalOnly,
      Parameter.bareAll_bareAll positional, Parameter.bareOption_bareOption variadic,
      KeywordOnly.bareAll_bareAll keywordOnly, Parameter.bareOption_bareOption variadicKeyword,
      Expr.bareAll_bareAll defaults]

end

theorem Expr.bareAll_eq_map (es : List Expr) : Expr.bareAll es = es.map Expr.bare := by
  induction es with
  | nil => rfl
  | cons e es ih => rw [Expr.bareAll, ih, List.map_cons]

theorem Keyword.bareAll_eq_map (ks : List Keyword) : Keyword.bareAll ks = ks.map Keyword.bare := by
  induction ks with
  | nil => rfl
  | cons k ks ih => rw [Keyword.bareAll, ih, List.map_cons]

theorem Parameter.bareAll_eq_map (ps : List Parameter) :
    Parameter.bareAll ps = ps.map Parameter.bare := by
  induction ps with
  | nil => rfl
  | cons p ps ih => rw [Parameter.bareAll, ih, List.map_cons]

theorem Parameter.bareOption_eq_map (p : Option Parameter) :
    Parameter.bareOption p = p.map Parameter.bare := by
  cases p <;> rfl

/-- A keyword-only parameter without positions. -/
def KeywordOnly.bare : KeywordOnly → KeywordOnly
  | .mk parameter default => .mk parameter.bare (Expr.bareOption default)

theorem KeywordOnly.bareAll_eq_map (ks : List KeywordOnly) :
    KeywordOnly.bareAll ks = ks.map KeywordOnly.bare := by
  induction ks with
  | nil => rfl
  | cons k ks ih =>
    obtain ⟨parameter, default⟩ := k
    rw [KeywordOnly.bareAll, ih, List.map_cons, KeywordOnly.bare]

/-! ## Patterns -/

mutual

/-- A pattern without positions. -/
@[simp] def Pattern.bare : Pattern → Pattern
  | .node _ shape => .node .none shape.bare

/-- A pattern's shape whose parts have no positions. -/
@[simp] def Pattern.Shape.bare : Pattern.Shape → Pattern.Shape
  | .value value => .value value.bare
  | .singleton value => .singleton value
  | .sequence patterns => .sequence (Pattern.bareAll patterns)
  | .mapping entries rest => .mapping (Pattern.bareEntries entries) rest
  | .record callee patterns attributes =>
    .record callee.bare (Pattern.bareAll patterns) (Pattern.bareAttributes attributes)
  | .star name => .star name
  | .as pattern name => .as (Pattern.bareOption pattern) name
  | .or patterns => .or (Pattern.bareAll patterns)

/-- Patterns without positions. -/
@[simp] def Pattern.bareAll : List Pattern → List Pattern
  | [] => []
  | p :: rest => p.bare :: Pattern.bareAll rest

/-- A pattern that may be missing, without positions. -/
@[simp] def Pattern.bareOption : Option Pattern → Option Pattern
  | none => none
  | some p => some p.bare

/-- The entries of a mapping pattern without positions. -/
@[simp] def Pattern.bareEntries : List (Expr × Pattern) → List (Expr × Pattern)
  | [] => []
  | (key, p) :: rest => (key.bare, p.bare) :: Pattern.bareEntries rest

/-- The keyword patterns of a class without positions. -/
@[simp] def Pattern.bareAttributes : List (Bytes × Pattern) → List (Bytes × Pattern)
  | [] => []
  | (name, p) :: rest => (name, p.bare) :: Pattern.bareAttributes rest

end

/-! ## Statements -/

/-- An imported name without positions. -/
@[simp] def Alias.bare (a : Alias) : Alias := { a with span := .none }

/-- An item of a with statement without positions. -/
@[simp] def WithItem.bare (item : WithItem) : WithItem :=
  ⟨.none, item.context.bare, Expr.bareOption item.target⟩

/-- A type parameter without positions. -/
@[simp] def TypeParam.bare (p : TypeParam) : TypeParam :=
  ⟨.none, p.kind, p.name, Expr.bareOption p.bound, Expr.bareOption p.default⟩

mutual

/-- A statement without positions. -/
@[simp] def Stmt.bare : Stmt → Stmt
  | .node _ shape => .node .none shape.bare

/-- A statement's shape whose parts have no positions. -/
@[simp] def Stmt.Shape.bare : Stmt.Shape → Stmt.Shape
  | .functionDef isAsync name decorators typeParams parameters returns body =>
    .functionDef isAsync name (Expr.bareAll decorators) (typeParams.map TypeParam.bare)
      parameters.bare (Expr.bareOption returns) (Stmt.bareAll body)
  | .classDef name decorators typeParams bases keywords body =>
    .classDef name (Expr.bareAll decorators) (typeParams.map TypeParam.bare) (Expr.bareAll bases)
      (Keyword.bareAll keywords) (Stmt.bareAll body)
  | .returnValue value => .returnValue (Expr.bareOption value)
  | .delete targets => .delete (Expr.bareAll targets)
  | .assign targets value => .assign (Expr.bareAll targets) value.bare
  | .augmentedAssign target op value => .augmentedAssign target.bare op value.bare
  | .annotatedAssign target hint value simple =>
    .annotatedAssign target.bare hint.bare (Expr.bareOption value) simple
  | .forLoop isAsync target iterable body orelse =>
    .forLoop isAsync target.bare iterable.bare (Stmt.bareAll body) (Stmt.bareAll orelse)
  | .whileLoop test body orelse =>
    .whileLoop test.bare (Stmt.bareAll body) (Stmt.bareAll orelse)
  | .conditional test body orelse =>
    .conditional test.bare (Stmt.bareAll body) (Stmt.bareAll orelse)
  | .withBlock isAsync items body =>
    .withBlock isAsync (items.map WithItem.bare) (Stmt.bareAll body)
  | .matchBlock subject cases => .matchBlock subject.bare (MatchCase.bareAll cases)
  | .raise exception cause => .raise (Expr.bareOption exception) (Expr.bareOption cause)
  | .tryBlock isStar body handlers orelse finalbody =>
    .tryBlock isStar (Stmt.bareAll body) (ExceptHandler.bareAll handlers) (Stmt.bareAll orelse)
      (Stmt.bareAll finalbody)
  | .assertion test message => .assertion test.bare (Expr.bareOption message)
  | .importNames names => .importNames (names.map Alias.bare)
  | .importFrom level source names => .importFrom level source (names.map Alias.bare)
  | .globalNames names => .globalNames names
  | .nonlocalNames names => .nonlocalNames names
  | .expression value => .expression value.bare
  | .pass => .pass
  | .breakLoop => .breakLoop
  | .continueLoop => .continueLoop
  | .typeAlias name typeParams value =>
    .typeAlias name.bare (typeParams.map TypeParam.bare) value.bare
  | .blank count => .blank count

/-- Statements without positions. -/
@[simp] def Stmt.bareAll : List Stmt → List Stmt
  | [] => []
  | s :: rest => s.bare :: Stmt.bareAll rest

/-- A case of a match statement without positions. -/
@[simp] def MatchCase.bare : MatchCase → MatchCase
  | .mk _ pattern guard body =>
    .mk .none pattern.bare (Expr.bareOption guard) (Stmt.bareAll body)

/-- Cases without positions. -/
@[simp] def MatchCase.bareAll : List MatchCase → List MatchCase
  | [] => []
  | c :: rest => c.bare :: MatchCase.bareAll rest

/-- A handler of a try statement without positions. -/
@[simp] def ExceptHandler.bare : ExceptHandler → ExceptHandler
  | .mk _ type name body => .mk .none (Expr.bareOption type) name (Stmt.bareAll body)

/-- Handlers without positions. -/
@[simp] def ExceptHandler.bareAll : List ExceptHandler → List ExceptHandler
  | [] => []
  | handler :: rest => handler.bare :: ExceptHandler.bareAll rest

end

/-! ## Modules and nodes -/

/-- A module without positions. -/
@[simp] def Module.bare (m : Module) : Module :=
  ⟨.none, m.mode, Stmt.bareAll m.body, Expr.bareOption m.expression, Expr.bareAll m.argumentTypes,
    Expr.bareOption m.returns⟩

/-- A node without positions. -/
@[simp] def Node.bare : Node → Node
  | module m => module m.bare
  | stmt s => stmt s.bare
  | expr e => expr e.bare
  | pattern p => pattern p.bare
  | parameters p => parameters p.bare
  | parameter p => parameter p.bare
  | keyword k => keyword k.bare
  | importAlias a => importAlias a.bare
  | withItem item => withItem item.bare
  | matchCase c => matchCase c.bare
  | exceptHandler h => exceptHandler h.bare
  | comprehension c => comprehension c.bare
  | typeParam p => typeParam p.bare

end SyntaxTree
