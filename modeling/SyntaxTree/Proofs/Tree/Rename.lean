import SyntaxTree.Grammar.Phrase

/-
# Renamed trees

A renaming gives every name of a tree another spelling and leaves all else as it is, positions
included.  The dotted name of a module is renamed part by part.  Renaming commutes with all that a
reading asks of a tree.
-/

namespace SyntaxTree

/-! ## Tokens -/

/-- A token whose text is renamed if it is an identifier. -/
def Token.rename (σ : Bytes → Bytes) (t : Token) : Token :=
  if t.kind = .identifier then { t with text := σ t.text } else t

namespace Token

variable (σ : Bytes → Bytes)

@[simp]
theorem kind_rename (t : Token) : (t.rename σ).kind = t.kind := by
  unfold rename
  split <;> rfl

@[simp]
theorem start_rename (t : Token) : (t.rename σ).start = t.start := by
  unfold rename
  split <;> rfl

@[simp]
theorem stop_rename (t : Token) : (t.rename σ).stop = t.stop := by
  unfold rename
  split <;> rfl

@[simp]
theorem span_rename (t : Token) : (t.rename σ).span = t.span := by
  rw [span, span, start_rename, stop_rename]

variable {σ}

theorem text_rename_of_identifier {t : Token} (h : t.kind = .identifier) :
    (t.rename σ).text = σ t.text := by
  rw [rename, if_pos h]

/-- Other tokens than identifiers stay as they are. -/
theorem rename_of_ne {t : Token} (h : t.kind ≠ .identifier) : t.rename σ = t := by
  rw [rename, if_neg h]

end Token

/-! ## Names -/

/-- The dotted name of a module with its parts renamed. -/
def renameDotted (σ : Bytes → Bytes) (name : Bytes) : Bytes :=
  [ascii '.'].intercalate ((name.splitOn (ascii '.')).map σ)

/-- The parts of a dotted name are what stands between its dots. -/
theorem renameDotted_intercalate {σ : Bytes → Bytes} {parts : List Bytes} (hne : parts ≠ [])
    (hparts : ∀ part ∈ parts, ascii '.' ∉ part) :
    renameDotted σ ([ascii '.'].intercalate parts) = [ascii '.'].intercalate (parts.map σ) := by
  rw [renameDotted, List.splitOn_intercalate (ascii '.') hparts hne]

/-! ## Expressions -/

mutual

/-- An expression with its names renamed. -/
@[simp] def Expr.rename (σ : Bytes → Bytes) : Expr → Expr
  | .node span shape => .node span (shape.rename σ)

/-- A shape with its names renamed. -/
@[simp] def Expr.Shape.rename (σ : Bytes → Bytes) : Expr.Shape → Expr.Shape
  | .name id context => .name (σ id) context
  | .constant value => .constant value
  | .boolean op values => .boolean op (Expr.renameAll σ values)
  | .named target value => .named (target.rename σ) (value.rename σ)
  | .binary op left right => .binary op (left.rename σ) (right.rename σ)
  | .unary op operand => .unary op (operand.rename σ)
  | .lambda parameters body => .lambda (parameters.rename σ) (body.rename σ)
  | .conditional test body orelse =>
    .conditional (test.rename σ) (body.rename σ) (orelse.rename σ)
  | .dict items => .dict (DictItem.renameAll σ items)
  | .set elements => .set (Expr.renameAll σ elements)
  | .list elements context => .list (Expr.renameAll σ elements) context
  | .tuple elements context => .tuple (Expr.renameAll σ elements) context
  | .listComp element clauses => .listComp (element.rename σ) (Comprehension.renameAll σ clauses)
  | .setComp element clauses => .setComp (element.rename σ) (Comprehension.renameAll σ clauses)
  | .dictComp key value clauses =>
    .dictComp (key.rename σ) (value.rename σ) (Comprehension.renameAll σ clauses)
  | .generator element clauses => .generator (element.rename σ) (Comprehension.renameAll σ clauses)
  | .await value => .await (value.rename σ)
  | .yield value => .yield (Expr.renameOption σ value)
  | .yieldFrom value => .yieldFrom (value.rename σ)
  | .compare left rest => .compare (left.rename σ) (Comparison.renameAll σ rest)
  | .call callee arguments keywords =>
    .call (callee.rename σ) (Expr.renameAll σ arguments) (Keyword.renameAll σ keywords)
  | .field value conversion spec =>
    .field (value.rename σ) conversion (FormatSpec.renameOption σ spec)
  | .fstring values => .fstring (Expr.renameAll σ values)
  | .attribute value name context => .attribute (value.rename σ) (σ name) context
  | .subscript value index context => .subscript (value.rename σ) (index.rename σ) context
  | .starred value context => .starred (value.rename σ) context
  | .slice lower upper step =>
    .slice (Expr.renameOption σ lower) (Expr.renameOption σ upper) (Expr.renameOption σ step)

/-- Expressions with their names renamed. -/
def Expr.renameAll (σ : Bytes → Bytes) : List Expr → List Expr
  | [] => []
  | e :: rest => e.rename σ :: Expr.renameAll σ rest

/-- An expression that may be missing, with its names renamed. -/
def Expr.renameOption (σ : Bytes → Bytes) : Option Expr → Option Expr
  | none => none
  | some e => some (e.rename σ)

/-- An item of a dict with its names renamed. -/
@[simp] def DictItem.rename (σ : Bytes → Bytes) : DictItem → DictItem
  | .entry key value => .entry (key.rename σ) (value.rename σ)
  | .unpack value => .unpack (value.rename σ)

/-- Dict items with their names renamed. -/
def DictItem.renameAll (σ : Bytes → Bytes) : List DictItem → List DictItem
  | [] => []
  | item :: rest => item.rename σ :: DictItem.renameAll σ rest

/-- A comparison with its names renamed. -/
@[simp] def Comparison.rename (σ : Bytes → Bytes) : Comparison → Comparison
  | .mk op operand => .mk op (operand.rename σ)

/-- Comparisons with their names renamed. -/
def Comparison.renameAll (σ : Bytes → Bytes) : List Comparison → List Comparison
  | [] => []
  | c :: rest => c.rename σ :: Comparison.renameAll σ rest

/-- A clause of a comprehension with its names renamed. -/
@[simp] def Comprehension.rename (σ : Bytes → Bytes) : Comprehension → Comprehension
  | .mk span target iterable conditions isAsync =>
    .mk span (target.rename σ) (iterable.rename σ) (Expr.renameAll σ conditions) isAsync

/-- Clauses with their names renamed. -/
def Comprehension.renameAll (σ : Bytes → Bytes) : List Comprehension → List Comprehension
  | [] => []
  | clause :: rest => clause.rename σ :: Comprehension.renameAll σ rest

/-- A keyword argument with its names renamed. -/
@[simp] def Keyword.rename (σ : Bytes → Bytes) : Keyword → Keyword
  | .mk span name value => .mk span (name.map σ) (value.rename σ)

/-- Keyword arguments with their names renamed. -/
def Keyword.renameAll (σ : Bytes → Bytes) : List Keyword → List Keyword
  | [] => []
  | keyword :: rest => keyword.rename σ :: Keyword.renameAll σ rest

/-- A format specification with its names renamed. -/
@[simp] def FormatSpec.rename (σ : Bytes → Bytes) : FormatSpec → FormatSpec
  | .mk span values => .mk span (Expr.renameAll σ values)

/-- A format specification that may be missing, with its names renamed. -/
@[simp] def FormatSpec.renameOption (σ : Bytes → Bytes) : Option FormatSpec → Option FormatSpec
  | none => none
  | some spec => some (spec.rename σ)

/-- A parameter with its names renamed. -/
@[simp] def Parameter.rename (σ : Bytes → Bytes) : Parameter → Parameter
  | .mk span name hint => .mk span (σ name) (Expr.renameOption σ hint)

/-- Parameters with their names renamed. -/
def Parameter.renameAll (σ : Bytes → Bytes) : List Parameter → List Parameter
  | [] => []
  | p :: rest => p.rename σ :: Parameter.renameAll σ rest

/-- A parameter that may be missing, with its names renamed. -/
def Parameter.renameOption (σ : Bytes → Bytes) : Option Parameter → Option Parameter
  | none => none
  | some p => some (p.rename σ)

/-- A keyword-only parameter with its names renamed. -/
@[simp] def KeywordOnly.rename (σ : Bytes → Bytes) : KeywordOnly → KeywordOnly
  | .mk parameter default => .mk (parameter.rename σ) (Expr.renameOption σ default)

/-- Keyword-only parameters with their names renamed. -/
def KeywordOnly.renameAll (σ : Bytes → Bytes) : List KeywordOnly → List KeywordOnly
  | [] => []
  | p :: rest => p.rename σ :: KeywordOnly.renameAll σ rest

/-- The parameters of a function with their names renamed. -/
@[simp] def Parameters.rename (σ : Bytes → Bytes) : Parameters → Parameters
  | .mk positionalOnly positional variadic keywordOnly variadicKeyword defaults =>
    .mk (Parameter.renameAll σ positionalOnly) (Parameter.renameAll σ positional)
      (Parameter.renameOption σ variadic) (KeywordOnly.renameAll σ keywordOnly)
      (Parameter.renameOption σ variadicKeyword) (Expr.renameAll σ defaults)

end

/-! ## Patterns -/

mutual

/-- A pattern with its names renamed. -/
def Pattern.rename (σ : Bytes → Bytes) : Pattern → Pattern
  | .node span shape => .node span (shape.rename σ)

/-- A pattern's shape with its names renamed. -/
def Pattern.Shape.rename (σ : Bytes → Bytes) : Pattern.Shape → Pattern.Shape
  | .value value => .value (value.rename σ)
  | .singleton value => .singleton value
  | .sequence patterns => .sequence (Pattern.renameAll σ patterns)
  | .mapping entries rest => .mapping (Pattern.renameEntries σ entries) (rest.map σ)
  | .record callee patterns attributes =>
    .record (callee.rename σ) (Pattern.renameAll σ patterns) (Pattern.renameAttributes σ attributes)
  | .star name => .star (name.map σ)
  | .as pattern name => .as (Pattern.renameOption σ pattern) (name.map σ)
  | .or patterns => .or (Pattern.renameAll σ patterns)

/-- Patterns with their names renamed. -/
def Pattern.renameAll (σ : Bytes → Bytes) : List Pattern → List Pattern
  | [] => []
  | p :: rest => p.rename σ :: Pattern.renameAll σ rest

/-- A pattern that may be missing, with its names renamed. -/
def Pattern.renameOption (σ : Bytes → Bytes) : Option Pattern → Option Pattern
  | none => none
  | some p => some (p.rename σ)

/-- The entries of a mapping pattern with their names renamed. -/
def Pattern.renameEntries (σ : Bytes → Bytes) : List (Expr × Pattern) → List (Expr × Pattern)
  | [] => []
  | (key, p) :: rest => (key.rename σ, p.rename σ) :: Pattern.renameEntries σ rest

/-- The keyword patterns of a class with their names renamed. -/
def Pattern.renameAttributes (σ : Bytes → Bytes) : List (Bytes × Pattern) → List (Bytes × Pattern)
  | [] => []
  | (name, p) :: rest => (σ name, p.rename σ) :: Pattern.renameAttributes σ rest

end

/-! ## Statements -/

/-- An imported module with its names renamed. -/
def Alias.renameModule (σ : Bytes → Bytes) (a : Alias) : Alias :=
  { a with name := renameDotted σ a.name, renamed := a.renamed.map σ }

/-- A name that is imported from a module, renamed. -/
def Alias.renameMember (σ : Bytes → Bytes) (a : Alias) : Alias :=
  { a with name := σ a.name, renamed := a.renamed.map σ }

/-- An item of a with statement with its names renamed. -/
def WithItem.rename (σ : Bytes → Bytes) (item : WithItem) : WithItem :=
  { item with context := item.context.rename σ, target := item.target.map (Expr.rename σ) }

/-- A type parameter with its names renamed. -/
def TypeParam.rename (σ : Bytes → Bytes) (p : TypeParam) : TypeParam :=
  { p with
    name := σ p.name, bound := p.bound.map (Expr.rename σ), default :=
    p.default.map (Expr.rename σ) }

mutual

/-- A statement with its names renamed. -/
@[simp] def Stmt.rename (σ : Bytes → Bytes) : Stmt → Stmt
  | .node span shape => .node span (shape.rename σ)

/-- A statement's shape with its names renamed. -/
@[simp] def Stmt.Shape.rename (σ : Bytes → Bytes) : Stmt.Shape → Stmt.Shape
  | .functionDef isAsync name decorators typeParams parameters returns body =>
    .functionDef isAsync (σ name) (decorators.map (Expr.rename σ))
      (typeParams.map (TypeParam.rename σ))
      (parameters.rename σ) (returns.map (Expr.rename σ)) (Stmt.renameAll σ body)
  | .classDef name decorators typeParams bases keywords body =>
    .classDef (σ name) (decorators.map (Expr.rename σ)) (typeParams.map (TypeParam.rename σ))
      (bases.map (Expr.rename σ)) (keywords.map (Keyword.rename σ)) (Stmt.renameAll σ body)
  | .returnValue value => .returnValue (value.map (Expr.rename σ))
  | .delete targets => .delete (targets.map (Expr.rename σ))
  | .assign targets value => .assign (targets.map (Expr.rename σ)) (value.rename σ)
  | .augmentedAssign target op value => .augmentedAssign (target.rename σ) op (value.rename σ)
  | .annotatedAssign target hint value simple =>
    .annotatedAssign (target.rename σ) (hint.rename σ) (value.map (Expr.rename σ)) simple
  | .forLoop isAsync target iterable body orelse =>
    .forLoop isAsync (target.rename σ) (iterable.rename σ) (Stmt.renameAll σ body)
      (Stmt.renameAll σ orelse)
  | .whileLoop test body orelse =>
    .whileLoop (test.rename σ) (Stmt.renameAll σ body) (Stmt.renameAll σ orelse)
  | .conditional test body orelse =>
    .conditional (test.rename σ) (Stmt.renameAll σ body) (Stmt.renameAll σ orelse)
  | .withBlock isAsync items body =>
    .withBlock isAsync (items.map (WithItem.rename σ)) (Stmt.renameAll σ body)
  | .matchBlock subject cases => .matchBlock (subject.rename σ) (MatchCase.renameAll σ cases)
  | .raise exception cause =>
    .raise (exception.map (Expr.rename σ)) (cause.map (Expr.rename σ))
  | .tryBlock isStar body handlers orelse finalbody =>
    .tryBlock isStar (Stmt.renameAll σ body) (ExceptHandler.renameAll σ handlers)
      (Stmt.renameAll σ orelse) (Stmt.renameAll σ finalbody)
  | .assertion test message => .assertion (test.rename σ) (message.map (Expr.rename σ))
  | .importNames names => .importNames (names.map (Alias.renameModule σ))
  | .importFrom level source names =>
    .importFrom level (source.map (renameDotted σ)) (names.map (Alias.renameMember σ))
  | .globalNames names => .globalNames (names.map σ)
  | .nonlocalNames names => .nonlocalNames (names.map σ)
  | .expression value => .expression (value.rename σ)
  | .pass => .pass
  | .breakLoop => .breakLoop
  | .continueLoop => .continueLoop
  | .typeAlias name typeParams value =>
    .typeAlias (name.rename σ) (typeParams.map (TypeParam.rename σ)) (value.rename σ)
  | .blank count => .blank count

/-- Statements with their names renamed. -/
def Stmt.renameAll (σ : Bytes → Bytes) : List Stmt → List Stmt
  | [] => []
  | s :: rest => s.rename σ :: Stmt.renameAll σ rest

/-- A case of a match statement with its names renamed. -/
def MatchCase.rename (σ : Bytes → Bytes) : MatchCase → MatchCase
  | .mk span pattern guard body =>
    .mk span (pattern.rename σ) (guard.map (Expr.rename σ)) (Stmt.renameAll σ body)

/-- Cases with their names renamed. -/
def MatchCase.renameAll (σ : Bytes → Bytes) : List MatchCase → List MatchCase
  | [] => []
  | c :: rest => c.rename σ :: MatchCase.renameAll σ rest

/-- A handler of a try statement with its names renamed. -/
@[simp] def ExceptHandler.rename (σ : Bytes → Bytes) : ExceptHandler → ExceptHandler
  | .mk span type name body =>
    .mk span (type.map (Expr.rename σ)) (name.map σ) (Stmt.renameAll σ body)

/-- Handlers with their names renamed. -/
def ExceptHandler.renameAll (σ : Bytes → Bytes) : List ExceptHandler → List ExceptHandler
  | [] => []
  | handler :: rest => handler.rename σ :: ExceptHandler.renameAll σ rest

end

/-- A module with its names renamed. -/
def Module.rename (σ : Bytes → Bytes) (m : Module) : Module :=
  { m with
    body := Stmt.renameAll σ m.body, expression := m.expression.map (Expr.rename σ)
    argumentTypes := m.argumentTypes.map (Expr.rename σ), returns := m.returns.map (Expr.rename σ) }

/-! ## Lists of renamed parts -/

section Lists

variable (σ : Bytes → Bytes)

@[simp]
theorem Expr.renameAll_eq_map (es : List Expr) : renameAll σ es = es.map (rename σ) := by
  induction es with
  | nil => rfl
  | cons e es ih => rw [renameAll, ih, List.map_cons]

@[simp]
theorem Expr.renameOption_eq_map (e : Option Expr) : renameOption σ e = e.map (rename σ) := by
  cases e <;> rfl

@[simp]
theorem DictItem.renameAll_eq_map (items : List DictItem) :
    renameAll σ items = items.map (rename σ) := by
  induction items with
  | nil => rfl
  | cons item items ih => rw [renameAll, ih, List.map_cons]

@[simp]
theorem Comparison.renameAll_eq_map (cs : List Comparison) :
    renameAll σ cs = cs.map (rename σ) := by
  induction cs with
  | nil => rfl
  | cons c cs ih => rw [renameAll, ih, List.map_cons]

@[simp]
theorem Comprehension.renameAll_eq_map (clauses : List Comprehension) :
    renameAll σ clauses = clauses.map (rename σ) := by
  induction clauses with
  | nil => rfl
  | cons clause clauses ih => rw [renameAll, ih, List.map_cons]

@[simp]
theorem Keyword.renameAll_eq_map (keywords : List Keyword) :
    renameAll σ keywords = keywords.map (rename σ) := by
  induction keywords with
  | nil => rfl
  | cons keyword keywords ih => rw [renameAll, ih, List.map_cons]

@[simp]
theorem Parameter.renameAll_eq_map (ps : List Parameter) :
    renameAll σ ps = ps.map (rename σ) := by
  induction ps with
  | nil => rfl
  | cons p ps ih => rw [renameAll, ih, List.map_cons]

@[simp]
theorem Parameter.renameOption_eq_map (p : Option Parameter) :
    renameOption σ p = p.map (rename σ) := by
  cases p <;> rfl

@[simp]
theorem KeywordOnly.renameAll_eq_map (ps : List KeywordOnly) :
    renameAll σ ps = ps.map (rename σ) := by
  induction ps with
  | nil => rfl
  | cons p ps ih => rw [renameAll, ih, List.map_cons]

@[simp]
theorem Stmt.renameAll_eq_map (stmts : List Stmt) : renameAll σ stmts = stmts.map (rename σ) := by
  induction stmts with
  | nil => rfl
  | cons s stmts ih => rw [renameAll, ih, List.map_cons]

@[simp]
theorem ExceptHandler.renameAll_eq_map (handlers : List ExceptHandler) :
    renameAll σ handlers = handlers.map (rename σ) := by
  induction handlers with
  | nil => rfl
  | cons handler handlers ih => rw [renameAll, ih, List.map_cons]

end Lists

/-! ## What a reading asks of a tree -/

namespace Expr

variable (σ : Bytes → Bytes)

@[simp]
theorem span_rename (e : Expr) : (e.rename σ).span = e.span := by
  cases e
  rfl

@[simp]
theorem isStarred_rename (e : Expr) : (e.rename σ).isStarred = e.isStarred := by
  obtain ⟨_, shape⟩ := e
  cases shape <;> rfl

@[simp]
theorem isName_rename (e : Expr) : (e.rename σ).isName = e.isName := by
  obtain ⟨_, shape⟩ := e
  cases shape <;> rfl

@[simp]
theorem isPlace_rename (e : Expr) : (e.rename σ).isPlace = e.isPlace := by
  obtain ⟨_, shape⟩ := e
  cases shape <;> rfl

@[simp]
theorem nature_rename (e : Expr) : (e.rename σ).nature = e.nature := by
  obtain ⟨_, shape⟩ := e
  cases shape <;> rfl

@[simp]
theorem lonelyFault_rename (deleted : Bool) (e : Expr) :
    (e.rename σ).lonelyFault deleted = e.lonelyFault deleted := by
  rw [lonelyFault, lonelyFault, nature_rename, isStarred_rename]

end Expr

mutual

/-- A renamed target gets its context like the target itself. -/
theorem Expr.withContext_rename (σ : Bytes → Bytes) (context : Context) :
    ∀ e : Expr, (e.rename σ).withContext context = (e.withContext context).rename σ
  | .node _ shape => by
    cases shape with
    | starred value _ =>
      simp only [Expr.rename, Expr.Shape.rename, Expr.withContext,
        Expr.withContext_rename σ context value]
    | tuple elements _ | list elements _ =>
      simp only [Expr.rename, Expr.Shape.rename, Expr.withContext,
        elementsWithContext_rename σ context elements]
    | _ => rfl

theorem elementsWithContext_rename (σ : Bytes → Bytes) (context : Context) :
    ∀ es : List Expr, elementsWithContext context (Expr.renameAll σ es) =
      Expr.renameAll σ (elementsWithContext context es)
  | [] => rfl
  | e :: es => by
    simp only [Expr.renameAll, elementsWithContext, Expr.withContext_rename σ context e,
      elementsWithContext_rename σ context es]

end

mutual

/-- A renamed target has the fault of the target itself. -/
theorem Expr.targetFault?_rename (σ : Bytes → Bytes) (deleted : Bool) :
    ∀ e : Expr, (e.rename σ).targetFault? deleted = e.targetFault? deleted
  | .node _ shape => by
    cases shape with
    | tuple elements _ | list elements _ =>
      simp only [Expr.rename, Expr.Shape.rename, Expr.targetFault?,
        elementsFault?_rename σ deleted elements]
    | _ => rfl

theorem elementsFault?_rename (σ : Bytes → Bytes) (deleted : Bool) :
    ∀ es : List Expr, elementsFault? deleted (Expr.renameAll σ es) = elementsFault? deleted es
  | [] => rfl
  | .node span shape :: es => by
    have hfault := Expr.targetFault?_rename σ deleted (.node span shape)
    have hes := elementsFault?_rename σ deleted es
    cases shape with
    | starred value context =>
      have hlonely := Expr.lonelyFault_rename σ deleted (.node span (.starred value context))
      have hvalue := Expr.targetFault?_rename σ deleted value
      simp only [Expr.rename, Expr.Shape.rename] at hlonely
      simp only [Expr.renameAll, Expr.rename, Expr.Shape.rename, elementsFault?, hlonely, hvalue,
        hes]
    | _ =>
      simp only [Expr.rename, Expr.Shape.rename] at hfault
      simp only [Expr.renameAll, Expr.rename, Expr.Shape.rename, elementsFault?, hfault, hes]

end

@[simp]
theorem Keyword.isNamed_rename (σ : Bytes → Bytes) (keyword : Keyword) :
    (keyword.rename σ).isNamed = keyword.isNamed := by
  obtain ⟨_, name, _⟩ := keyword
  cases name <;> rfl

/-! ## Statements of soft keywords -/

mutual

/-- Whether a match statement or a type alias is a statement or stands within it. -/
def Stmt.isSoft : Stmt → Bool
  | .node _ (.matchBlock ..) | .node _ (.typeAlias ..) => true
  | .node _ (.functionDef _ _ _ _ _ _ body) | .node _ (.classDef _ _ _ _ _ body)
  | .node _ (.withBlock _ _ body) => Stmt.anySoft body
  | .node _ (.forLoop _ _ _ body orelse) | .node _ (.whileLoop _ body orelse)
  | .node _ (.conditional _ body orelse) => Stmt.anySoft body || Stmt.anySoft orelse
  | .node _ (.tryBlock _ body handlers orelse finalbody) =>
    Stmt.anySoft body || ExceptHandler.anySoft handlers || Stmt.anySoft orelse ||
      Stmt.anySoft finalbody
  | _ => false

/-- Whether a match statement or a type alias is among statements. -/
def Stmt.anySoft : List Stmt → Bool
  | [] => false
  | s :: rest => s.isSoft || Stmt.anySoft rest

/-- Whether a match statement or a type alias is among the statements of handlers. -/
def ExceptHandler.anySoft : List ExceptHandler → Bool
  | [] => false
  | .mk _ _ _ body :: rest => Stmt.anySoft body || ExceptHandler.anySoft rest

end

theorem Stmt.anySoft_iff {l : List Stmt} : anySoft l = true ↔ ∃ s ∈ l, s.isSoft = true := by
  induction l with
  | nil => simp [anySoft]
  | cons s l ih => simp [anySoft, ih]

/-- Whether a match statement or a type alias is among the statements of a module. -/
def Module.isSoft (m : Module) : Bool := Stmt.anySoft m.body

end SyntaxTree
