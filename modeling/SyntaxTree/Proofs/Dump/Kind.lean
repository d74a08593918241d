import SyntaxTree.Proofs.Dump.Label
import SyntaxTree.Proofs.Tree.Walk

/-
# The kind of a node by its label

The first word of a label tells the kind of its node, and no label is the dash of an absent entry.
The lines of a legible tree are clean, so its dump can be cut into them again.
-/

namespace SyntaxTree

/-! ## First words -/

/-- The kinds of nodes by the first words of their labels. -/
def NodeKind.headings : List (Bytes × NodeKind) := [
  (text "Module", .wholeModule), (text "FunctionDef", .functionDef),
  (text "AsyncFunctionDef", .functionDef), (text "ClassDef", .classDef),
  (text "Return", .returnStmt), (text "Delete", .delStmt), (text "Assign", .assignStmt),
  (text "AugAssign", .augAssignStmt), (text "AnnAssign", .annAssignStmt), (text "For", .forStmt),
  (text "AsyncFor", .forStmt), (text "While", .whileStmt), (text "If", .ifStmt),
  (text "With", .withStmt), (text "AsyncWith", .withStmt), (text "Match", .matchStmt),
  (text "Raise", .raiseStmt), (text "Try", .tryStmt), (text "TryStar", .tryStmt),
  (text "Assert", .assertStmt), (text "Import", .importNames), (text "ImportFrom", .importFrom),
  (text "Global", .globalStmt), (text "Nonlocal", .nonlocalStmt), (text "Expr", .exprStmt),
  (text "Pass", .passStmt), (text "Break", .breakStmt), (text "Continue", .continueStmt),
  (text "TypeAlias", .typeAlias), (text "Blank", .blank), (text "BoolOp", .boolOp),
  (text "NamedExpr", .namedExpr), (text "BinOp", .binaryExpr), (text "UnaryOp", .unaryExpr),
  (text "Lambda", .lambdaExpr), (text "IfExp", .ifExpr), (text "Dict", .dictLiteral),
  (text "Set", .setLiteral), (text "List", .listLiteral), (text "Tuple", .tupleLiteral),
  (text "ListComp", .listComp), (text "SetComp", .setComp), (text "DictComp", .dictComp),
  (text "GeneratorExp", .generatorExpr), (text "Await", .awaitExpr), (text "Yield", .yieldExpr),
  (text "YieldFrom", .yieldFromExpr), (text "Compare", .compare), (text "Call", .call),
  (text "FormattedValue", .formattedValue), (text "JoinedStr", .joinedStr),
  (text "Constant", .constant), (text "Attribute", .attributeAccess),
  (text "Subscript", .subscript), (text "Starred", .starred), (text "Name", .nameExpr),
  (text "Slice", .slice), (text "MatchValue", .matchValue),
  (text "MatchSingleton", .matchSingleton), (text "MatchSequence", .matchSequence),
  (text "MatchMapping", .matchMapping), (text "MatchClass", .matchClass),
  (text "MatchStar", .matchStar), (text "MatchAs", .matchAs), (text "MatchOr", .matchOr),
  (text "arguments", .parameters), (text "arg", .parameter), (text "keyword", .keywordArgument),
  (text "alias", .importAlias), (text "withitem", .withItem), (text "match_case", .matchCase),
  (text "ExceptHandler", .exceptHandler), (text "comprehension", .comprehension),
  (text "TypeVar", .typeParam), (text "ParamSpec", .typeParam), (text "TypeVarTuple", .typeParam)]

/-- The kind of the node with a label. -/
def NodeKind.ofLabel? (label : Bytes) : Option NodeKind :=
  headings.lookup (label.takeWhile (· ≠ Byte.space))

/-- The label of a document. -/
def Doc.label : Doc → Bytes
  | .node label _ => label

/-- The fields of a document. -/
def Doc.fields : Doc → List Doc.Field
  | .node _ fields => fields

/-- The kind of an outline. -/
def Outline.kind : Outline → NodeKind
  | .node kind _ _ => kind

/-- The label of an expression tells its kind. -/
theorem Expr.Shape.ofLabel?_label (shape : Expr.Shape) :
    NodeKind.ofLabel? (Expr.Shape.doc shape).label = some (shape.outline .none).kind := by
  cases shape <;> rfl

/-- The label of a pattern tells its kind. -/
theorem Pattern.Shape.ofLabel?_label (shape : Pattern.Shape) :
    NodeKind.ofLabel? (Pattern.Shape.doc shape).label = some (shape.outline .none).kind := by
  cases shape <;> rfl

/-- The label of a statement tells its kind. -/
theorem Stmt.Shape.ofLabel?_label (shape : Stmt.Shape) :
    NodeKind.ofLabel? (Stmt.Shape.doc shape).label = some (shape.outline .none).kind := by
  cases shape with
  | functionDef isAsync => cases isAsync <;> rfl
  | forLoop isAsync => cases isAsync <;> rfl
  | withBlock isAsync => cases isAsync <;> rfl
  | tryBlock isStar => cases isStar <;> rfl
  | annotatedAssign _ _ _ simple => cases simple <;> rfl
  | _ => rfl

/-- The label of a node tells its kind. -/
theorem Node.ofLabel?_label (n : Node) : NodeKind.ofLabel? n.doc.label = some n.kind := by
  cases n with
  | stmt s =>
    obtain ⟨_, shape⟩ := s
    rw [Node.doc, Stmt.doc, Stmt.Shape.ofLabel?_label]
    cases shape <;> rfl
  | expr e =>
    obtain ⟨_, shape⟩ := e
    rw [Node.doc, Expr.doc, Expr.Shape.ofLabel?_label]
    cases shape <;> rfl
  | pattern p =>
    obtain ⟨_, shape⟩ := p
    rw [Node.doc, Pattern.doc, Pattern.Shape.ofLabel?_label]
    cases shape <;> rfl
  | parameters p =>
    cases p
    rfl
  | parameter p =>
    cases p
    rfl
  | keyword k =>
    cases k
    rfl
  | matchCase c =>
    cases c
    rfl
  | exceptHandler handler =>
    cases handler
    rfl
  | comprehension c =>
    obtain ⟨_, _, _, _, isAsync⟩ := c
    cases isAsync <;> rfl
  | typeParam p =>
    obtain ⟨_, kind, _, _, _⟩ := p
    cases kind <;> rfl
  | _ => rfl

/-- A label is neither the dash of an absent entry nor begins with a space. -/
theorem NodeKind.ofLabel?_eq_none :
    ofLabel? (text "-") = none ∧ ∀ s : Bytes, ofLabel? (Byte.space :: s) = none :=
  ⟨rfl, fun _ => rfl⟩

/-! ## Clean documents -/

/-- The name of a field as it may stand in front of its colon. -/
def IsFieldName (name : Bytes) : Prop := IsPrintable name ∧ name.head? ≠ some Byte.space

instance (name : Bytes) : Decidable (IsFieldName name) :=
  inferInstanceAs (Decidable (_ ∧ _))

/-- A label without control characters that tells a kind. -/
def IsLabel (label : Bytes) : Prop := IsPrintable label ∧ (NodeKind.ofLabel? label).isSome

mutual

/-- A document whose labels tell kinds. -/
def Doc.IsClean : Doc → Prop
  | .node label fields => IsLabel label ∧ Doc.FieldsClean fields

/-- Fields of clean documents. -/
def Doc.FieldsClean : List Doc.Field → Prop
  | [] => True
  | .mk name entries :: fields =>
    IsFieldName name ∧ Doc.EntriesClean entries ∧ Doc.FieldsClean fields

/-- Entries that are clean documents unless they are absent. -/
def Doc.EntriesClean : List Doc.Entry → Prop
  | [] => True
  | .absent :: entries => Doc.EntriesClean entries
  | .present doc :: entries => doc.IsClean ∧ Doc.EntriesClean entries

end

/-- A label begins with a visible byte. -/
theorem IsLabel.head?_ne_space {label : Bytes} (h : IsLabel label) :
    label.head? ≠ some Byte.space := by
  intro hhead
  obtain ⟨rest, rfl⟩ := List.head?_eq_some_iff.mp hhead
  have hsome := h.2
  rw [NodeKind.ofLabel?_eq_none.2 rest] at hsome
  cases hsome

/-- A label is not the dash of an absent entry. -/
theorem IsLabel.ne_dash {label : Bytes} (h : IsLabel label) : label ≠ text "-" := by
  rintro rfl
  have hsome := h.2
  rw [NodeKind.ofLabel?_eq_none.1] at hsome
  cases hsome

/-- The line of a label is clean. -/
theorem IsLabel.isClean_line {label : Bytes} (h : IsLabel label) (depth : Nat) :
    DumpLine.IsClean ⟨depth, label⟩ :=
  ⟨h.1.lineFeed_not_mem, h.head?_ne_space⟩

/-- The line of a field's name is clean. -/
theorem IsFieldName.isClean_line {name : Bytes} (h : IsFieldName name) (depth : Nat) :
    DumpLine.IsClean ⟨depth, name ++ text ":"⟩ := by
  refine ⟨IsPrintable.lineFeed_not_mem ((isPrintable_append _ _).mpr ⟨h.1, by decide⟩), ?_⟩
  cases name with
  | nil => exact show (text ":").head? ≠ some Byte.space by decide
  | cons b name => exact h.2

/-- The line of an absent entry is clean. -/
theorem DumpLine.isClean_dash (depth : Nat) : DumpLine.IsClean ⟨depth, text "-"⟩ :=
  ⟨show Byte.lineFeed ∉ text "-" by decide, show (text "-").head? ≠ some Byte.space by decide⟩

mutual

/-- The lines of a clean document are clean. -/
theorem Doc.IsClean.lines (depth : Nat) : ∀ {doc : Doc}, doc.IsClean →
    ∀ l ∈ doc.lines depth, l.IsClean
  | .node label fields, h, l, hl => by
    rw [Doc.lines] at hl
    rcases List.mem_cons.mp hl with rfl | hl
    · exact h.1.isClean_line depth
    · exact Doc.FieldsClean.lines (depth + 1) h.2 l hl

/-- The lines of fields of clean documents are clean. -/
theorem Doc.FieldsClean.lines (depth : Nat) : ∀ {fields : List Doc.Field}, Doc.FieldsClean fields →
    ∀ l ∈ Doc.fieldLines depth fields, l.IsClean
  | [], _, l, hl => by simp [Doc.fieldLines] at hl
  | .mk name entries :: fields, h, l, hl => by
    rw [Doc.fieldLines] at hl
    rcases List.mem_append.mp hl with hl | hl
    · split at hl
      · simp at hl
      · rcases List.mem_cons.mp hl with rfl | hl
        · exact h.1.isClean_line depth
        · exact Doc.EntriesClean.lines (depth + 1) h.2.1 l hl
    · exact Doc.FieldsClean.lines depth h.2.2 l hl

/-- The lines of clean entries are clean. -/
theorem Doc.EntriesClean.lines (depth : Nat) : ∀ {entries : List Doc.Entry},
    Doc.EntriesClean entries → ∀ l ∈ Doc.entryLines depth entries, l.IsClean
  | [], _, l, hl => by simp [Doc.entryLines] at hl
  | .absent :: entries, h, l, hl => by
    rw [Doc.entryLines] at hl
    have hentries : Doc.EntriesClean entries := h
    rcases List.mem_cons.mp hl with rfl | hl
    · exact DumpLine.isClean_dash depth
    · exact Doc.EntriesClean.lines depth hentries l hl
  | .present doc :: entries, h, l, hl => by
    rw [Doc.entryLines] at hl
    rcases List.mem_append.mp hl with hl | hl
    · exact Doc.IsClean.lines depth h.1 l hl
    · exact Doc.EntriesClean.lines depth h.2 l hl

end

/-- The branch of a clean document is not that of an absent entry. -/
theorem Doc.IsClean.branch_ne_dash {doc : Doc} (h : doc.IsClean) :
    doc.branch ≠ .node (text "-") [] := by
  obtain ⟨label, fields⟩ := doc
  intro heq
  exact h.1.ne_dash (Branch.node.inj heq).1

end SyntaxTree
