import SyntaxTree.Proofs.Dump.Clean
import SyntaxTree.Proofs.Tree.Bare

/-
# Expressions by their branches

Legible expressions whose dumps have the same tree of lines are equal apart from positions.  The
label of a node tells its kind and its scalars, and the branches under the names of its fields tell
its children.
-/

namespace SyntaxTree

/-! ## Fields -/

/-- The first of several fields can be told apart. -/
theorem Doc.named_cons_inj {name name' : String} {entries entries' : List Doc.Entry}
    {fields fields' : List Doc.Field} :
    (Doc.Field.named name entries :: fields).map Doc.Field.branches =
        (Doc.Field.named name' entries' :: fields').map Doc.Field.branches ↔
      Doc.entryBranches entries = Doc.entryBranches entries' ∧
        fields.map Doc.Field.branches = fields'.map Doc.Field.branches := by
  rw [List.map_cons, List.map_cons, List.cons.injEq]
  rfl

/-- The first of several entries can be told apart. -/
theorem Doc.present_cons_inj {doc doc' : Doc} {entries entries' : List Doc.Entry} :
    Doc.entryBranches (.present doc :: entries) = Doc.entryBranches (.present doc' :: entries') ↔
      doc.branch = doc'.branch ∧ Doc.entryBranches entries = Doc.entryBranches entries' := by
  rw [Doc.entryBranches, Doc.entryBranches, List.cons.injEq]

/-- Documents with equal branches have equal labels. -/
theorem Doc.label_eq_of_branch_eq {doc doc' : Doc} (h : doc.branch = doc'.branch) :
    doc.label = doc'.label := by
  obtain ⟨label, fields⟩ := doc
  obtain ⟨label', fields'⟩ := doc'
  exact (Branch.node.inj h).1

/-! ## Expressions -/

/-- Shapes of expressions with equal branches are of the same kind. -/
theorem Expr.Shape.kind_eq_of_branch_eq {s t : Expr.Shape}
    (h : (Expr.Shape.doc s).branch = (Expr.Shape.doc t).branch) :
    (s.outline .none).kind = (t.outline .none).kind := by
  have hkind := congrArg NodeKind.ofLabel? (Doc.label_eq_of_branch_eq h)
  rw [Expr.Shape.ofLabel?_label, Expr.Shape.ofLabel?_label] at hkind
  exact Option.some.inj hkind

/-- The names of the operators of a chain are legible. -/
theorem Comparison.isLegible_names (rest : List Comparison) :
    ∀ name ∈ rest.map fun | .mk op _ => op.name, IsLegible name := by
  intro name hname
  obtain ⟨⟨op, _⟩, _, rfl⟩ := List.mem_map.mp hname
  exact op.isLegible_name

section

variable (numbers : Set Binary64)

/-- An expression that only expressions equal to it share a branch with. -/
def Expr.IsTold (a : Expr) : Prop :=
  ∀ b : Expr, b.Legible numbers → a.doc.branch = b.doc.branch → a.bare = b.bare

/-- A shape that only shapes equal to it share a branch with. -/
def Expr.Shape.IsTold (s : Expr.Shape) : Prop :=
  ∀ t : Expr.Shape, t.Legible numbers → (Expr.Shape.doc s).branch = (Expr.Shape.doc t).branch →
    s.bare = t.bare

/-- Expressions that only expressions equal to them share their branches with. -/
def Expr.AreTold (as : List Expr) : Prop :=
  ∀ bs : List Expr, Expr.LegibleAll numbers bs →
    Doc.entryBranches (Expr.docs as) = Doc.entryBranches (Expr.docs bs) →
    Expr.bareAll as = Expr.bareAll bs

/-- An expression that may be missing and is told by its branches. -/
def Expr.IsToldOption (a : Option Expr) : Prop :=
  ∀ b : Option Expr, Expr.LegibleOption numbers b →
    Doc.entryBranches (Expr.optionalDoc a) = Doc.entryBranches (Expr.optionalDoc b) →
    Expr.bareOption a = Expr.bareOption b

/-- Dict items that are told by the branches of their keys and values. -/
def DictItem.AreTold (as : List DictItem) : Prop :=
  ∀ bs : List DictItem, DictItem.LegibleAll numbers bs →
    Doc.entryBranches (DictItem.keyDocs as) = Doc.entryBranches (DictItem.keyDocs bs) →
    Doc.entryBranches (DictItem.valueDocs as) = Doc.entryBranches (DictItem.valueDocs bs) →
    DictItem.bareAll as = DictItem.bareAll bs

/-- Comparisons that are told by the names of their operators and the branches of their operands. -/
def Comparison.AreTold (as : List Comparison) : Prop :=
  ∀ bs : List Comparison, Comparison.LegibleAll numbers bs →
    (as.map fun | .mk op _ => op.name) = (bs.map fun | .mk op _ => op.name) →
    Doc.entryBranches (Comparison.docs as) = Doc.entryBranches (Comparison.docs bs) →
    Comparison.bareAll as = Comparison.bareAll bs

/-- A clause that only clauses equal to it share a branch with. -/
def Comprehension.IsTold (a : Comprehension) : Prop :=
  ∀ b : Comprehension, b.Legible numbers → a.doc.branch = b.doc.branch → a.bare = b.bare

/-- Clauses that only clauses equal to them share their branches with. -/
def Comprehension.AreTold (as : List Comprehension) : Prop :=
  ∀ bs : List Comprehension, Comprehension.LegibleAll numbers bs →
    Doc.entryBranches (Comprehension.docs as) = Doc.entryBranches (Comprehension.docs bs) →
    Comprehension.bareAll as = Comprehension.bareAll bs

/-- A keyword argument that only those equal to it share a branch with. -/
def Keyword.IsTold (a : Keyword) : Prop :=
  ∀ b : Keyword, b.Legible numbers → a.doc.branch = b.doc.branch → a.bare = b.bare

/-- Keyword arguments that only those equal to them share their branches with. -/
def Keyword.AreTold (as : List Keyword) : Prop :=
  ∀ bs : List Keyword, Keyword.LegibleAll numbers bs →
    Doc.entryBranches (Keyword.docs as) = Doc.entryBranches (Keyword.docs bs) →
    Keyword.bareAll as = Keyword.bareAll bs

/-- A format specification that may be missing and is told by its branches. -/
def FormatSpec.IsToldOption (a : Option FormatSpec) : Prop :=
  ∀ b : Option FormatSpec, FormatSpec.LegibleOption numbers b →
    Doc.entryBranches (FormatSpec.optionalDoc a) = Doc.entryBranches (FormatSpec.optionalDoc b) →
    FormatSpec.bareOption a = FormatSpec.bareOption b

/-- A parameter that only parameters equal to it share a branch with. -/
def Parameter.IsTold (a : Parameter) : Prop :=
  ∀ b : Parameter, b.Legible numbers → a.doc.branch = b.doc.branch → a.bare = b.bare

/-- Parameters that only parameters equal to them share their branches with. -/
def Parameter.AreTold (as : List Parameter) : Prop :=
  ∀ bs : List Parameter, Parameter.LegibleAll numbers bs →
    Doc.entryBranches (Parameter.docs as) = Doc.entryBranches (Parameter.docs bs) →
    Parameter.bareAll as = Parameter.bareAll bs

/-- A parameter that may be missing and is told by its branches. -/
def Parameter.IsToldOption (a : Option Parameter) : Prop :=
  ∀ b : Option Parameter, Parameter.LegibleOption numbers b →
    Doc.entryBranches (Parameter.optionalDoc a) = Doc.entryBranches (Parameter.optionalDoc b) →
    Parameter.bareOption a = Parameter.bareOption b

/-- Keyword-only parameters that are told by their branches and those of their defaults. -/
def KeywordOnly.AreTold (as : List KeywordOnly) : Prop :=
  ∀ bs : List KeywordOnly, KeywordOnly.LegibleAll numbers bs →
    Doc.entryBranches (KeywordOnly.docs as) = Doc.entryBranches (KeywordOnly.docs bs) →
    Doc.entryBranches (KeywordOnly.defaultDocs as) =
      Doc.entryBranches (KeywordOnly.defaultDocs bs) →
    KeywordOnly.bareAll as = KeywordOnly.bareAll bs

/-- Parameters of a function that only parameters equal to them share a branch with. -/
def Parameters.IsTold (a : Parameters) : Prop :=
  ∀ b : Parameters, b.Legible numbers → a.doc.branch = b.doc.branch → a.bare = b.bare

end

section

variable {numbers : Set Binary64}

/-! ## One kind at a time -/

/-- Legible names are told apart. -/
theorem Expr.Shape.isTold_name {id : Bytes} {context : Context} (hid : IsLegible id) :
    Expr.Shape.IsTold numbers (.name id context) := by
  intro t ht h
  cases t with
  | name id' context' =>
    obtain ⟨rfl, hcontext⟩ := label_word_inj (text "ctx=") hid.space_not_mem
      (IsLegible.space_not_mem ht) (Doc.label_eq_of_branch_eq h)
    rw [Context.name_injective hcontext]
  | _ => exact nomatch Expr.Shape.kind_eq_of_branch_eq h

/-- Legible constants are told apart. -/
theorem Expr.Shape.isTold_constant (hnum : Set.InjOn FloatFormat.exact.write numbers)
    {value : Constant} (hvalue : value.Legible numbers) :
    Expr.Shape.IsTold numbers (.constant value) := by
  intro t ht h
  cases t with
  | constant value' =>
    have hlabel := List.append_cancel_left (Doc.label_eq_of_branch_eq h)
    rw [Constant.label_inj hnum hvalue ht hlabel]
  | _ => exact nomatch Expr.Shape.kind_eq_of_branch_eq h

/-- Boolean expressions are told apart if their parts are. -/
theorem Expr.Shape.isTold_boolean {op : BoolOperator} {values : List Expr}
    (hvalues : Expr.AreTold numbers values) :
    Expr.Shape.IsTold numbers (.boolean op values) := by
  intro t ht h
  cases t with
  | boolean op' values' =>
    obtain ⟨hlabel, hfields⟩ := Doc.parts_of_branch_eq ["values"] (by decide) rfl rfl h
    simp only [Doc.named_cons_inj, List.map_nil, and_true] at hfields
    obtain rfl := BoolOperator.name_injective (List.append_cancel_left hlabel)
    rw [Expr.Shape.bare, Expr.Shape.bare, hvalues values' ht hfields]
  | _ => exact nomatch Expr.Shape.kind_eq_of_branch_eq h

/-- Named expressions are told apart if their parts are. -/
theorem Expr.Shape.isTold_named {target value : Expr} (htarget : Expr.IsTold numbers target)
    (hvalue : Expr.IsTold numbers value) :
    Expr.Shape.IsTold numbers (.named target value) := by
  intro t ht h
  cases t with
  | named target' value' =>
    obtain ⟨-, hfields⟩ := Doc.parts_of_branch_eq ["target", "value"] (by decide) rfl rfl h
    simp only [Doc.named_cons_inj, Doc.present_cons_inj, List.map_nil, and_true] at hfields
    rw [Expr.Shape.bare, Expr.Shape.bare, htarget target' ht.1 hfields.1,
      hvalue value' ht.2 hfields.2]
  | _ => exact nomatch Expr.Shape.kind_eq_of_branch_eq h

/-- Binary expressions are told apart if their parts are. -/
theorem Expr.Shape.isTold_binary {op : BinaryOperator} {left right : Expr}
    (hleft : Expr.IsTold numbers left) (hright : Expr.IsTold numbers right) :
    Expr.Shape.IsTold numbers (.binary op left right) := by
  intro t ht h
  cases t with
  | binary op' left' right' =>
    obtain ⟨hlabel, hfields⟩ := Doc.parts_of_branch_eq ["left", "right"] (by decide) rfl rfl h
    simp only [Doc.named_cons_inj, Doc.present_cons_inj, List.map_nil, and_true] at hfields
    obtain rfl := BinaryOperator.name_injective (List.append_cancel_left hlabel)
    rw [Expr.Shape.bare, Expr.Shape.bare, hleft left' ht.1 hfields.1, hright right' ht.2 hfields.2]
  | _ => exact nomatch Expr.Shape.kind_eq_of_branch_eq h

/-- Unary expressions are told apart if their parts are. -/
theorem Expr.Shape.isTold_unary {op : UnaryOperator} {operand : Expr}
    (hoperand : Expr.IsTold numbers operand) :
    Expr.Shape.IsTold numbers (.unary op operand) := by
  intro t ht h
  cases t with
  | unary op' operand' =>
    obtain ⟨hlabel, hfields⟩ := Doc.parts_of_branch_eq ["operand"] (by decide) rfl rfl h
    simp only [Doc.named_cons_inj, Doc.present_cons_inj, List.map_nil, and_true] at hfields
    obtain rfl := UnaryOperator.name_injective (List.append_cancel_left hlabel)
    rw [Expr.Shape.bare, Expr.Shape.bare, hoperand operand' ht hfields]
  | _ => exact nomatch Expr.Shape.kind_eq_of_branch_eq h

/-- Lambdas are told apart if their parts are. -/
theorem Expr.Shape.isTold_lambda {parameters : Parameters} {body : Expr}
    (hparameters : Parameters.IsTold numbers parameters) (hbody : Expr.IsTold numbers body) :
    Expr.Shape.IsTold numbers (.lambda parameters body) := by
  intro t ht h
  cases t with
  | lambda parameters' body' =>
    obtain ⟨-, hfields⟩ := Doc.parts_of_branch_eq ["args", "body"] (by decide) rfl rfl h
    simp only [Doc.named_cons_inj, Doc.present_cons_inj, List.map_nil, and_true] at hfields
    rw [Expr.Shape.bare, Expr.Shape.bare, hparameters parameters' ht.1 hfields.1,
      hbody body' ht.2 hfields.2]
  | _ => exact nomatch Expr.Shape.kind_eq_of_branch_eq h

/-- Conditional expressions are told apart if their parts are. -/
theorem Expr.Shape.isTold_conditional {test body orelse : Expr} (htest : Expr.IsTold numbers test)
    (hbody : Expr.IsTold numbers body) (horelse : Expr.IsTold numbers orelse) :
    Expr.Shape.IsTold numbers (.conditional test body orelse) := by
  intro t ht h
  cases t with
  | conditional test' body' orelse' =>
    obtain ⟨-, hfields⟩ := Doc.parts_of_branch_eq ["test", "body", "orelse"] (by decide) rfl rfl h
    simp only [Doc.named_cons_inj, Doc.present_cons_inj, List.map_nil, and_true] at hfields
    rw [Expr.Shape.bare, Expr.Shape.bare, htest test' ht.1 hfields.1,
      hbody body' ht.2.1 hfields.2.1, horelse orelse' ht.2.2 hfields.2.2]
  | _ => exact nomatch Expr.Shape.kind_eq_of_branch_eq h

/-- Dict displays are told apart if their items are. -/
theorem Expr.Shape.isTold_dict {items : List DictItem} (hitems : DictItem.AreTold numbers items) :
    Expr.Shape.IsTold numbers (.dict items) := by
  intro t ht h
  cases t with
  | dict items' =>
    obtain ⟨-, hfields⟩ := Doc.parts_of_branch_eq ["keys", "values"] (by decide) rfl rfl h
    simp only [Doc.named_cons_inj, List.map_nil, and_true] at hfields
    rw [Expr.Shape.bare, Expr.Shape.bare, hitems items' ht hfields.1 hfields.2]
  | _ => exact nomatch Expr.Shape.kind_eq_of_branch_eq h

/-- Set displays are told apart if their parts are. -/
theorem Expr.Shape.isTold_set {elements : List Expr} (helements : Expr.AreTold numbers elements) :
    Expr.Shape.IsTold numbers (.set elements) := by
  intro t ht h
  cases t with
  | set elements' =>
    obtain ⟨-, hfields⟩ := Doc.parts_of_branch_eq ["elts"] (by decide) rfl rfl h
    simp only [Doc.named_cons_inj, List.map_nil, and_true] at hfields
    rw [Expr.Shape.bare, Expr.Shape.bare, helements elements' ht hfields]
  | _ => exact nomatch Expr.Shape.kind_eq_of_branch_eq h

/-- List displays are told apart if their parts are. -/
theorem Expr.Shape.isTold_list {elements : List Expr} {context : Context}
    (helements : Expr.AreTold numbers elements) :
    Expr.Shape.IsTold numbers (.list elements context) := by
  intro t ht h
  cases t with
  | list elements' context' =>
    obtain ⟨hlabel, hfields⟩ := Doc.parts_of_branch_eq ["elts"] (by decide) rfl rfl h
    simp only [Doc.named_cons_inj, List.map_nil, and_true] at hfields
    obtain rfl := Context.name_injective (List.append_cancel_left hlabel)
    rw [Expr.Shape.bare, Expr.Shape.bare, helements elements' ht hfields]
  | _ => exact nomatch Expr.Shape.kind_eq_of_branch_eq h

/-- Tuples are told apart if their parts are. -/
theorem Expr.Shape.isTold_tuple {elements : List Expr} {context : Context}
    (helements : Expr.AreTold numbers elements) :
    Expr.Shape.IsTold numbers (.tuple elements context) := by
  intro t ht h
  cases t with
  | tuple elements' context' =>
    obtain ⟨hlabel, hfields⟩ := Doc.parts_of_branch_eq ["elts"] (by decide) rfl rfl h
    simp only [Doc.named_cons_inj, List.map_nil, and_true] at hfields
    obtain rfl := Context.name_injective (List.append_cancel_left hlabel)
    rw [Expr.Shape.bare, Expr.Shape.bare, helements elements' ht hfields]
  | _ => exact nomatch Expr.Shape.kind_eq_of_branch_eq h

/-- List comprehensions are told apart if their parts are. -/
theorem Expr.Shape.isTold_listComp {element : Expr} {clauses : List Comprehension}
    (helement : Expr.IsTold numbers element) (hclauses : Comprehension.AreTold numbers clauses) :
    Expr.Shape.IsTold numbers (.listComp element clauses) := by
  intro t ht h
  cases t with
  | listComp element' clauses' =>
    obtain ⟨-, hfields⟩ := Doc.parts_of_branch_eq ["elt", "generators"] (by decide) rfl rfl h
    simp only [Doc.named_cons_inj, Doc.present_cons_inj, List.map_nil, and_true] at hfields
    rw [Expr.Shape.bare, Expr.Shape.bare, helement element' ht.1 hfields.1,
      hclauses clauses' ht.2 hfields.2]
  | _ => exact nomatch Expr.Shape.kind_eq_of_branch_eq h

/-- Set comprehensions are told apart if their parts are. -/
theorem Expr.Shape.isTold_setComp {element : Expr} {clauses : List Comprehension}
    (helement : Expr.IsTold numbers element) (hclauses : Comprehension.AreTold numbers clauses) :
    Expr.Shape.IsTold numbers (.setComp element clauses) := by
  intro t ht h
  cases t with
  | setComp element' clauses' =>
    obtain ⟨-, hfields⟩ := Doc.parts_of_branch_eq ["elt", "generators"] (by decide) rfl rfl h
    simp only [Doc.named_cons_inj, Doc.present_cons_inj, List.map_nil, and_true] at hfields
    rw [Expr.Shape.bare, Expr.Shape.bare, helement element' ht.1 hfields.1,
      hclauses clauses' ht.2 hfields.2]
  | _ => exact nomatch Expr.Shape.kind_eq_of_branch_eq h

/-- Dict comprehensions are told apart if their parts are. -/
theorem Expr.Shape.isTold_dictComp {key value : Expr} {clauses : List Comprehension}
    (hkey : Expr.IsTold numbers key) (hvalue : Expr.IsTold numbers value)
    (hclauses : Comprehension.AreTold numbers clauses) :
    Expr.Shape.IsTold numbers (.dictComp key value clauses) := by
  intro t ht h
  cases t with
  | dictComp key' value' clauses' =>
    obtain ⟨-, hfields⟩ :=
      Doc.parts_of_branch_eq ["key", "value", "generators"] (by decide) rfl rfl h
    simp only [Doc.named_cons_inj, Doc.present_cons_inj, List.map_nil, and_true] at hfields
    rw [Expr.Shape.bare, Expr.Shape.bare, hkey key' ht.1 hfields.1,
      hvalue value' ht.2.1 hfields.2.1, hclauses clauses' ht.2.2 hfields.2.2]
  | _ => exact nomatch Expr.Shape.kind_eq_of_branch_eq h

/-- Generators are told apart if their parts are. -/
theorem Expr.Shape.isTold_generator {element : Expr} {clauses : List Comprehension}
    (helement : Expr.IsTold numbers element) (hclauses : Comprehension.AreTold numbers clauses) :
    Expr.Shape.IsTold numbers (.generator element clauses) := by
  intro t ht h
  cases t with
  | generator element' clauses' =>
    obtain ⟨-, hfields⟩ := Doc.parts_of_branch_eq ["elt", "generators"] (by decide) rfl rfl h
    simp only [Doc.named_cons_inj, Doc.present_cons_inj, List.map_nil, and_true] at hfields
    rw [Expr.Shape.bare, Expr.Shape.bare, helement element' ht.1 hfields.1,
      hclauses clauses' ht.2 hfields.2]
  | _ => exact nomatch Expr.Shape.kind_eq_of_branch_eq h

/-- Await expressions are told apart if their parts are. -/
theorem Expr.Shape.isTold_await {value : Expr} (hvalue : Expr.IsTold numbers value) :
    Expr.Shape.IsTold numbers (.await value) := by
  intro t ht h
  cases t with
  | await value' =>
    obtain ⟨-, hfields⟩ := Doc.parts_of_branch_eq ["value"] (by decide) rfl rfl h
    simp only [Doc.named_cons_inj, Doc.present_cons_inj, List.map_nil, and_true] at hfields
    rw [Expr.Shape.bare, Expr.Shape.bare, hvalue value' ht hfields]
  | _ => exact nomatch Expr.Shape.kind_eq_of_branch_eq h

/-- Yield expressions are told apart if their parts are. -/
theorem Expr.Shape.isTold_yield {value : Option Expr} (hvalue : Expr.IsToldOption numbers value) :
    Expr.Shape.IsTold numbers (.yield value) := by
  intro t ht h
  cases t with
  | yield value' =>
    obtain ⟨-, hfields⟩ := Doc.parts_of_branch_eq ["value"] (by decide) rfl rfl h
    simp only [Doc.named_cons_inj, List.map_nil, and_true] at hfields
    rw [Expr.Shape.bare, Expr.Shape.bare, hvalue value' ht hfields]
  | _ => exact nomatch Expr.Shape.kind_eq_of_branch_eq h

/-- Delegations to generators are told apart if their parts are. -/
theorem Expr.Shape.isTold_yieldFrom {value : Expr} (hvalue : Expr.IsTold numbers value) :
    Expr.Shape.IsTold numbers (.yieldFrom value) := by
  intro t ht h
  cases t with
  | yieldFrom value' =>
    obtain ⟨-, hfields⟩ := Doc.parts_of_branch_eq ["value"] (by decide) rfl rfl h
    simp only [Doc.named_cons_inj, Doc.present_cons_inj, List.map_nil, and_true] at hfields
    rw [Expr.Shape.bare, Expr.Shape.bare, hvalue value' ht hfields]
  | _ => exact nomatch Expr.Shape.kind_eq_of_branch_eq h

/-- Chains of comparisons are told apart if their parts are. -/
theorem Expr.Shape.isTold_compare {left : Expr} {rest : List Comparison}
    (hleft : Expr.IsTold numbers left) (hrest : Comparison.AreTold numbers rest) :
    Expr.Shape.IsTold numbers (.compare left rest) := by
  intro t ht h
  cases t with
  | compare left' rest' =>
    obtain ⟨hlabel, hfields⟩ := Doc.parts_of_branch_eq ["left", "comparators"] (by decide) rfl rfl h
    simp only [Doc.named_cons_inj, Doc.present_cons_inj, List.map_nil, and_true] at hfields
    have hnames := joinNames_inj (Comparison.isLegible_names rest)
      (Comparison.isLegible_names rest') (List.append_cancel_left hlabel)
    rw [Expr.Shape.bare, Expr.Shape.bare, hleft left' ht.1 hfields.1,
      hrest rest' ht.2 hnames hfields.2]
  | _ => exact nomatch Expr.Shape.kind_eq_of_branch_eq h

/-- Calls are told apart if their parts are. -/
theorem Expr.Shape.isTold_call {callee : Expr} {arguments : List Expr} {keywords : List Keyword}
    (hcallee : Expr.IsTold numbers callee) (harguments : Expr.AreTold numbers arguments)
    (hkeywords : Keyword.AreTold numbers keywords) :
    Expr.Shape.IsTold numbers (.call callee arguments keywords) := by
  intro t ht h
  cases t with
  | call callee' arguments' keywords' =>
    obtain ⟨-, hfields⟩ := Doc.parts_of_branch_eq ["func", "args", "keywords"] (by decide) rfl rfl h
    simp only [Doc.named_cons_inj, Doc.present_cons_inj, List.map_nil, and_true] at hfields
    rw [Expr.Shape.bare, Expr.Shape.bare, hcallee callee' ht.1 hfields.1,
      harguments arguments' ht.2.1 hfields.2.1, hkeywords keywords' ht.2.2 hfields.2.2]
  | _ => exact nomatch Expr.Shape.kind_eq_of_branch_eq h

/-- Replacement fields are told apart if their parts are. -/
theorem Expr.Shape.isTold_field {value : Expr} {conversion : Option Conversion}
    {spec : Option FormatSpec} (hvalue : Expr.IsTold numbers value)
    (hspec : FormatSpec.IsToldOption numbers spec) :
    Expr.Shape.IsTold numbers (.field value conversion spec) := by
  intro t ht h
  cases t with
  | field value' conversion' spec' =>
    obtain ⟨hlabel, hfields⟩ :=
      Doc.parts_of_branch_eq ["value", "format_spec"] (by decide) rfl rfl h
    simp only [Doc.named_cons_inj, Doc.present_cons_inj, List.map_nil, and_true] at hfields
    obtain rfl := optionalName_letter_inj (List.append_cancel_left hlabel)
    rw [Expr.Shape.bare, Expr.Shape.bare, hvalue value' ht.1 hfields.1, hspec spec' ht.2 hfields.2]
  | _ => exact nomatch Expr.Shape.kind_eq_of_branch_eq h

/-- F-strings are told apart if their parts are. -/
theorem Expr.Shape.isTold_fstring {values : List Expr} (hvalues : Expr.AreTold numbers values) :
    Expr.Shape.IsTold numbers (.fstring values) := by
  intro t ht h
  cases t with
  | fstring values' =>
    obtain ⟨-, hfields⟩ := Doc.parts_of_branch_eq ["values"] (by decide) rfl rfl h
    simp only [Doc.named_cons_inj, List.map_nil, and_true] at hfields
    rw [Expr.Shape.bare, Expr.Shape.bare, hvalues values' ht hfields]
  | _ => exact nomatch Expr.Shape.kind_eq_of_branch_eq h

/-- Attributes with legible names are told apart if their values are. -/
theorem Expr.Shape.isTold_attribute {value : Expr} {name : Bytes} {context : Context}
    (hvalue : Expr.IsTold numbers value) (hname : IsLegible name) :
    Expr.Shape.IsTold numbers (.attribute value name context) := by
  intro t ht h
  cases t with
  | «attribute» value' name' context' =>
    obtain ⟨hlabel, hfields⟩ := Doc.parts_of_branch_eq ["value"] (by decide) rfl rfl h
    simp only [Doc.named_cons_inj, Doc.present_cons_inj, List.map_nil, and_true] at hfields
    obtain ⟨rfl, hcontext⟩ := label_word_inj (text "ctx=") hname.space_not_mem
      (IsLegible.space_not_mem ht.2) hlabel
    obtain rfl := Context.name_injective hcontext
    rw [Expr.Shape.bare, Expr.Shape.bare, hvalue value' ht.1 hfields]
  | _ => exact nomatch Expr.Shape.kind_eq_of_branch_eq h

/-- Subscripts are told apart if their parts are. -/
theorem Expr.Shape.isTold_subscript {value index : Expr} {context : Context}
    (hvalue : Expr.IsTold numbers value) (hindex : Expr.IsTold numbers index) :
    Expr.Shape.IsTold numbers (.subscript value index context) := by
  intro t ht h
  cases t with
  | subscript value' index' context' =>
    obtain ⟨hlabel, hfields⟩ := Doc.parts_of_branch_eq ["value", "slice"] (by decide) rfl rfl h
    simp only [Doc.named_cons_inj, Doc.present_cons_inj, List.map_nil, and_true] at hfields
    obtain rfl := Context.name_injective (List.append_cancel_left hlabel)
    rw [Expr.Shape.bare, Expr.Shape.bare, hvalue value' ht.1 hfields.1,
      hindex index' ht.2 hfields.2]
  | _ => exact nomatch Expr.Shape.kind_eq_of_branch_eq h

/-- Starred expressions are told apart if their parts are. -/
theorem Expr.Shape.isTold_starred {value : Expr} {context : Context}
    (hvalue : Expr.IsTold numbers value) :
    Expr.Shape.IsTold numbers (.starred value context) := by
  intro t ht h
  cases t with
  | starred value' context' =>
    obtain ⟨hlabel, hfields⟩ := Doc.parts_of_branch_eq ["value"] (by decide) rfl rfl h
    simp only [Doc.named_cons_inj, Doc.present_cons_inj, List.map_nil, and_true] at hfields
    obtain rfl := Context.name_injective (List.append_cancel_left hlabel)
    rw [Expr.Shape.bare, Expr.Shape.bare, hvalue value' ht hfields]
  | _ => exact nomatch Expr.Shape.kind_eq_of_branch_eq h

/-- Slices are told apart if their parts are. -/
theorem Expr.Shape.isTold_slice {lower upper step : Option Expr}
    (hlower : Expr.IsToldOption numbers lower) (hupper : Expr.IsToldOption numbers upper)
    (hstep : Expr.IsToldOption numbers step) :
    Expr.Shape.IsTold numbers (.slice lower upper step) := by
  intro t ht h
  cases t with
  | slice lower' upper' step' =>
    obtain ⟨-, hfields⟩ := Doc.parts_of_branch_eq ["lower", "upper", "step"] (by decide) rfl rfl h
    simp only [Doc.named_cons_inj, List.map_nil, and_true] at hfields
    rw [Expr.Shape.bare, Expr.Shape.bare, hlower lower' ht.1 hfields.1,
      hupper upper' ht.2.1 hfields.2.1, hstep step' ht.2.2 hfields.2.2]
  | _ => exact nomatch Expr.Shape.kind_eq_of_branch_eq h

/-! ## Parts -/

/-- Expressions are told apart one by one. -/
theorem Expr.areTold_cons {a : Expr} {as : List Expr} (ha : Expr.IsTold numbers a)
    (has : Expr.AreTold numbers as) : Expr.AreTold numbers (a :: as) := by
  intro bs hbs h
  cases bs with
  | nil => exact nomatch h
  | cons b bs =>
    obtain ⟨hfirst, hrest⟩ := Doc.present_cons_inj.mp h
    rw [Expr.bareAll, Expr.bareAll, ha b hbs.1 hfirst, has bs hbs.2 hrest]

/-- Clauses are told apart one by one. -/
theorem Comprehension.areTold_cons {a : Comprehension} {as : List Comprehension}
    (ha : Comprehension.IsTold numbers a) (has : Comprehension.AreTold numbers as) :
    Comprehension.AreTold numbers (a :: as) := by
  intro bs hbs h
  cases bs with
  | nil => exact nomatch h
  | cons b bs =>
    obtain ⟨hfirst, hrest⟩ := Doc.present_cons_inj.mp h
    rw [Comprehension.bareAll, Comprehension.bareAll, ha b hbs.1 hfirst, has bs hbs.2 hrest]

/-- Keyword arguments are told apart one by one. -/
theorem Keyword.areTold_cons {a : Keyword} {as : List Keyword} (ha : Keyword.IsTold numbers a)
    (has : Keyword.AreTold numbers as) : Keyword.AreTold numbers (a :: as) := by
  intro bs hbs h
  cases bs with
  | nil => exact nomatch h
  | cons b bs =>
    obtain ⟨hfirst, hrest⟩ := Doc.present_cons_inj.mp h
    rw [Keyword.bareAll, Keyword.bareAll, ha b hbs.1 hfirst, has bs hbs.2 hrest]

/-- Parameters are told apart one by one. -/
theorem Parameter.areTold_cons {a : Parameter} {as : List Parameter}
    (ha : Parameter.IsTold numbers a) (has : Parameter.AreTold numbers as) :
    Parameter.AreTold numbers (a :: as) := by
  intro bs hbs h
  cases bs with
  | nil => exact nomatch h
  | cons b bs =>
    obtain ⟨hfirst, hrest⟩ := Doc.present_cons_inj.mp h
    rw [Parameter.bareAll, Parameter.bareAll, ha b hbs.1 hfirst, has bs hbs.2 hrest]

/-- No branches tell that there is nothing. -/
theorem Expr.areTold_nil : Expr.AreTold numbers [] := by
  intro bs _ h
  cases bs with
  | nil => rfl
  | cons _ _ => exact nomatch h

theorem Comprehension.areTold_nil : Comprehension.AreTold numbers [] := by
  intro bs _ h
  cases bs with
  | nil => rfl
  | cons _ _ => exact nomatch h

theorem Keyword.areTold_nil : Keyword.AreTold numbers [] := by
  intro bs _ h
  cases bs with
  | nil => rfl
  | cons _ _ => exact nomatch h

theorem Parameter.areTold_nil : Parameter.AreTold numbers [] := by
  intro bs _ h
  cases bs with
  | nil => rfl
  | cons _ _ => exact nomatch h

theorem DictItem.areTold_nil : DictItem.AreTold numbers [] := by
  intro bs _ h _
  rcases bs with _ | ⟨_ | _, _⟩
  · rfl
  · exact nomatch h
  · exact nomatch h

theorem Comparison.areTold_nil : Comparison.AreTold numbers [] := by
  intro bs _ h _
  cases bs with
  | nil => rfl
  | cons _ _ => exact nomatch h

theorem KeywordOnly.areTold_nil : KeywordOnly.AreTold numbers [] := by
  intro bs _ h _
  rcases bs with _ | ⟨⟨_, _⟩, _⟩
  · rfl
  · exact nomatch h

theorem Expr.isToldOption_none : Expr.IsToldOption numbers none := by
  intro b _ h
  cases b with
  | none => rfl
  | some _ => exact nomatch h

theorem Expr.isToldOption_some {a : Expr} (ha : Expr.IsTold numbers a) :
    Expr.IsToldOption numbers (some a) := by
  intro b hb h
  cases b with
  | none => exact nomatch h
  | some b => exact congrArg some (ha b hb (Doc.present_cons_inj.mp h).1)

theorem Parameter.isToldOption_none : Parameter.IsToldOption numbers none := by
  intro b _ h
  cases b with
  | none => rfl
  | some _ => exact nomatch h

theorem Parameter.isToldOption_some {a : Parameter} (ha : Parameter.IsTold numbers a) :
    Parameter.IsToldOption numbers (some a) := by
  intro b hb h
  cases b with
  | none => exact nomatch h
  | some b => exact congrArg some (ha b hb (Doc.present_cons_inj.mp h).1)

theorem FormatSpec.isToldOption_none : FormatSpec.IsToldOption numbers none := by
  intro b _ h
  cases b with
  | none => rfl
  | some _ => exact nomatch h

/-- An entry in front of others with a key is told by the branches of its key and its value. -/
theorem DictItem.areTold_entry {key value : Expr} {items : List DictItem}
    (hlegible : key.Legible numbers) (hkey : Expr.IsTold numbers key)
    (hvalue : Expr.IsTold numbers value) (hitems : DictItem.AreTold numbers items) :
    DictItem.AreTold numbers (.entry key value :: items) := by
  intro bs hbs h h'
  rcases bs with _ | ⟨⟨key', value'⟩ | value', bs⟩
  · exact nomatch h
  · obtain ⟨hk, hks⟩ := Doc.present_cons_inj.mp h
    obtain ⟨hv, hvs⟩ := Doc.present_cons_inj.mp h'
    rw [DictItem.bareAll, DictItem.bareAll, hkey key' hbs.1 hk, hvalue value' hbs.2.1 hv,
      hitems bs hbs.2.2 hks hvs]
  · exact absurd (List.cons.inj h).1 (Doc.IsClean.branch_ne_dash (Expr.isClean_doc key hlegible))

/-- An unpacked mapping is told by the dash in place of its key and the branch of its value. -/
theorem DictItem.areTold_unpack {value : Expr} {items : List DictItem}
    (hvalue : Expr.IsTold numbers value) (hitems : DictItem.AreTold numbers items) :
    DictItem.AreTold numbers (.unpack value :: items) := by
  intro bs hbs h h'
  rcases bs with _ | ⟨⟨key', value'⟩ | value', bs⟩
  · exact nomatch h
  · exact absurd (List.cons.inj h).1.symm
      (Doc.IsClean.branch_ne_dash (Expr.isClean_doc key' hbs.1))
  · obtain ⟨hv, hvs⟩ := Doc.present_cons_inj.mp h'
    rw [DictItem.bareAll, DictItem.bareAll, hvalue value' hbs.1 hv,
      hitems bs hbs.2 (List.cons.inj h).2 hvs]

/-- Comparisons are told apart one by one. -/
theorem Comparison.areTold_cons {op : CompareOperator} {operand : Expr} {as : List Comparison}
    (hoperand : Expr.IsTold numbers operand) (has : Comparison.AreTold numbers as) :
    Comparison.AreTold numbers (.mk op operand :: as) := by
  intro bs hbs hops h
  rcases bs with _ | ⟨⟨op', operand'⟩, bs⟩
  · exact nomatch h
  · obtain ⟨hop, hlater⟩ := List.cons.inj hops
    obtain ⟨hfirst, hrest⟩ := Doc.present_cons_inj.mp h
    obtain rfl := CompareOperator.name_injective hop
    rw [Comparison.bareAll, Comparison.bareAll, hoperand operand' hbs.1 hfirst,
      has bs hbs.2 hlater hrest]

/-- Clauses are told apart if their parts are. -/
theorem Comprehension.isTold_mk {span : Span} {target iterable : Expr} {conditions : List Expr}
    {isAsync : Bool} (htarget : Expr.IsTold numbers target)
    (hiterable : Expr.IsTold numbers iterable) (hconditions : Expr.AreTold numbers conditions) :
    Comprehension.IsTold numbers (.mk span target iterable conditions isAsync) := by
  rintro ⟨_, target', iterable', conditions', isAsync'⟩ hb h
  obtain ⟨hlabel, hfields⟩ :=
    Doc.parts_of_branch_eq ["target", "iter", "ifs"] (by decide) rfl rfl h
  simp only [Doc.named_cons_inj, Doc.present_cons_inj, List.map_nil, and_true] at hfields
  obtain rfl := labelIf_inj (by decide) hlabel
  rw [Comprehension.bare, Comprehension.bare, htarget target' hb.1 hfields.1,
    hiterable iterable' hb.2.1 hfields.2.1, hconditions conditions' hb.2.2 hfields.2.2]

/-- Keyword arguments with legible names are told apart if their values are. -/
theorem Keyword.isTold_mk {span : Span} {name : Option Bytes} {value : Expr}
    (hname : IsLegibleOption name) (hvalue : Expr.IsTold numbers value) :
    Keyword.IsTold numbers (.mk span name value) := by
  rintro ⟨_, name', value'⟩ hb h
  obtain ⟨hlabel, hfields⟩ := Doc.parts_of_branch_eq ["value"] (by decide) rfl rfl h
  simp only [Doc.named_cons_inj, Doc.present_cons_inj, List.map_nil, and_true] at hfields
  obtain rfl := optionalName_inj hname hb.1 (List.append_cancel_left hlabel)
  rw [Keyword.bare, Keyword.bare, hvalue value' hb.2 hfields]

/-- A format specification is told by its parts. -/
theorem FormatSpec.isToldOption_some {span : Span} {values : List Expr}
    (hvalues : Expr.AreTold numbers values) :
    FormatSpec.IsToldOption numbers (some (.mk span values)) := by
  intro b hb h
  rcases b with _ | ⟨_, values'⟩
  · exact nomatch h
  · obtain ⟨hdoc, -⟩ := Doc.present_cons_inj.mp h
    obtain ⟨-, hfields⟩ := Doc.parts_of_branch_eq ["values"] (by decide) rfl rfl hdoc
    simp only [Doc.named_cons_inj, List.map_nil, and_true] at hfields
    rw [FormatSpec.bareOption, FormatSpec.bareOption, FormatSpec.bare, FormatSpec.bare,
      hvalues values' hb hfields]

/-- Parameters are told apart if their annotations are. -/
theorem Parameter.isTold_mk {span : Span} {name : Bytes} {hint : Option Expr}
    (hhint : Expr.IsToldOption numbers hint) : Parameter.IsTold numbers (.mk span name hint) := by
  rintro ⟨_, name', hint'⟩ hb h
  obtain ⟨hlabel, hfields⟩ := Doc.parts_of_branch_eq ["annotation"] (by decide) rfl rfl h
  simp only [Doc.named_cons_inj, List.map_nil, and_true] at hfields
  obtain rfl := List.append_cancel_left hlabel
  rw [Parameter.bare, Parameter.bare, hhint hint' hb.2 hfields]

/-- A keyword-only parameter without a default is told by the dash in place of its default. -/
theorem KeywordOnly.areTold_none {p : Parameter} {ps : List KeywordOnly}
    (hp : Parameter.IsTold numbers p) (hps : KeywordOnly.AreTold numbers ps) :
    KeywordOnly.AreTold numbers (.mk p none :: ps) := by
  intro bs hbs h h'
  rcases bs with _ | ⟨⟨p', _ | default'⟩, bs⟩
  · exact nomatch h
  · obtain ⟨hfirst, hrest⟩ := Doc.present_cons_inj.mp h
    rw [KeywordOnly.bareAll, KeywordOnly.bareAll, hp p' hbs.1 hfirst,
      hps bs hbs.2.2 hrest (List.cons.inj h').2]
  · exact absurd (List.cons.inj h').1.symm
      (Doc.IsClean.branch_ne_dash (Expr.isClean_doc default' hbs.2.1))

/-- A keyword-only parameter is told by its branch and that of its default. -/
theorem KeywordOnly.areTold_some {p : Parameter} {default : Expr} {ps : List KeywordOnly}
    (hlegible : default.Legible numbers) (hp : Parameter.IsTold numbers p)
    (hdefault : Expr.IsTold numbers default) (hps : KeywordOnly.AreTold numbers ps) :
    KeywordOnly.AreTold numbers (.mk p (some default) :: ps) := by
  intro bs hbs h h'
  rcases bs with _ | ⟨⟨p', _ | default'⟩, bs⟩
  · exact nomatch h
  · exact absurd (List.cons.inj h').1
      (Doc.IsClean.branch_ne_dash (Expr.isClean_doc default hlegible))
  · obtain ⟨hfirst, hrest⟩ := Doc.present_cons_inj.mp h
    obtain ⟨hvalue, hvalues⟩ := Doc.present_cons_inj.mp h'
    rw [KeywordOnly.bareAll, KeywordOnly.bareAll, hp p' hbs.1 hfirst, Expr.bareOption,
      Expr.bareOption, hdefault default' hbs.2.1 hvalue, hps bs hbs.2.2 hrest hvalues]

/-- The parameters of functions are told apart if their parts are. -/
theorem Parameters.isTold_mk {positionalOnly positional : List Parameter}
    {variadic : Option Parameter} {keywordOnly : List KeywordOnly}
    {variadicKeyword : Option Parameter} {defaults : List Expr}
    (hpositionalOnly : Parameter.AreTold numbers positionalOnly)
    (hpositional : Parameter.AreTold numbers positional)
    (hvariadic : Parameter.IsToldOption numbers variadic)
    (hkeywordOnly : KeywordOnly.AreTold numbers keywordOnly)
    (hvariadicKeyword : Parameter.IsToldOption numbers variadicKeyword)
    (hdefaults : Expr.AreTold numbers defaults) :
    Parameters.IsTold numbers
      (.mk positionalOnly positional variadic keywordOnly variadicKeyword defaults) := by
  rintro ⟨positionalOnly', positional', variadic', keywordOnly', variadicKeyword', defaults'⟩ hb h
  obtain ⟨hb₁, hb₂, hb₃, hb₄, hb₅, hb₆⟩ := hb
  obtain ⟨-, hfields⟩ := Doc.parts_of_branch_eq
    ["posonlyargs", "args", "vararg", "kwonlyargs", "kw_defaults", "kwarg", "defaults"]
    (by decide) rfl rfl h
  simp only [Doc.named_cons_inj, List.map_nil, and_true] at hfields
  obtain ⟨h₁, h₂, h₃, h₄, h₄', h₅, h₆⟩ := hfields
  rw [Parameters.bare, Parameters.bare, hpositionalOnly positionalOnly' hb₁ h₁,
    hpositional positional' hb₂ h₂, hvariadic variadic' hb₃ h₃,
    hkeywordOnly keywordOnly' hb₄ h₄ h₄', hvariadicKeyword variadicKeyword' hb₅ h₅,
    hdefaults defaults' hb₆ h₆]

/-! ## All expressions -/

variable (hnum : Set.InjOn FloatFormat.exact.write numbers)

include hnum

-- the numbers matter to constants only, but every theorem of the block needs them
set_option linter.unusedSectionVars false

mutual

/-- Legible expressions are told apart. -/
theorem Expr.isTold : ∀ a : Expr, a.Legible numbers → a.IsTold numbers
  | .node _ s, h => by
    rintro ⟨_, t⟩ ht heq
    exact congrArg (Expr.node .none) (Expr.Shape.isTold s h t ht heq)

/-- Legible shapes are told apart. -/
theorem Expr.Shape.isTold : ∀ s : Expr.Shape, s.Legible numbers → s.IsTold numbers
  | .name _ _, h => Expr.Shape.isTold_name h
  | .constant _, h => Expr.Shape.isTold_constant hnum h
  | .boolean _ values, h => Expr.Shape.isTold_boolean (Expr.areTold values h)
  | .named target value, h =>
    Expr.Shape.isTold_named (Expr.isTold target h.1) (Expr.isTold value h.2)
  | .binary _ left right, h =>
    Expr.Shape.isTold_binary (Expr.isTold left h.1) (Expr.isTold right h.2)
  | .unary _ operand, h => Expr.Shape.isTold_unary (Expr.isTold operand h)
  | .lambda parameters body, h =>
    Expr.Shape.isTold_lambda (Parameters.isTold parameters h.1) (Expr.isTold body h.2)
  | .conditional test body orelse, h =>
    Expr.Shape.isTold_conditional (Expr.isTold test h.1) (Expr.isTold body h.2.1)
      (Expr.isTold orelse h.2.2)
  | .dict items, h => Expr.Shape.isTold_dict (DictItem.areTold items h)
  | .set elements, h => Expr.Shape.isTold_set (Expr.areTold elements h)
  | .list elements _, h => Expr.Shape.isTold_list (Expr.areTold elements h)
  | .tuple elements _, h => Expr.Shape.isTold_tuple (Expr.areTold elements h)
  | .listComp element clauses, h =>
    Expr.Shape.isTold_listComp (Expr.isTold element h.1) (Comprehension.areTold clauses h.2)
  | .setComp element clauses, h =>
    Expr.Shape.isTold_setComp (Expr.isTold element h.1) (Comprehension.areTold clauses h.2)
  | .dictComp key value clauses, h =>
    Expr.Shape.isTold_dictComp (Expr.isTold key h.1) (Expr.isTold value h.2.1)
      (Comprehension.areTold clauses h.2.2)
  | .generator element clauses, h =>
    Expr.Shape.isTold_generator (Expr.isTold element h.1) (Comprehension.areTold clauses h.2)
  | .await value, h => Expr.Shape.isTold_await (Expr.isTold value h)
  | .yield value, h => Expr.Shape.isTold_yield (Expr.isToldOption value h)
  | .yieldFrom value, h => Expr.Shape.isTold_yieldFrom (Expr.isTold value h)
  | .compare left rest, h =>
    Expr.Shape.isTold_compare (Expr.isTold left h.1) (Comparison.areTold rest h.2)
  | .call callee arguments keywords, h =>
    Expr.Shape.isTold_call (Expr.isTold callee h.1) (Expr.areTold arguments h.2.1)
      (Keyword.areTold keywords h.2.2)
  | .field value _ spec, h =>
    Expr.Shape.isTold_field (Expr.isTold value h.1) (FormatSpec.isToldOption spec h.2)
  | .fstring values, h => Expr.Shape.isTold_fstring (Expr.areTold values h)
  | .attribute value _ _, h => Expr.Shape.isTold_attribute (Expr.isTold value h.1) h.2
  | .subscript value index _, h =>
    Expr.Shape.isTold_subscript (Expr.isTold value h.1) (Expr.isTold index h.2)
  | .starred value _, h => Expr.Shape.isTold_starred (Expr.isTold value h)
  | .slice lower upper step, h =>
    Expr.Shape.isTold_slice (Expr.isToldOption lower h.1) (Expr.isToldOption upper h.2.1)
      (Expr.isToldOption step h.2.2)

/-- Legible expressions are told apart one by one. -/
theorem Expr.areTold : ∀ as : List Expr, Expr.LegibleAll numbers as → Expr.AreTold numbers as
  | [], _ => Expr.areTold_nil
  | a :: as, h => Expr.areTold_cons (Expr.isTold a h.1) (Expr.areTold as h.2)

/-- Legible expressions that may be missing are told apart. -/
theorem Expr.isToldOption : ∀ a : Option Expr, Expr.LegibleOption numbers a →
    Expr.IsToldOption numbers a
  | none, _ => Expr.isToldOption_none
  | some a, h => Expr.isToldOption_some (Expr.isTold a h)

/-- Legible dict items are told apart one by one. -/
theorem DictItem.areTold : ∀ as : List DictItem, DictItem.LegibleAll numbers as →
    DictItem.AreTold numbers as
  | [], _ => DictItem.areTold_nil
  | .entry key value :: as, h =>
    DictItem.areTold_entry h.1 (Expr.isTold key h.1) (Expr.isTold value h.2.1)
      (DictItem.areTold as h.2.2)
  | .unpack value :: as, h =>
    DictItem.areTold_unpack (Expr.isTold value h.1) (DictItem.areTold as h.2)

/-- Legible comparisons are told apart one by one. -/
theorem Comparison.areTold : ∀ as : List Comparison, Comparison.LegibleAll numbers as →
    Comparison.AreTold numbers as
  | [], _ => Comparison.areTold_nil
  | .mk _ operand :: as, h =>
    Comparison.areTold_cons (Expr.isTold operand h.1) (Comparison.areTold as h.2)

/-- Legible clauses are told apart. -/
theorem Comprehension.isTold : ∀ a : Comprehension, a.Legible numbers → a.IsTold numbers
  | .mk _ target iterable conditions _, h =>
    Comprehension.isTold_mk (Expr.isTold target h.1) (Expr.isTold iterable h.2.1)
      (Expr.areTold conditions h.2.2)

/-- Legible clauses are told apart one by one. -/
theorem Comprehension.areTold : ∀ as : List Comprehension, Comprehension.LegibleAll numbers as →
    Comprehension.AreTold numbers as
  | [], _ => Comprehension.areTold_nil
  | a :: as, h =>
    Comprehension.areTold_cons (Comprehension.isTold a h.1) (Comprehension.areTold as h.2)

/-- Legible keyword arguments are told apart. -/
theorem Keyword.isTold : ∀ a : Keyword, a.Legible numbers → a.IsTold numbers
  | .mk _ _ value, h => Keyword.isTold_mk h.1 (Expr.isTold value h.2)

/-- Legible keyword arguments are told apart one by one. -/
theorem Keyword.areTold : ∀ as : List Keyword, Keyword.LegibleAll numbers as →
    Keyword.AreTold numbers as
  | [], _ => Keyword.areTold_nil
  | a :: as, h => Keyword.areTold_cons (Keyword.isTold a h.1) (Keyword.areTold as h.2)

/-- Legible format specifications that may be missing are told apart. -/
theorem FormatSpec.isToldOption : ∀ a : Option FormatSpec, FormatSpec.LegibleOption numbers a →
    FormatSpec.IsToldOption numbers a
  | none, _ => FormatSpec.isToldOption_none
  | some (.mk _ values), h => FormatSpec.isToldOption_some (Expr.areTold values h)

/-- Legible parameters are told apart. -/
theorem Parameter.isTold : ∀ a : Parameter, a.Legible numbers → a.IsTold numbers
  | .mk _ _ hint, h => Parameter.isTold_mk (Expr.isToldOption hint h.2)

/-- Legible parameters are told apart one by one. -/
theorem Parameter.areTold : ∀ as : List Parameter, Parameter.LegibleAll numbers as →
    Parameter.AreTold numbers as
  | [], _ => Parameter.areTold_nil
  | a :: as, h => Parameter.areTold_cons (Parameter.isTold a h.1) (Parameter.areTold as h.2)

/-- Legible parameters that may be missing are told apart. -/
theorem Parameter.isToldOption : ∀ a : Option Parameter, Parameter.LegibleOption numbers a →
    Parameter.IsToldOption numbers a
  | none, _ => Parameter.isToldOption_none
  | some a, h => Parameter.isToldOption_some (Parameter.isTold a h)

/-- Legible keyword-only parameters are told apart one by one. -/
theorem KeywordOnly.areTold : ∀ as : List KeywordOnly, KeywordOnly.LegibleAll numbers as →
    KeywordOnly.AreTold numbers as
  | [], _ => KeywordOnly.areTold_nil
  | .mk p none :: as, h =>
    KeywordOnly.areTold_none (Parameter.isTold p h.1) (KeywordOnly.areTold as h.2.2)
  | .mk p (some default) :: as, h =>
    KeywordOnly.areTold_some h.2.1 (Parameter.isTold p h.1) (Expr.isTold default h.2.1)
      (KeywordOnly.areTold as h.2.2)

/-- The legible parameters of functions are told apart. -/
theorem Parameters.isTold : ∀ a : Parameters, a.Legible numbers → a.IsTold numbers
  | .mk positionalOnly positional variadic keywordOnly variadicKeyword defaults, h =>
    Parameters.isTold_mk (Parameter.areTold positionalOnly h.1)
      (Parameter.areTold positional h.2.1) (Parameter.isToldOption variadic h.2.2.1)
      (KeywordOnly.areTold keywordOnly h.2.2.2.1)
      (Parameter.isToldOption variadicKeyword h.2.2.2.2.1) (Expr.areTold defaults h.2.2.2.2.2)

end

end

end SyntaxTree
