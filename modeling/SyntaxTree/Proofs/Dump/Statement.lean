import SyntaxTree.Proofs.Dump.Pattern

/-
# Statements by their branches

Legible statements whose dumps have the same tree of lines are equal apart from positions.
-/

namespace SyntaxTree

/-- Shapes of statements with equal branches are of the same kind. -/
theorem Stmt.Shape.kind_eq_of_branch_eq {s t : Stmt.Shape}
    (h : (Stmt.Shape.doc s).branch = (Stmt.Shape.doc t).branch) :
    (s.outline .none).kind = (t.outline .none).kind := by
  have hkind := congrArg NodeKind.ofLabel? (Doc.label_eq_of_branch_eq h)
  rw [Stmt.Shape.ofLabel?_label, Stmt.Shape.ofLabel?_label] at hkind
  exact Option.some.inj hkind

/-! ## Parts -/

/-- Items are told apart one by one if each of them is. -/
theorem Doc.map_eq_of_branches_eq {α : Type} {doc : α → Doc} {bare : α → α} :
    ∀ {as bs : List α},
    (∀ a ∈ as, ∀ b ∈ bs, (doc a).branch = (doc b).branch → bare a = bare b) →
    Doc.entryBranches (Doc.entries doc as) = Doc.entryBranches (Doc.entries doc bs) →
    as.map bare = bs.map bare
  | [], [], _, _ => rfl
  | [], _ :: _, _, h => nomatch h
  | _ :: _, [], _, h => nomatch h
  | a :: as, b :: bs, htold, h => by
    obtain ⟨hfirst, hrest⟩ := Doc.present_cons_inj.mp h
    rw [List.map_cons, List.map_cons, htold a (by simp) b (by simp) hfirst,
      Doc.map_eq_of_branches_eq (fun c hc d hd => htold c (by simp [hc]) d (by simp [hd])) hrest]

/-- Imported names that are told by their branches. -/
def Alias.AreTold (as : List Alias) : Prop :=
  ∀ bs : List Alias, (∀ b ∈ bs, b.Legible) →
    Doc.entryBranches (Doc.entries Alias.doc as) = Doc.entryBranches (Doc.entries Alias.doc bs) →
    as.map Alias.bare = bs.map Alias.bare

/-- Legible imported names with equal branches are equal apart from positions. -/
theorem Alias.bare_eq_of_branch_eq {a b : Alias} (ha : a.Legible) (hb : b.Legible)
    (h : a.doc.branch = b.doc.branch) : a.bare = b.bare := by
  obtain ⟨hname, hrenamed⟩ := label_word_inj (text "asname=") ha.1.space_not_mem
    hb.1.space_not_mem (Doc.label_eq_of_branch_eq h)
  have hrenamed := optionalName_inj ha.2 hb.2 hrenamed
  simp only [Alias.bare, hname, hrenamed]

/-- Legible imported names are told apart one by one. -/
theorem Alias.areTold {as : List Alias} (h : ∀ a ∈ as, a.Legible) : Alias.AreTold as := by
  intro bs hbs hbranches
  refine Doc.map_eq_of_branches_eq (fun a ha b hb hbranch => ?_) hbranches
  exact Alias.bare_eq_of_branch_eq (h a ha) (hbs b hb) hbranch

section

variable (numbers : Set Binary64)

/-- Items of a with statement that are told by their branches. -/
def WithItem.AreTold (as : List WithItem) : Prop :=
  ∀ bs : List WithItem, (∀ b ∈ bs, b.Legible numbers) →
    Doc.entryBranches (Doc.entries WithItem.doc as) =
      Doc.entryBranches (Doc.entries WithItem.doc bs) →
    as.map WithItem.bare = bs.map WithItem.bare

/-- Type parameters that are told by their branches. -/
def TypeParam.AreTold (as : List TypeParam) : Prop :=
  ∀ bs : List TypeParam, (∀ b ∈ bs, b.Legible numbers) →
    Doc.entryBranches (Doc.entries TypeParam.doc as) =
      Doc.entryBranches (Doc.entries TypeParam.doc bs) →
    as.map TypeParam.bare = bs.map TypeParam.bare

/-- A statement that only statements equal to it share a branch with. -/
def Stmt.IsTold (a : Stmt) : Prop :=
  ∀ b : Stmt, b.Legible numbers → a.doc.branch = b.doc.branch → a.bare = b.bare

/-- A shape that only shapes equal to it share a branch with. -/
def Stmt.Shape.IsTold (s : Stmt.Shape) : Prop :=
  ∀ t : Stmt.Shape, t.Legible numbers → (Stmt.Shape.doc s).branch = (Stmt.Shape.doc t).branch →
    s.bare = t.bare

/-- Statements that only statements equal to them share their branches with. -/
def Stmt.AreTold (as : List Stmt) : Prop :=
  ∀ bs : List Stmt, Stmt.LegibleAll numbers bs →
    Doc.entryBranches (Stmt.docs as) = Doc.entryBranches (Stmt.docs bs) →
    Stmt.bareAll as = Stmt.bareAll bs

/-- A case that only cases equal to it share a branch with. -/
def MatchCase.IsTold (a : MatchCase) : Prop :=
  ∀ b : MatchCase, b.Legible numbers → a.doc.branch = b.doc.branch → a.bare = b.bare

/-- Cases that only cases equal to them share their branches with. -/
def MatchCase.AreTold (as : List MatchCase) : Prop :=
  ∀ bs : List MatchCase, MatchCase.LegibleAll numbers bs →
    Doc.entryBranches (MatchCase.docs as) = Doc.entryBranches (MatchCase.docs bs) →
    MatchCase.bareAll as = MatchCase.bareAll bs

/-- A handler that only handlers equal to it share a branch with. -/
def ExceptHandler.IsTold (a : ExceptHandler) : Prop :=
  ∀ b : ExceptHandler, b.Legible numbers → a.doc.branch = b.doc.branch → a.bare = b.bare

/-- Handlers that only handlers equal to them share their branches with. -/
def ExceptHandler.AreTold (as : List ExceptHandler) : Prop :=
  ∀ bs : List ExceptHandler, ExceptHandler.LegibleAll numbers bs →
    Doc.entryBranches (ExceptHandler.docs as) = Doc.entryBranches (ExceptHandler.docs bs) →
    ExceptHandler.bareAll as = ExceptHandler.bareAll bs

end

section

variable {numbers : Set Binary64}

/-- Legible items of with statements with equal branches are equal apart from positions. -/
theorem WithItem.bare_eq_of_branch_eq (hnum : Set.InjOn FloatFormat.exact.write numbers)
    {a b : WithItem} (ha : a.Legible numbers) (hb : b.Legible numbers)
    (h : a.doc.branch = b.doc.branch) : a.bare = b.bare := by
  obtain ⟨-, hfields⟩ :=
    Doc.parts_of_branch_eq ["context_expr", "optional_vars"] (by decide) rfl rfl h
  simp only [Doc.named_cons_inj, Doc.present_cons_inj, List.map_nil, and_true] at hfields
  rw [WithItem.bare, WithItem.bare, Expr.isTold hnum a.context ha.1 b.context hb.1 hfields.1,
    Expr.isToldOption hnum a.target ha.2 b.target hb.2 hfields.2]

/-- Legible items of with statements are told apart one by one. -/
theorem WithItem.areTold (hnum : Set.InjOn FloatFormat.exact.write numbers) {as : List WithItem}
    (h : ∀ a ∈ as, a.Legible numbers) : WithItem.AreTold numbers as := by
  intro bs hbs hbranches
  refine Doc.map_eq_of_branches_eq (fun a ha b hb hbranch => ?_) hbranches
  exact WithItem.bare_eq_of_branch_eq hnum (h a ha) (hbs b hb) hbranch

/-- Legible type parameters with equal branches are equal apart from positions. -/
theorem TypeParam.bare_eq_of_branch_eq (hnum : Set.InjOn FloatFormat.exact.write numbers)
    {a b : TypeParam} (ha : a.Legible numbers) (hb : b.Legible numbers)
    (h : a.doc.branch = b.doc.branch) : a.bare = b.bare := by
  obtain ⟨hlabel, hfields⟩ :=
    Doc.parts_of_branch_eq ["bound", "default_value"] (by decide) rfl rfl h
  simp only [Doc.named_cons_inj, List.map_nil, and_true] at hfields
  have hspace : ∀ kind : TypeParamKind, Byte.space ∉ kind.name := by
    intro kind
    cases kind <;> decide
  obtain ⟨hkind, hname⟩ := first_word_inj (text "name=") (hspace a.kind) (hspace b.kind) hlabel
  rw [TypeParam.bare, TypeParam.bare, TypeParamKind.name_injective hkind, hname,
    Expr.isToldOption hnum a.bound ha.2.1 b.bound hb.2.1 hfields.1,
    Expr.isToldOption hnum a.default ha.2.2 b.default hb.2.2 hfields.2]

/-- Legible type parameters are told apart one by one. -/
theorem TypeParam.areTold (hnum : Set.InjOn FloatFormat.exact.write numbers)
    {as : List TypeParam} (h : ∀ a ∈ as, a.Legible numbers) : TypeParam.AreTold numbers as := by
  intro bs hbs hbranches
  refine Doc.map_eq_of_branches_eq (fun a ha b hb hbranch => ?_) hbranches
  exact TypeParam.bare_eq_of_branch_eq hnum (h a ha) (hbs b hb) hbranch

theorem Stmt.areTold_nil : Stmt.AreTold numbers [] := by
  intro bs _ h
  cases bs with
  | nil => rfl
  | cons _ _ => exact nomatch h

/-- Statements are told apart one by one. -/
theorem Stmt.areTold_cons {a : Stmt} {as : List Stmt}
    (ha : Stmt.IsTold numbers a) (has : Stmt.AreTold numbers as) :
    Stmt.AreTold numbers (a :: as) := by
  intro bs hbs h
  cases bs with
  | nil => exact nomatch h
  | cons b bs =>
    obtain ⟨hfirst, hrest⟩ := Doc.present_cons_inj.mp h
    rw [Stmt.bareAll, Stmt.bareAll, ha b hbs.1 hfirst, has bs hbs.2 hrest]

theorem MatchCase.areTold_nil : MatchCase.AreTold numbers [] := by
  intro bs _ h
  cases bs with
  | nil => rfl
  | cons _ _ => exact nomatch h

/-- Cases are told apart one by one. -/
theorem MatchCase.areTold_cons {a : MatchCase} {as : List MatchCase}
    (ha : MatchCase.IsTold numbers a) (has : MatchCase.AreTold numbers as) :
    MatchCase.AreTold numbers (a :: as) := by
  intro bs hbs h
  cases bs with
  | nil => exact nomatch h
  | cons b bs =>
    obtain ⟨hfirst, hrest⟩ := Doc.present_cons_inj.mp h
    rw [MatchCase.bareAll, MatchCase.bareAll, ha b hbs.1 hfirst, has bs hbs.2 hrest]

theorem ExceptHandler.areTold_nil : ExceptHandler.AreTold numbers [] := by
  intro bs _ h
  cases bs with
  | nil => rfl
  | cons _ _ => exact nomatch h

/-- Handlers are told apart one by one. -/
theorem ExceptHandler.areTold_cons {a : ExceptHandler} {as : List ExceptHandler}
    (ha : ExceptHandler.IsTold numbers a) (has : ExceptHandler.AreTold numbers as) :
    ExceptHandler.AreTold numbers (a :: as) := by
  intro bs hbs h
  cases bs with
  | nil => exact nomatch h
  | cons b bs =>
    obtain ⟨hfirst, hrest⟩ := Doc.present_cons_inj.mp h
    rw [ExceptHandler.bareAll, ExceptHandler.bareAll, ha b hbs.1 hfirst, has bs hbs.2 hrest]

/-- Cases are told apart if their parts are. -/
theorem MatchCase.isTold_mk {span : Span} {pattern : Pattern} {guard : Option Expr}
    {body : List Stmt} (hpattern : Pattern.IsTold numbers pattern)
    (hguard : Expr.IsToldOption numbers guard) (hbody : Stmt.AreTold numbers body) :
    MatchCase.IsTold numbers (.mk span pattern guard body) := by
  rintro ⟨_, pattern', guard', body'⟩ hb h
  obtain ⟨-, hfields⟩ :=
    Doc.parts_of_branch_eq ["pattern", "guard", "body"] (by decide) rfl rfl h
  simp only [Doc.named_cons_inj, Doc.present_cons_inj, List.map_nil, and_true] at hfields
  rw [MatchCase.bare, MatchCase.bare, hpattern pattern' hb.1 hfields.1,
    hguard guard' hb.2.1 hfields.2.1, hbody body' hb.2.2 hfields.2.2]

/-- Handlers with legible names are told apart if their parts are. -/
theorem ExceptHandler.isTold_mk {span : Span} {type : Option Expr} {name : Option Bytes}
    {body : List Stmt} (htype : Expr.IsToldOption numbers type) (hname : IsLegibleOption name)
    (hbody : Stmt.AreTold numbers body) :
    ExceptHandler.IsTold numbers (.mk span type name body) := by
  rintro ⟨_, type', name', body'⟩ hb h
  obtain ⟨hlabel, hfields⟩ := Doc.parts_of_branch_eq ["type", "body"] (by decide) rfl rfl h
  simp only [Doc.named_cons_inj, List.map_nil, and_true] at hfields
  obtain rfl := optionalName_inj hname hb.2.1 (List.append_cancel_left hlabel)
  rw [ExceptHandler.bare, ExceptHandler.bare, htype type' hb.1 hfields.1,
    hbody body' hb.2.2 hfields.2]

/-! ## One kind at a time -/

/-- Functions are told apart if their parts are. -/
theorem Stmt.Shape.isTold_functionDef {isAsync : Bool} {name : Bytes} {decorators : List Expr}
    {typeParams : List TypeParam} {parameters : Parameters} {returns : Option Expr}
    {body : List Stmt} (hdecorators : Expr.AreTold numbers decorators)
    (htypeParams : TypeParam.AreTold numbers typeParams)
    (hparameters : Parameters.IsTold numbers parameters)
    (hreturns : Expr.IsToldOption numbers returns) (hbody : Stmt.AreTold numbers body) :
    Stmt.Shape.IsTold numbers
      (.functionDef isAsync name decorators typeParams parameters returns body) := by
  intro t ht h
  cases t with
  | functionDef isAsync' name' decorators' typeParams' parameters' returns' body' =>
    obtain ⟨hlabel, hfields⟩ :=
      Doc.parts_of_branch_eq ["decorators", "type_params", "args", "returns", "body"]
        (by decide) rfl rfl h
    simp only [Doc.named_cons_inj, Doc.present_cons_inj, List.map_nil, and_true] at hfields
    obtain ⟨hasync, rfl⟩ := first_word_inj (text "name=") (by cases isAsync <;> decide)
      (by cases isAsync' <;> decide) hlabel
    obtain rfl := labelIf_inj (by decide) hasync
    obtain ⟨h₁, h₂, h₃, h₄, h₅⟩ := hfields
    obtain ⟨-, ht₁, ht₂, ht₃, ht₄, ht₅⟩ := ht
    rw [Stmt.Shape.bare, Stmt.Shape.bare, hdecorators decorators' ht₁ h₁,
      htypeParams typeParams' ht₂ h₂, hparameters parameters' ht₃ h₃, hreturns returns' ht₄ h₄,
      hbody body' ht₅ h₅]
  | _ => exact nomatch Stmt.Shape.kind_eq_of_branch_eq h

/-- Classes are told apart if their parts are. -/
theorem Stmt.Shape.isTold_classDef {name : Bytes} {decorators : List Expr}
    {typeParams : List TypeParam} {bases : List Expr} {keywords : List Keyword} {body : List Stmt}
    (hdecorators : Expr.AreTold numbers decorators)
    (htypeParams : TypeParam.AreTold numbers typeParams) (hbases : Expr.AreTold numbers bases)
    (hkeywords : Keyword.AreTold numbers keywords) (hbody : Stmt.AreTold numbers body) :
    Stmt.Shape.IsTold numbers (.classDef name decorators typeParams bases keywords body) := by
  intro t ht h
  cases t with
  | classDef name' decorators' typeParams' bases' keywords' body' =>
    obtain ⟨hlabel, hfields⟩ :=
      Doc.parts_of_branch_eq ["decorators", "type_params", "bases", "keywords", "body"]
        (by decide) rfl rfl h
    simp only [Doc.named_cons_inj, List.map_nil, and_true] at hfields
    obtain rfl := List.append_cancel_left hlabel
    obtain ⟨h₁, h₂, h₃, h₄, h₅⟩ := hfields
    obtain ⟨-, ht₁, ht₂, ht₃, ht₄, ht₅⟩ := ht
    rw [Stmt.Shape.bare, Stmt.Shape.bare, hdecorators decorators' ht₁ h₁,
      htypeParams typeParams' ht₂ h₂, hbases bases' ht₃ h₃, hkeywords keywords' ht₄ h₄,
      hbody body' ht₅ h₅]
  | _ => exact nomatch Stmt.Shape.kind_eq_of_branch_eq h

/-- Return statements are told apart if their parts are. -/
theorem Stmt.Shape.isTold_returnValue {value : Option Expr}
    (hvalue : Expr.IsToldOption numbers value) :
    Stmt.Shape.IsTold numbers (.returnValue value) := by
  intro t ht h
  cases t with
  | returnValue value' =>
    obtain ⟨-, hfields⟩ := Doc.parts_of_branch_eq ["value"] (by decide) rfl rfl h
    simp only [Doc.named_cons_inj, List.map_nil, and_true] at hfields
    rw [Stmt.Shape.bare, Stmt.Shape.bare, hvalue value' ht hfields]
  | _ => exact nomatch Stmt.Shape.kind_eq_of_branch_eq h

/-- Delete statements are told apart if their parts are. -/
theorem Stmt.Shape.isTold_delete {targets : List Expr} (htargets : Expr.AreTold numbers targets) :
    Stmt.Shape.IsTold numbers (.delete targets) := by
  intro t ht h
  cases t with
  | delete targets' =>
    obtain ⟨-, hfields⟩ := Doc.parts_of_branch_eq ["targets"] (by decide) rfl rfl h
    simp only [Doc.named_cons_inj, List.map_nil, and_true] at hfields
    rw [Stmt.Shape.bare, Stmt.Shape.bare, htargets targets' ht hfields]
  | _ => exact nomatch Stmt.Shape.kind_eq_of_branch_eq h

/-- Assignments are told apart if their parts are. -/
theorem Stmt.Shape.isTold_assign {targets : List Expr} {value : Expr}
    (htargets : Expr.AreTold numbers targets) (hvalue : Expr.IsTold numbers value) :
    Stmt.Shape.IsTold numbers (.assign targets value) := by
  intro t ht h
  cases t with
  | assign targets' value' =>
    obtain ⟨-, hfields⟩ := Doc.parts_of_branch_eq ["targets", "value"] (by decide) rfl rfl h
    simp only [Doc.named_cons_inj, Doc.present_cons_inj, List.map_nil, and_true] at hfields
    rw [Stmt.Shape.bare, Stmt.Shape.bare, htargets targets' ht.1 hfields.1,
      hvalue value' ht.2 hfields.2]
  | _ => exact nomatch Stmt.Shape.kind_eq_of_branch_eq h

/-- Augmented assignments are told apart if their parts are. -/
theorem Stmt.Shape.isTold_augmentedAssign {target : Expr} {op : BinaryOperator} {value : Expr}
    (htarget : Expr.IsTold numbers target) (hvalue : Expr.IsTold numbers value) :
    Stmt.Shape.IsTold numbers (.augmentedAssign target op value) := by
  intro t ht h
  cases t with
  | augmentedAssign target' op' value' =>
    obtain ⟨hlabel, hfields⟩ := Doc.parts_of_branch_eq ["target", "value"] (by decide) rfl rfl h
    simp only [Doc.named_cons_inj, Doc.present_cons_inj, List.map_nil, and_true] at hfields
    obtain rfl := BinaryOperator.name_injective (List.append_cancel_left hlabel)
    rw [Stmt.Shape.bare, Stmt.Shape.bare, htarget target' ht.1 hfields.1,
      hvalue value' ht.2 hfields.2]
  | _ => exact nomatch Stmt.Shape.kind_eq_of_branch_eq h

/-- Annotations are told apart if their parts are. -/
theorem Stmt.Shape.isTold_annotatedAssign {target hint : Expr} {value : Option Expr} {simple : Bool}
    (htarget : Expr.IsTold numbers target) (hhint : Expr.IsTold numbers hint)
    (hvalue : Expr.IsToldOption numbers value) :
    Stmt.Shape.IsTold numbers (.annotatedAssign target hint value simple) := by
  intro t ht h
  cases t with
  | annotatedAssign target' hint' value' simple' =>
    obtain ⟨hlabel, hfields⟩ :=
      Doc.parts_of_branch_eq ["target", "annotation", "value"] (by decide) rfl rfl h
    simp only [Doc.named_cons_inj, Doc.present_cons_inj, List.map_nil, and_true] at hfields
    obtain rfl := labelIf_inj (by decide) hlabel
    rw [Stmt.Shape.bare, Stmt.Shape.bare, htarget target' ht.1 hfields.1,
      hhint hint' ht.2.1 hfields.2.1, hvalue value' ht.2.2 hfields.2.2]
  | _ => exact nomatch Stmt.Shape.kind_eq_of_branch_eq h

/-- For loops are told apart if their parts are. -/
theorem Stmt.Shape.isTold_forLoop {isAsync : Bool} {target iterable : Expr}
    {body orelse : List Stmt} (htarget : Expr.IsTold numbers target)
    (hiterable : Expr.IsTold numbers iterable) (hbody : Stmt.AreTold numbers body)
    (horelse : Stmt.AreTold numbers orelse) :
    Stmt.Shape.IsTold numbers (.forLoop isAsync target iterable body orelse) := by
  intro t ht h
  cases t with
  | forLoop isAsync' target' iterable' body' orelse' =>
    obtain ⟨hlabel, hfields⟩ :=
      Doc.parts_of_branch_eq ["target", "iter", "body", "orelse"] (by decide) rfl rfl h
    simp only [Doc.named_cons_inj, Doc.present_cons_inj, List.map_nil, and_true] at hfields
    obtain rfl := labelIf_inj (by decide) hlabel
    obtain ⟨h₁, h₂, h₃, h₄⟩ := hfields
    obtain ⟨ht₁, ht₂, ht₃, ht₄⟩ := ht
    rw [Stmt.Shape.bare, Stmt.Shape.bare, htarget target' ht₁ h₁, hiterable iterable' ht₂ h₂,
      hbody body' ht₃ h₃, horelse orelse' ht₄ h₄]
  | _ => exact nomatch Stmt.Shape.kind_eq_of_branch_eq h

/-- While loops are told apart if their parts are. -/
theorem Stmt.Shape.isTold_whileLoop {test : Expr} {body orelse : List Stmt}
    (htest : Expr.IsTold numbers test) (hbody : Stmt.AreTold numbers body)
    (horelse : Stmt.AreTold numbers orelse) :
    Stmt.Shape.IsTold numbers (.whileLoop test body orelse) := by
  intro t ht h
  cases t with
  | whileLoop test' body' orelse' =>
    obtain ⟨-, hfields⟩ := Doc.parts_of_branch_eq ["test", "body", "orelse"] (by decide) rfl rfl h
    simp only [Doc.named_cons_inj, Doc.present_cons_inj, List.map_nil, and_true] at hfields
    rw [Stmt.Shape.bare, Stmt.Shape.bare, htest test' ht.1 hfields.1,
      hbody body' ht.2.1 hfields.2.1, horelse orelse' ht.2.2 hfields.2.2]
  | _ => exact nomatch Stmt.Shape.kind_eq_of_branch_eq h

/-- Conditional statements are told apart if their parts are. -/
theorem Stmt.Shape.isTold_conditional {test : Expr} {body orelse : List Stmt}
    (htest : Expr.IsTold numbers test) (hbody : Stmt.AreTold numbers body)
    (horelse : Stmt.AreTold numbers orelse) :
    Stmt.Shape.IsTold numbers (.conditional test body orelse) := by
  intro t ht h
  cases t with
  | conditional test' body' orelse' =>
    obtain ⟨-, hfields⟩ := Doc.parts_of_branch_eq ["test", "body", "orelse"] (by decide) rfl rfl h
    simp only [Doc.named_cons_inj, Doc.present_cons_inj, List.map_nil, and_true] at hfields
    rw [Stmt.Shape.bare, Stmt.Shape.bare, htest test' ht.1 hfields.1,
      hbody body' ht.2.1 hfields.2.1, horelse orelse' ht.2.2 hfields.2.2]
  | _ => exact nomatch Stmt.Shape.kind_eq_of_branch_eq h

/-- With statements are told apart if their parts are. -/
theorem Stmt.Shape.isTold_withBlock {isAsync : Bool} {items : List WithItem} {body : List Stmt}
    (hitems : WithItem.AreTold numbers items) (hbody : Stmt.AreTold numbers body) :
    Stmt.Shape.IsTold numbers (.withBlock isAsync items body) := by
  intro t ht h
  cases t with
  | withBlock isAsync' items' body' =>
    obtain ⟨hlabel, hfields⟩ := Doc.parts_of_branch_eq ["items", "body"] (by decide) rfl rfl h
    simp only [Doc.named_cons_inj, List.map_nil, and_true] at hfields
    obtain rfl := labelIf_inj (by decide) hlabel
    rw [Stmt.Shape.bare, Stmt.Shape.bare, hitems items' ht.1 hfields.1, hbody body' ht.2 hfields.2]
  | _ => exact nomatch Stmt.Shape.kind_eq_of_branch_eq h

/-- Match statements are told apart if their parts are. -/
theorem Stmt.Shape.isTold_matchBlock {subject : Expr} {cases : List MatchCase}
    (hsubject : Expr.IsTold numbers subject) (hcases : MatchCase.AreTold numbers cases) :
    Stmt.Shape.IsTold numbers (.matchBlock subject cases) := by
  intro t ht h
  cases t with
  | matchBlock subject' cases' =>
    obtain ⟨-, hfields⟩ := Doc.parts_of_branch_eq ["subject", "cases"] (by decide) rfl rfl h
    simp only [Doc.named_cons_inj, Doc.present_cons_inj, List.map_nil, and_true] at hfields
    rw [Stmt.Shape.bare, Stmt.Shape.bare, hsubject subject' ht.1 hfields.1,
      hcases cases' ht.2 hfields.2]
  | _ => exact nomatch Stmt.Shape.kind_eq_of_branch_eq h

/-- Raise statements are told apart if their parts are. -/
theorem Stmt.Shape.isTold_raise {exception cause : Option Expr}
    (hexception : Expr.IsToldOption numbers exception) (hcause : Expr.IsToldOption numbers cause) :
    Stmt.Shape.IsTold numbers (.raise exception cause) := by
  intro t ht h
  cases t with
  | raise exception' cause' =>
    obtain ⟨-, hfields⟩ := Doc.parts_of_branch_eq ["exc", "cause"] (by decide) rfl rfl h
    simp only [Doc.named_cons_inj, List.map_nil, and_true] at hfields
    rw [Stmt.Shape.bare, Stmt.Shape.bare, hexception exception' ht.1 hfields.1,
      hcause cause' ht.2 hfields.2]
  | _ => exact nomatch Stmt.Shape.kind_eq_of_branch_eq h

/-- Try statements are told apart if their parts are. -/
theorem Stmt.Shape.isTold_tryBlock {isStar : Bool} {body : List Stmt}
    {handlers : List ExceptHandler} {orelse finalbody : List Stmt}
    (hbody : Stmt.AreTold numbers body) (hhandlers : ExceptHandler.AreTold numbers handlers)
    (horelse : Stmt.AreTold numbers orelse) (hfinalbody : Stmt.AreTold numbers finalbody) :
    Stmt.Shape.IsTold numbers (.tryBlock isStar body handlers orelse finalbody) := by
  intro t ht h
  cases t with
  | tryBlock isStar' body' handlers' orelse' finalbody' =>
    obtain ⟨hlabel, hfields⟩ :=
      Doc.parts_of_branch_eq ["body", "handlers", "orelse", "finalbody"] (by decide) rfl rfl h
    simp only [Doc.named_cons_inj, List.map_nil, and_true] at hfields
    obtain rfl := labelIf_inj (by decide) hlabel
    obtain ⟨h₁, h₂, h₃, h₄⟩ := hfields
    obtain ⟨ht₁, ht₂, ht₃, ht₄⟩ := ht
    rw [Stmt.Shape.bare, Stmt.Shape.bare, hbody body' ht₁ h₁, hhandlers handlers' ht₂ h₂,
      horelse orelse' ht₃ h₃, hfinalbody finalbody' ht₄ h₄]
  | _ => exact nomatch Stmt.Shape.kind_eq_of_branch_eq h

/-- Assertions are told apart if their parts are. -/
theorem Stmt.Shape.isTold_assertion {test : Expr} {message : Option Expr}
    (htest : Expr.IsTold numbers test) (hmessage : Expr.IsToldOption numbers message) :
    Stmt.Shape.IsTold numbers (.assertion test message) := by
  intro t ht h
  cases t with
  | assertion test' message' =>
    obtain ⟨-, hfields⟩ := Doc.parts_of_branch_eq ["test", "msg"] (by decide) rfl rfl h
    simp only [Doc.named_cons_inj, Doc.present_cons_inj, List.map_nil, and_true] at hfields
    rw [Stmt.Shape.bare, Stmt.Shape.bare, htest test' ht.1 hfields.1,
      hmessage message' ht.2 hfields.2]
  | _ => exact nomatch Stmt.Shape.kind_eq_of_branch_eq h

/-- Imports are told apart if their parts are. -/
theorem Stmt.Shape.isTold_importNames {names : List Alias} (hnames : Alias.AreTold names) :
    Stmt.Shape.IsTold numbers (.importNames names) := by
  intro t ht h
  cases t with
  | importNames names' =>
    obtain ⟨-, hfields⟩ := Doc.parts_of_branch_eq ["names"] (by decide) rfl rfl h
    simp only [Doc.named_cons_inj, List.map_nil, and_true] at hfields
    rw [Stmt.Shape.bare, Stmt.Shape.bare, hnames names' ht hfields]
  | _ => exact nomatch Stmt.Shape.kind_eq_of_branch_eq h

/-- Imports from a module are told apart if their parts are. -/
theorem Stmt.Shape.isTold_importFrom {level : Nat} {source : Option Bytes} {names : List Alias}
    (hsource : IsLegibleOption source) (hnames : Alias.AreTold names) :
    Stmt.Shape.IsTold numbers (.importFrom level source names) := by
  intro t ht h
  cases t with
  | importFrom level' source' names' =>
    obtain ⟨hlabel, hfields⟩ := Doc.parts_of_branch_eq ["names"] (by decide) rfl rfl h
    simp only [Doc.named_cons_inj, List.map_nil, and_true] at hfields
    obtain ⟨hname, hlevel⟩ := label_word_inj (text "level=") (space_not_mem_optionalName hsource)
      (space_not_mem_optionalName ht.1) hlabel
    obtain rfl := optionalName_inj hsource ht.1 hname
    obtain rfl := ofNat_injective hlevel
    rw [Stmt.Shape.bare, Stmt.Shape.bare, hnames names' ht.2 hfields]
  | _ => exact nomatch Stmt.Shape.kind_eq_of_branch_eq h

/-- Expression statements are told apart if their parts are. -/
theorem Stmt.Shape.isTold_expression {value : Expr} (hvalue : Expr.IsTold numbers value) :
    Stmt.Shape.IsTold numbers (.expression value) := by
  intro t ht h
  cases t with
  | expression value' =>
    obtain ⟨-, hfields⟩ := Doc.parts_of_branch_eq ["value"] (by decide) rfl rfl h
    simp only [Doc.named_cons_inj, Doc.present_cons_inj, List.map_nil, and_true] at hfields
    rw [Stmt.Shape.bare, Stmt.Shape.bare, hvalue value' ht hfields]
  | _ => exact nomatch Stmt.Shape.kind_eq_of_branch_eq h

/-- Type aliases are told apart if their parts are. -/
theorem Stmt.Shape.isTold_typeAlias {name : Expr} {typeParams : List TypeParam} {value : Expr}
    (hname : Expr.IsTold numbers name) (htypeParams : TypeParam.AreTold numbers typeParams)
    (hvalue : Expr.IsTold numbers value) :
    Stmt.Shape.IsTold numbers (.typeAlias name typeParams value) := by
  intro t ht h
  cases t with
  | typeAlias name' typeParams' value' =>
    obtain ⟨-, hfields⟩ :=
      Doc.parts_of_branch_eq ["name", "type_params", "value"] (by decide) rfl rfl h
    simp only [Doc.named_cons_inj, Doc.present_cons_inj, List.map_nil, and_true] at hfields
    rw [Stmt.Shape.bare, Stmt.Shape.bare, hname name' ht.1 hfields.1,
      htypeParams typeParams' ht.2.1 hfields.2.1, hvalue value' ht.2.2 hfields.2.2]
  | _ => exact nomatch Stmt.Shape.kind_eq_of_branch_eq h

/-- Legible global statements are told apart. -/
theorem Stmt.Shape.isTold_globalNames {names : List Bytes} (hnames : ∀ s ∈ names, IsLegible s) :
    Stmt.Shape.IsTold numbers (.globalNames names) := by
  intro t ht h
  cases t with
  | globalNames names' =>
    have hlabel := List.append_cancel_left (Doc.label_eq_of_branch_eq h)
    rw [joinNames_inj hnames ht hlabel]
  | _ => exact nomatch Stmt.Shape.kind_eq_of_branch_eq h

/-- Legible nonlocal statements are told apart. -/
theorem Stmt.Shape.isTold_nonlocalNames {names : List Bytes}
    (hnames : ∀ s ∈ names, IsLegible s) : Stmt.Shape.IsTold numbers (.nonlocalNames names) := by
  intro t ht h
  cases t with
  | nonlocalNames names' =>
    have hlabel := List.append_cancel_left (Doc.label_eq_of_branch_eq h)
    rw [joinNames_inj hnames ht hlabel]
  | _ => exact nomatch Stmt.Shape.kind_eq_of_branch_eq h

/-- Empty lines are told apart by their number. -/
theorem Stmt.Shape.isTold_blank {count : Int} : Stmt.Shape.IsTold numbers (.blank count) := by
  intro t _ h
  cases t with
  | blank count' =>
    have hlabel := List.append_cancel_left (Doc.label_eq_of_branch_eq h)
    rw [ofInt_injective hlabel]
  | _ => exact nomatch Stmt.Shape.kind_eq_of_branch_eq h

/-- A pass statement is told by its label. -/
theorem Stmt.Shape.isTold_pass : Stmt.Shape.IsTold numbers .pass := by
  intro t _ h
  cases t with
  | pass => rfl
  | _ => exact nomatch Stmt.Shape.kind_eq_of_branch_eq h

/-- A break statement is told by its label. -/
theorem Stmt.Shape.isTold_breakLoop : Stmt.Shape.IsTold numbers .breakLoop := by
  intro t _ h
  cases t with
  | breakLoop => rfl
  | _ => exact nomatch Stmt.Shape.kind_eq_of_branch_eq h

/-- A continue statement is told by its label. -/
theorem Stmt.Shape.isTold_continueLoop : Stmt.Shape.IsTold numbers .continueLoop := by
  intro t _ h
  cases t with
  | continueLoop => rfl
  | _ => exact nomatch Stmt.Shape.kind_eq_of_branch_eq h

/-! ## All statements -/

variable (hnum : Set.InjOn FloatFormat.exact.write numbers)

include hnum

-- the numbers matter to the constants in expressions only
set_option linter.unusedSectionVars false

mutual

/-- Legible statements are told apart. -/
theorem Stmt.isTold : ∀ a : Stmt, a.Legible numbers → a.IsTold numbers
  | .node _ s, h => by
    rintro ⟨_, t⟩ ht heq
    exact congrArg (Stmt.node .none) (Stmt.Shape.isTold s h t ht heq)

/-- Legible shapes are told apart. -/
theorem Stmt.Shape.isTold : ∀ s : Stmt.Shape, s.Legible numbers → s.IsTold numbers
  | .functionDef _ _ decorators _ parameters returns body, h =>
    Stmt.Shape.isTold_functionDef (Expr.areTold hnum decorators h.2.1)
      (TypeParam.areTold hnum h.2.2.1) (Parameters.isTold hnum parameters h.2.2.2.1)
      (Expr.isToldOption hnum returns h.2.2.2.2.1) (Stmt.areTold body h.2.2.2.2.2)
  | .classDef _ decorators _ bases keywords body, h =>
    Stmt.Shape.isTold_classDef (Expr.areTold hnum decorators h.2.1) (TypeParam.areTold hnum h.2.2.1)
      (Expr.areTold hnum bases h.2.2.2.1) (Keyword.areTold hnum keywords h.2.2.2.2.1)
      (Stmt.areTold body h.2.2.2.2.2)
  | .returnValue value, h => Stmt.Shape.isTold_returnValue (Expr.isToldOption hnum value h)
  | .delete targets, h => Stmt.Shape.isTold_delete (Expr.areTold hnum targets h)
  | .assign targets value, h =>
    Stmt.Shape.isTold_assign (Expr.areTold hnum targets h.1) (Expr.isTold hnum value h.2)
  | .augmentedAssign target _ value, h =>
    Stmt.Shape.isTold_augmentedAssign (Expr.isTold hnum target h.1) (Expr.isTold hnum value h.2)
  | .annotatedAssign target hint value _, h =>
    Stmt.Shape.isTold_annotatedAssign (Expr.isTold hnum target h.1) (Expr.isTold hnum hint h.2.1)
      (Expr.isToldOption hnum value h.2.2)
  | .forLoop _ target iterable body orelse, h =>
    Stmt.Shape.isTold_forLoop (Expr.isTold hnum target h.1) (Expr.isTold hnum iterable h.2.1)
      (Stmt.areTold body h.2.2.1) (Stmt.areTold orelse h.2.2.2)
  | .whileLoop test body orelse, h =>
    Stmt.Shape.isTold_whileLoop (Expr.isTold hnum test h.1) (Stmt.areTold body h.2.1)
      (Stmt.areTold orelse h.2.2)
  | .conditional test body orelse, h =>
    Stmt.Shape.isTold_conditional (Expr.isTold hnum test h.1) (Stmt.areTold body h.2.1)
      (Stmt.areTold orelse h.2.2)
  | .withBlock _ _ body, h =>
    Stmt.Shape.isTold_withBlock (WithItem.areTold hnum h.1) (Stmt.areTold body h.2)
  | .matchBlock subject cases, h =>
    Stmt.Shape.isTold_matchBlock (Expr.isTold hnum subject h.1) (MatchCase.areTold cases h.2)
  | .raise exception cause, h =>
    Stmt.Shape.isTold_raise (Expr.isToldOption hnum exception h.1)
      (Expr.isToldOption hnum cause h.2)
  | .tryBlock _ body handlers orelse finalbody, h =>
    Stmt.Shape.isTold_tryBlock (Stmt.areTold body h.1) (ExceptHandler.areTold handlers h.2.1)
      (Stmt.areTold orelse h.2.2.1) (Stmt.areTold finalbody h.2.2.2)
  | .assertion test message, h =>
    Stmt.Shape.isTold_assertion (Expr.isTold hnum test h.1) (Expr.isToldOption hnum message h.2)
  | .importNames _, h => Stmt.Shape.isTold_importNames (Alias.areTold h)
  | .importFrom _ _ _, h => Stmt.Shape.isTold_importFrom h.1 (Alias.areTold h.2)
  | .expression value, h => Stmt.Shape.isTold_expression (Expr.isTold hnum value h)
  | .typeAlias name _ value, h =>
    Stmt.Shape.isTold_typeAlias (Expr.isTold hnum name h.1) (TypeParam.areTold hnum h.2.1)
      (Expr.isTold hnum value h.2.2)
  | .globalNames _, h => Stmt.Shape.isTold_globalNames h
  | .nonlocalNames _, h => Stmt.Shape.isTold_nonlocalNames h
  | .pass, _ => Stmt.Shape.isTold_pass
  | .breakLoop, _ => Stmt.Shape.isTold_breakLoop
  | .continueLoop, _ => Stmt.Shape.isTold_continueLoop
  | .blank _, _ => Stmt.Shape.isTold_blank

/-- Legible statements are told apart one by one. -/
theorem Stmt.areTold : ∀ as : List Stmt, Stmt.LegibleAll numbers as → Stmt.AreTold numbers as
  | [], _ => Stmt.areTold_nil
  | a :: as, h => Stmt.areTold_cons (Stmt.isTold a h.1) (Stmt.areTold as h.2)

/-- Legible cases are told apart. -/
theorem MatchCase.isTold : ∀ a : MatchCase, a.Legible numbers → a.IsTold numbers
  | .mk _ pattern guard body, h =>
    MatchCase.isTold_mk (Pattern.isTold hnum pattern h.1) (Expr.isToldOption hnum guard h.2.1)
      (Stmt.areTold body h.2.2)

/-- Legible cases are told apart one by one. -/
theorem MatchCase.areTold : ∀ as : List MatchCase, MatchCase.LegibleAll numbers as →
    MatchCase.AreTold numbers as
  | [], _ => MatchCase.areTold_nil
  | a :: as, h => MatchCase.areTold_cons (MatchCase.isTold a h.1) (MatchCase.areTold as h.2)

/-- Legible handlers are told apart. -/
theorem ExceptHandler.isTold : ∀ a : ExceptHandler, a.Legible numbers → a.IsTold numbers
  | .mk _ type _ body, h =>
    ExceptHandler.isTold_mk (Expr.isToldOption hnum type h.1) h.2.1 (Stmt.areTold body h.2.2)

/-- Legible handlers are told apart one by one. -/
theorem ExceptHandler.areTold : ∀ as : List ExceptHandler, ExceptHandler.LegibleAll numbers as →
    ExceptHandler.AreTold numbers as
  | [], _ => ExceptHandler.areTold_nil
  | a :: as, h =>
    ExceptHandler.areTold_cons (ExceptHandler.isTold a h.1) (ExceptHandler.areTold as h.2)

end

end

end SyntaxTree
