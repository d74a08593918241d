import SyntaxTree.Proofs.Dump.Expression

/-
# Patterns by their branches

Legible patterns whose dumps have the same tree of lines are equal apart from positions.
-/

namespace SyntaxTree

/-- Shapes of patterns with equal branches are of the same kind. -/
theorem Pattern.Shape.kind_eq_of_branch_eq {s t : Pattern.Shape}
    (h : (Pattern.Shape.doc s).branch = (Pattern.Shape.doc t).branch) :
    (s.outline .none).kind = (t.outline .none).kind := by
  have hkind := congrArg NodeKind.ofLabel? (Doc.label_eq_of_branch_eq h)
  rw [Pattern.Shape.ofLabel?_label, Pattern.Shape.ofLabel?_label] at hkind
  exact Option.some.inj hkind

section

variable (numbers : Set Binary64)

/-- A pattern that only patterns equal to it share a branch with. -/
def Pattern.IsTold (a : Pattern) : Prop :=
  ∀ b : Pattern, b.Legible numbers → a.doc.branch = b.doc.branch → a.bare = b.bare

/-- A shape that only shapes equal to it share a branch with. -/
def Pattern.Shape.IsTold (s : Pattern.Shape) : Prop :=
  ∀ t : Pattern.Shape, t.Legible numbers →
    (Pattern.Shape.doc s).branch = (Pattern.Shape.doc t).branch → s.bare = t.bare

/-- Patterns that only patterns equal to them share their branches with. -/
def Pattern.AreTold (as : List Pattern) : Prop :=
  ∀ bs : List Pattern, Pattern.LegibleAll numbers bs →
    Doc.entryBranches (Pattern.docs as) = Doc.entryBranches (Pattern.docs bs) →
    Pattern.bareAll as = Pattern.bareAll bs

/-- A pattern that may be missing and is told by its branches. -/
def Pattern.IsToldOption (a : Option Pattern) : Prop :=
  ∀ b : Option Pattern, Pattern.LegibleOption numbers b →
    Doc.entryBranches (Pattern.optionalDoc a) = Doc.entryBranches (Pattern.optionalDoc b) →
    Pattern.bareOption a = Pattern.bareOption b

/-- Entries of a mapping pattern that are told by the branches of their keys and values. -/
def Pattern.AreToldEntries (as : List (Expr × Pattern)) : Prop :=
  ∀ bs : List (Expr × Pattern), Pattern.LegibleEntries numbers bs →
    Doc.entryBranches (as.map fun entry => .present entry.1.doc) =
      Doc.entryBranches (bs.map fun entry => .present entry.1.doc) →
    Doc.entryBranches (Pattern.valueDocs as) = Doc.entryBranches (Pattern.valueDocs bs) →
    Pattern.bareEntries as = Pattern.bareEntries bs

/-- Keyword patterns that are told by their names and the branches of their patterns. -/
def Pattern.AreToldAttributes (as : List (Bytes × Pattern)) : Prop :=
  ∀ bs : List (Bytes × Pattern), Pattern.LegibleAttributes numbers bs →
    as.map Prod.fst = bs.map Prod.fst →
    Doc.entryBranches (Pattern.attributeDocs as) = Doc.entryBranches (Pattern.attributeDocs bs) →
    Pattern.bareAttributes as = Pattern.bareAttributes bs

end

section

variable {numbers : Set Binary64}

/-! ## Lists of patterns -/

theorem Pattern.areTold_nil : Pattern.AreTold numbers [] := by
  intro bs _ h
  cases bs with
  | nil => rfl
  | cons _ _ => exact nomatch h

/-- Patterns are told apart one by one. -/
theorem Pattern.areTold_cons {a : Pattern} {as : List Pattern}
    (ha : Pattern.IsTold numbers a) (has : Pattern.AreTold numbers as) :
    Pattern.AreTold numbers (a :: as) := by
  intro bs hbs h
  cases bs with
  | nil => exact nomatch h
  | cons b bs =>
    obtain ⟨hfirst, hrest⟩ := Doc.present_cons_inj.mp h
    rw [Pattern.bareAll, Pattern.bareAll, ha b hbs.1 hfirst, has bs hbs.2 hrest]

theorem Pattern.isToldOption_none : Pattern.IsToldOption numbers none := by
  intro b _ h
  cases b with
  | none => rfl
  | some _ => exact nomatch h

theorem Pattern.isToldOption_some {a : Pattern} (ha : Pattern.IsTold numbers a) :
    Pattern.IsToldOption numbers (some a) := by
  intro b hb h
  cases b with
  | none => exact nomatch h
  | some b => exact congrArg some (ha b hb (Doc.present_cons_inj.mp h).1)

theorem Pattern.areToldEntries_nil : Pattern.AreToldEntries numbers [] := by
  intro bs _ h _
  cases bs with
  | nil => rfl
  | cons _ _ => exact nomatch h

/-- Entries of mapping patterns are told apart one by one. -/
theorem Pattern.areToldEntries_cons {key : Expr} {p : Pattern} {as : List (Expr × Pattern)}
    (hkey : Expr.IsTold numbers key) (hp : Pattern.IsTold numbers p)
    (has : Pattern.AreToldEntries numbers as) :
    Pattern.AreToldEntries numbers ((key, p) :: as) := by
  intro bs hbs h h'
  rcases bs with _ | ⟨⟨key', p'⟩, bs⟩
  · exact nomatch h
  · obtain ⟨hk, hks⟩ := Doc.present_cons_inj.mp h
    obtain ⟨hv, hvs⟩ := Doc.present_cons_inj.mp h'
    rw [Pattern.bareEntries, Pattern.bareEntries, hkey key' hbs.1 hk, hp p' hbs.2.1 hv,
      has bs hbs.2.2 hks hvs]

theorem Pattern.areToldAttributes_nil : Pattern.AreToldAttributes numbers [] := by
  intro bs _ h _
  cases bs with
  | nil => rfl
  | cons _ _ => exact nomatch h

/-- Keyword patterns are told apart one by one. -/
theorem Pattern.areToldAttributes_cons {name : Bytes} {p : Pattern}
    {as : List (Bytes × Pattern)} (hp : Pattern.IsTold numbers p)
    (has : Pattern.AreToldAttributes numbers as) :
    Pattern.AreToldAttributes numbers ((name, p) :: as) := by
  intro bs hbs hnames h
  rcases bs with _ | ⟨⟨name', p'⟩, bs⟩
  · exact nomatch h
  · obtain ⟨rfl, hlater⟩ := List.cons.inj hnames
    obtain ⟨hfirst, hrest⟩ := Doc.present_cons_inj.mp h
    rw [Pattern.bareAttributes, Pattern.bareAttributes, hp p' hbs.2.1 hfirst,
      has bs hbs.2.2 hlater hrest]

/-! ## One kind at a time -/

/-- Value patterns are told apart if their values are. -/
theorem Pattern.Shape.isTold_value {value : Expr} (hvalue : Expr.IsTold numbers value) :
    Pattern.Shape.IsTold numbers (.value value) := by
  intro t ht h
  cases t with
  | value value' =>
    obtain ⟨-, hfields⟩ := Doc.parts_of_branch_eq ["value"] (by decide) rfl rfl h
    simp only [Doc.named_cons_inj, Doc.present_cons_inj, List.map_nil, and_true] at hfields
    rw [Pattern.Shape.bare, Pattern.Shape.bare, hvalue value' ht hfields]
  | _ => exact nomatch Pattern.Shape.kind_eq_of_branch_eq h

/-- Singleton patterns are told apart. -/
theorem Pattern.Shape.isTold_singleton {value : Singleton} :
    Pattern.Shape.IsTold numbers (.singleton value) := by
  intro t _ h
  cases t with
  | singleton value' =>
    have hlabel := List.append_cancel_left (Doc.label_eq_of_branch_eq h)
    rcases value with _ | _ | _ <;> rcases value' with _ | _ | _ <;>
      first | rfl | exact absurd hlabel (by decide)
  | _ => exact nomatch Pattern.Shape.kind_eq_of_branch_eq h

/-- Sequence patterns are told apart if their parts are. -/
theorem Pattern.Shape.isTold_sequence {patterns : List Pattern}
    (hpatterns : Pattern.AreTold numbers patterns) :
    Pattern.Shape.IsTold numbers (.sequence patterns) := by
  intro t ht h
  cases t with
  | sequence patterns' =>
    obtain ⟨-, hfields⟩ := Doc.parts_of_branch_eq ["patterns"] (by decide) rfl rfl h
    simp only [Doc.named_cons_inj, List.map_nil, and_true] at hfields
    rw [Pattern.Shape.bare, Pattern.Shape.bare, hpatterns patterns' ht hfields]
  | _ => exact nomatch Pattern.Shape.kind_eq_of_branch_eq h

/-- Mapping patterns are told apart if their entries are. -/
theorem Pattern.Shape.isTold_mapping {entries : List (Expr × Pattern)} {rest : Option Bytes}
    (hentries : Pattern.AreToldEntries numbers entries) (hrest : IsLegibleOption rest) :
    Pattern.Shape.IsTold numbers (.mapping entries rest) := by
  intro t ht h
  cases t with
  | mapping entries' rest' =>
    obtain ⟨hlabel, hfields⟩ := Doc.parts_of_branch_eq ["keys", "patterns"] (by decide) rfl rfl h
    simp only [Doc.named_cons_inj, List.map_nil, and_true] at hfields
    obtain rfl := optionalName_inj hrest ht.2 (List.append_cancel_left hlabel)
    rw [Pattern.Shape.bare, Pattern.Shape.bare, hentries entries' ht.1 hfields.1 hfields.2]
  | _ => exact nomatch Pattern.Shape.kind_eq_of_branch_eq h

/-- Class patterns are told apart if their parts are. -/
theorem Pattern.Shape.isTold_record {callee : Expr} {patterns : List Pattern}
    {attributes : List (Bytes × Pattern)} (hcallee : Expr.IsTold numbers callee)
    (hpatterns : Pattern.AreTold numbers patterns)
    (hattributes : Pattern.AreToldAttributes numbers attributes)
    (hnames : ∀ s ∈ attributes.map Prod.fst, IsLegible s) :
    Pattern.Shape.IsTold numbers (.record callee patterns attributes) := by
  intro t ht h
  cases t with
  | record callee' patterns' attributes' =>
    obtain ⟨hlabel, hfields⟩ :=
      Doc.parts_of_branch_eq ["cls", "patterns", "kwd_patterns"] (by decide) rfl rfl h
    simp only [Doc.named_cons_inj, Doc.present_cons_inj, List.map_nil, and_true] at hfields
    have hsame := joinNames_inj hnames (Pattern.isLegible_of_legibleAttributes ht.2.2)
      (List.append_cancel_left hlabel)
    rw [Pattern.Shape.bare, Pattern.Shape.bare, hcallee callee' ht.1 hfields.1,
      hpatterns patterns' ht.2.1 hfields.2.1, hattributes attributes' ht.2.2 hsame hfields.2.2]
  | _ => exact nomatch Pattern.Shape.kind_eq_of_branch_eq h

/-- Star patterns with legible names are told apart. -/
theorem Pattern.Shape.isTold_star {name : Option Bytes} (hname : IsLegibleOption name) :
    Pattern.Shape.IsTold numbers (.star name) := by
  intro t ht h
  cases t with
  | star name' =>
    have hlabel := List.append_cancel_left (Doc.label_eq_of_branch_eq h)
    rw [optionalName_inj hname ht hlabel]
  | _ => exact nomatch Pattern.Shape.kind_eq_of_branch_eq h

/-- Bindings with legible names are told apart if their patterns are. -/
theorem Pattern.Shape.isTold_as {pattern : Option Pattern} {name : Option Bytes}
    (hpattern : Pattern.IsToldOption numbers pattern) (hname : IsLegibleOption name) :
    Pattern.Shape.IsTold numbers (.as pattern name) := by
  intro t ht h
  cases t with
  | as pattern' name' =>
    obtain ⟨hlabel, hfields⟩ := Doc.parts_of_branch_eq ["pattern"] (by decide) rfl rfl h
    simp only [Doc.named_cons_inj, List.map_nil, and_true] at hfields
    obtain rfl := optionalName_inj hname ht.2 (List.append_cancel_left hlabel)
    rw [Pattern.Shape.bare, Pattern.Shape.bare, hpattern pattern' ht.1 hfields]
  | _ => exact nomatch Pattern.Shape.kind_eq_of_branch_eq h

/-- Alternatives are told apart if their patterns are. -/
theorem Pattern.Shape.isTold_or {patterns : List Pattern}
    (hpatterns : Pattern.AreTold numbers patterns) :
    Pattern.Shape.IsTold numbers (.or patterns) := by
  intro t ht h
  cases t with
  | or patterns' =>
    obtain ⟨-, hfields⟩ := Doc.parts_of_branch_eq ["patterns"] (by decide) rfl rfl h
    simp only [Doc.named_cons_inj, List.map_nil, and_true] at hfields
    rw [Pattern.Shape.bare, Pattern.Shape.bare, hpatterns patterns' ht hfields]
  | _ => exact nomatch Pattern.Shape.kind_eq_of_branch_eq h

/-! ## All patterns -/

variable (hnum : Set.InjOn FloatFormat.exact.write numbers)

include hnum

-- the numbers matter to the constants in expressions only
set_option linter.unusedSectionVars false

mutual

/-- Legible patterns are told apart. -/
theorem Pattern.isTold : ∀ a : Pattern, a.Legible numbers → a.IsTold numbers
  | .node _ s, h => by
    rintro ⟨_, t⟩ ht heq
    exact congrArg (Pattern.node .none) (Pattern.Shape.isTold s h t ht heq)

/-- Legible shapes are told apart. -/
theorem Pattern.Shape.isTold : ∀ s : Pattern.Shape, s.Legible numbers → s.IsTold numbers
  | .value value, h => Pattern.Shape.isTold_value (Expr.isTold hnum value h)
  | .singleton _, _ => Pattern.Shape.isTold_singleton
  | .sequence patterns, h => Pattern.Shape.isTold_sequence (Pattern.areTold patterns h)
  | .mapping entries _, h => Pattern.Shape.isTold_mapping (Pattern.areToldEntries entries h.1) h.2
  | .record callee patterns attributes, h =>
    Pattern.Shape.isTold_record (Expr.isTold hnum callee h.1) (Pattern.areTold patterns h.2.1)
      (Pattern.areToldAttributes attributes h.2.2) (Pattern.isLegible_of_legibleAttributes h.2.2)
  | .star _, h => Pattern.Shape.isTold_star h
  | .as pattern _, h => Pattern.Shape.isTold_as (Pattern.isToldOption pattern h.1) h.2
  | .or patterns, h => Pattern.Shape.isTold_or (Pattern.areTold patterns h)

/-- Legible patterns are told apart one by one. -/
theorem Pattern.areTold : ∀ as : List Pattern, Pattern.LegibleAll numbers as →
    Pattern.AreTold numbers as
  | [], _ => Pattern.areTold_nil
  | a :: as, h => Pattern.areTold_cons (Pattern.isTold a h.1) (Pattern.areTold as h.2)

/-- Legible patterns that may be missing are told apart. -/
theorem Pattern.isToldOption : ∀ a : Option Pattern, Pattern.LegibleOption numbers a →
    Pattern.IsToldOption numbers a
  | none, _ => Pattern.isToldOption_none
  | some a, h => Pattern.isToldOption_some (Pattern.isTold a h)

/-- The legible entries of mapping patterns are told apart one by one. -/
theorem Pattern.areToldEntries : ∀ as : List (Expr × Pattern),
    Pattern.LegibleEntries numbers as → Pattern.AreToldEntries numbers as
  | [], _ => Pattern.areToldEntries_nil
  | (key, p) :: as, h =>
    Pattern.areToldEntries_cons (Expr.isTold hnum key h.1) (Pattern.isTold p h.2.1)
      (Pattern.areToldEntries as h.2.2)

/-- Legible keyword patterns are told apart one by one. -/
theorem Pattern.areToldAttributes : ∀ as : List (Bytes × Pattern),
    Pattern.LegibleAttributes numbers as → Pattern.AreToldAttributes numbers as
  | [], _ => Pattern.areToldAttributes_nil
  | (_, p) :: as, h =>
    Pattern.areToldAttributes_cons (Pattern.isTold p h.2.1) (Pattern.areToldAttributes as h.2.2)

end

end

end SyntaxTree
