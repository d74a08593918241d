import Mathlib.Algebra.GroupWithZero.Nat
import Mathlib.Algebra.Order.BigOperators.Group.List
import Mathlib.Algebra.Order.Group.Nat
import Mathlib.Order.Bounds.Basic
import SyntaxTree.Proofs.Tree.Link

/-
# Walks of a tree

The children of a node are what its links lead to, and its outline is made of its kind, its span
and the outlines of its children.  A walk goes from a node to its children, to theirs and so on; it
meets each node that a path leads to, and the outline counts what it meets.
-/

namespace SyntaxTree

/-! ## Outlines of lists -/

/-- A function that goes through a list item by item maps the list. -/
theorem eq_map_of_cons {α β : Type} {f : List α → List β} {g : α → β} (hnil : f [] = [])
    (hcons : ∀ a l, f (a :: l) = g a :: f l) (l : List α) : f l = l.map g := by
  induction l with
  | nil => rw [hnil, List.map_nil]
  | cons a l ih => rw [hcons, ih, List.map_cons]

@[simp]
theorem Expr.outlines_eq_map (es : List Expr) : Expr.outlines es = es.map Expr.outline :=
  eq_map_of_cons rfl (fun _ _ => rfl) es

@[simp]
theorem Expr.optionalOutline_eq_map (e : Option Expr) :
    Expr.optionalOutline e = e.toList.map Expr.outline := by
  cases e <;> rfl

@[simp]
theorem Parameter.outlines_eq_map (ps : List Parameter) :
    Parameter.outlines ps = ps.map Parameter.outline :=
  eq_map_of_cons rfl (fun _ _ => rfl) ps

@[simp]
theorem Parameter.optionalOutline_eq_map (p : Option Parameter) :
    Parameter.optionalOutline p = p.toList.map Parameter.outline := by
  cases p <;> rfl

@[simp]
theorem KeywordOnly.outlines_eq_map (ks : List KeywordOnly) :
    KeywordOnly.outlines ks = ks.map (·.parameter.outline) :=
  eq_map_of_cons rfl (fun | .mk _ _, _ => rfl) ks

@[simp]
theorem KeywordOnly.defaultOutlines_eq_map (ks : List KeywordOnly) :
    KeywordOnly.defaultOutlines ks = (ks.filterMap KeywordOnly.default).map Expr.outline := by
  induction ks with
  | nil => rfl
  | cons k rest ih =>
    obtain ⟨parameter, _ | default⟩ := k <;>
      simp [KeywordOnly.defaultOutlines, List.filterMap_cons, ih]

@[simp]
theorem Pattern.outlines_eq_map (ps : List Pattern) :
    Pattern.outlines ps = ps.map Pattern.outline :=
  eq_map_of_cons rfl (fun _ _ => rfl) ps

@[simp]
theorem Pattern.optionalOutline_eq_map (p : Option Pattern) :
    Pattern.optionalOutline p = p.toList.map Pattern.outline := by
  cases p <;> rfl

@[simp]
theorem Pattern.attributeOutlines_eq_map (attributes : List (Bytes × Pattern)) :
    Pattern.attributeOutlines attributes = attributes.map (·.2.outline) :=
  eq_map_of_cons rfl (fun _ _ => rfl) attributes

@[simp]
theorem Stmt.outlines_eq_map (ss : List Stmt) : Stmt.outlines ss = ss.map Stmt.outline :=
  eq_map_of_cons rfl (fun _ _ => rfl) ss

@[simp]
theorem Comparison.outlines_eq_map (rest : List Comparison) :
    Comparison.outlines rest = rest.map (·.operand.outline) :=
  eq_map_of_cons rfl (fun | .mk _ _, _ => rfl) rest

/-! ## Children -/

namespace Node

/-- The nodes right below a node. -/
def children (n : Node) : List Node := n.links.map Prod.snd

/-- The outline of a node. -/
def outline : Node → Outline
  | module m => m.outline
  | stmt s => s.outline
  | expr e => e.outline
  | pattern p => p.outline
  | parameters p => p.outline
  | parameter p => p.outline
  | keyword (.mk span _ value) => .node .keywordArgument span [value.outline]
  | importAlias a => a.outline
  | withItem item => item.outline
  | matchCase (.mk span p guard body) =>
    .node .matchCase span (p.outline :: Expr.optionalOutline guard ++ Stmt.outlines body)
  | exceptHandler (.mk span type _ body) =>
    .node .exceptHandler span (Expr.optionalOutline type ++ Stmt.outlines body)
  | comprehension (.mk span target iterable conditions _) =>
    .node .comprehension span (target.outline :: iterable.outline :: Expr.outlines conditions)
  | typeParam p => p.outline

/-- The kind of a node. -/
def kind (n : Node) : NodeKind :=
  match n.outline with
  | .node kind _ _ => kind

end Node

@[simp]
theorem Link.map_snd_each {α : Type} (link : Link) (node : α → Node) (items : List α) :
    (link.each node items).map Prod.snd = items.map node := by
  rw [Link.each, List.map_map]
  rfl

@[simp]
theorem Keyword.outlines_eq_map (ks : List Keyword) :
    Keyword.outlines ks = ks.map fun k => (Node.keyword k).outline :=
  eq_map_of_cons rfl (fun | .mk _ _ _, _ => rfl) ks

@[simp]
theorem Comprehension.outlines_eq_map (clauses : List Comprehension) :
    Comprehension.outlines clauses = clauses.map fun c => (Node.comprehension c).outline :=
  eq_map_of_cons rfl (fun | .mk _ _ _ _ _, _ => rfl) clauses

@[simp]
theorem MatchCase.outlines_eq_map (cases : List MatchCase) :
    MatchCase.outlines cases = cases.map fun c => (Node.matchCase c).outline :=
  eq_map_of_cons rfl (fun | .mk _ _ _ _, _ => rfl) cases

@[simp]
theorem ExceptHandler.outlines_eq_map (handlers : List ExceptHandler) :
    ExceptHandler.outlines handlers = handlers.map fun h => (Node.exceptHandler h).outline :=
  eq_map_of_cons rfl (fun | .mk _ _ _ _, _ => rfl) handlers

/-- The outline of a format specification is that of its f-string. -/
@[simp]
theorem FormatSpec.optionalOutline_eq_map (spec : Option FormatSpec) :
    FormatSpec.optionalOutline spec = spec.toList.map (·.expr.outline) := by
  rcases spec with _ | ⟨span, values⟩ <;> rfl

/-- The outlines of dict items are those at the ends of their links. -/
@[simp]
theorem DictItem.outlines_eq_map (items : List DictItem) :
    DictItem.outlines items = (items.flatMap DictItem.links).map (·.2.outline) := by
  induction items with
  | nil => rfl
  | cons item rest ih =>
    rw [List.flatMap_cons, List.map_append, ← ih]
    cases item <;> rfl

/-- The outlines of the entries of a mapping are those of their keys and patterns. -/
@[simp]
theorem Pattern.entryOutlines_eq_flatMap (entries : List (Expr × Pattern)) :
    Pattern.entryOutlines entries = entries.flatMap fun e => [e.1.outline, e.2.outline] := by
  induction entries with
  | nil => rfl
  | cons entry rest ih =>
    rw [List.flatMap_cons, ← ih]
    rfl

namespace Node

/-- The outline of a node is made of the outlines of its children, in their order. -/
theorem outline_eq (n : Node) : n.outline = .node n.kind n.span (n.children.map outline) := by
  cases n with
  | stmt s =>
    obtain ⟨span, shape⟩ := s
    cases shape <;>
      simp [outline, kind, children, Stmt.outline, Stmt.Shape.outline, Function.comp_def,
        Outline.leaf, Stmt.span]
  | expr e =>
    obtain ⟨span, shape⟩ := e
    cases shape <;>
      simp [outline, kind, children, Expr.outline, Expr.Shape.outline, Function.comp_def,
        Outline.leaf, Expr.span]
  | pattern p =>
    obtain ⟨span, shape⟩ := p
    cases shape <;>
      simp [outline, kind, children, Pattern.outline, Pattern.Shape.outline, Function.comp_def,
        Outline.leaf, Pattern.span, List.map_flatMap]
  | module m => simp [outline, kind, children, Module.outline, Function.comp_def]
  | parameters p =>
    cases p
    simp [outline, kind, children, Parameters.outline, Function.comp_def]
  | parameter p =>
    cases p
    simp [outline, kind, children, Parameter.outline, Function.comp_def]
  | keyword k => cases k; rfl
  | importAlias a => rfl
  | withItem item => simp [outline, kind, children, WithItem.outline, Function.comp_def]
  | matchCase c =>
    cases c
    simp [outline, kind, children, Function.comp_def]
  | exceptHandler handler =>
    cases handler
    simp [outline, kind, children, Function.comp_def]
  | comprehension c =>
    cases c
    simp [outline, kind, children, Function.comp_def]
  | typeParam p => simp [outline, kind, children, TypeParam.outline, Function.comp_def]

end Node

/-! ## Walks -/

theorem Outline.sizeAll_eq_sum (os : List Outline) : Outline.sizeAll os = (os.map size).sum := by
  induction os with
  | nil => rfl
  | cons o rest ih => rw [Outline.sizeAll, ih, List.map_cons, List.sum_cons]

namespace Node

/-- A node has more nodes below it than each of its children. -/
theorem size_lt_of_mem_children {n child : Node} (h : child ∈ n.children) :
    child.outline.size < n.outline.size := by
  have hle := List.le_sum_of_mem (List.mem_map_of_mem (f := fun m => m.outline.size) h)
  rw [outline_eq n, Outline.size, Outline.sizeAll_eq_sum, List.map_map]
  change _ < 1 + (n.children.map fun m => m.outline.size).sum
  omega

/-- The nodes at and below a node, each before its children, with their distances from a root. -/
def walk (depth : Nat) (n : Node) : List (Nat × Node) :=
  (depth, n) :: n.children.attach.flatMap fun child => walk (depth + 1) child.1
termination_by n.outline.size
decreasing_by exact size_lt_of_mem_children child.2

theorem walk_eq (depth : Nat) (n : Node) :
    n.walk depth = (depth, n) :: n.children.flatMap (walk (depth + 1)) := by
  conv_rhs => rw [← List.attach_map_subtype_val n.children, List.flatMap_map]
  rw [walk]

/-- What holds of a node if it holds of its children holds of all nodes. -/
theorem induction_children {P : Node → Prop} (h : ∀ n : Node, (∀ c ∈ n.children, P c) → P n)
    (n : Node) : P n :=
  h n fun c _ => induction_children h c
termination_by n.outline.size
decreasing_by exact size_lt_of_mem_children ‹_›

end Node

theorem Outline.visitsAll_eq_flatMap (depth : Nat) (os : List Outline) :
    Outline.visitsAll depth os = os.flatMap (visits depth) := by
  induction os with
  | nil => rfl
  | cons o rest ih => rw [Outline.visitsAll, ih, List.flatMap_cons]

theorem Outline.height_lt_of_mem {o : Outline} {os : List Outline} (h : o ∈ os) :
    o.height < Outline.heightAll os := by
  induction os with
  | nil => exact nomatch h
  | cons first rest ih =>
    rw [Outline.heightAll, lt_max_iff]
    rcases List.mem_cons.mp h with rfl | hrest
    · exact .inl (Nat.lt_succ_self _)
    · exact .inr (ih hrest)

/-- The greatest height is that of one of the outlines. -/
theorem Outline.exists_height_eq {os : List Outline} (h : os ≠ []) :
    ∃ o ∈ os, o.height + 1 = Outline.heightAll os := by
  induction os with
  | nil => exact absurd rfl h
  | cons first rest ih =>
    rw [Outline.heightAll]
    by_cases hfirst : Outline.heightAll rest ≤ first.height + 1
    · exact ⟨first, List.mem_cons_self, (Nat.max_eq_left hfirst).symm⟩
    · have hrest : rest ≠ [] := by
        rintro rfl
        exact hfirst (Nat.zero_le _)
      obtain ⟨o, ho, heq⟩ := ih hrest
      exact ⟨o, List.mem_cons_of_mem _ ho, by omega⟩

namespace Node

/-- The visits to an outline are the nodes of the walk. -/
theorem visits_outline (n : Node) : ∀ depth : Nat,
    n.outline.visits depth = (n.walk depth).map fun v => ⟨v.1, v.2.kind, v.2.span⟩ := by
  induction n using induction_children with
  | h n ih =>
    intro depth
    rw [outline_eq n, Outline.visits, Outline.visitsAll_eq_flatMap, walk_eq, List.map_cons,
      List.map_flatMap, List.flatMap_map]
    congr 1
    exact List.flatMap_congr fun c hc => ih c hc (depth + 1)

/-- The size of an outline is the number of nodes of the walk. -/
theorem size_outline (n : Node) : ∀ depth : Nat, n.outline.size = (n.walk depth).length := by
  induction n using induction_children with
  | h n ih =>
    intro depth
    rw [outline_eq n, Outline.size, Outline.sizeAll_eq_sum, List.map_map, walk_eq, List.length_cons,
      List.length_flatMap, Nat.add_comm]
    congr 2
    exact List.map_congr_left fun c hc => ih c hc (depth + 1)

/-- The height of an outline leads to the deepest nodes of the walk. -/
theorem isGreatest_height (n : Node) : ∀ depth : Nat,
    IsGreatest {d | ∃ m, (d, m) ∈ n.walk depth} (depth + n.outline.height) := by
  induction n using induction_children with
  | h n ih =>
    intro depth
    have hheight : n.outline.height = Outline.heightAll (n.children.map outline) := by
      rw [outline_eq n, Outline.height]
    rw [walk_eq, hheight]
    constructor
    · -- Without children the node itself is the deepest, otherwise one below its highest child.
      by_cases hleaf : n.children = []
      · exact ⟨n, by simp [hleaf, Outline.heightAll]⟩
      · obtain ⟨o, ho, heq⟩ := Outline.exists_height_eq (mt List.map_eq_nil_iff.mp hleaf)
        obtain ⟨c, hc, rfl⟩ := List.mem_map.mp ho
        obtain ⟨m, hm⟩ := (ih c hc (depth + 1)).1
        refine ⟨m, List.mem_cons_of_mem _ (List.mem_flatMap.mpr ⟨c, hc, ?_⟩)⟩
        rwa [← heq, Nat.add_comm c.outline.height, ← Nat.add_assoc]
    · rintro d ⟨m, hm⟩
      rcases List.mem_cons.mp hm with hroot | hbelow
      · rw [(Prod.mk.inj hroot).1]
        exact Nat.le_add_right _ _
      · obtain ⟨c, hc, hm⟩ := List.mem_flatMap.mp hbelow
        have hle := (ih c hc (depth + 1)).2 ⟨m, hm⟩
        have hlt := Outline.height_lt_of_mem (List.mem_map_of_mem (f := outline) hc)
        omega

/-- A path may begin with a link of the root. -/
theorem Reaches.cons {n child m : Node} {link : Link} {path : List Link}
    (hlink : (link, child) ∈ n.links) (h : child.Reaches path m) :
    n.Reaches (link :: path) m := by
  induction h with
  | here => exact Reaches.step .here hlink
  | step _ hlast ih => exact ih.step hlast

/-- With a node a walk meets the children of the node, one step further down. -/
theorem mem_walk_of_mem_children {m child : Node} (hchild : child ∈ m.children) {d : Nat}
    (n : Node) : ∀ depth : Nat, (d, m) ∈ n.walk depth → (d + 1, child) ∈ n.walk depth := by
  induction n using induction_children with
  | h n ih =>
    intro depth hm
    rw [walk_eq] at hm ⊢
    rcases List.mem_cons.mp hm with hroot | hbelow
    · obtain ⟨rfl, rfl⟩ := Prod.mk.inj hroot
      refine List.mem_cons_of_mem _ (List.mem_flatMap.mpr ⟨child, hchild, ?_⟩)
      rw [walk_eq]
      exact List.mem_cons_self
    · obtain ⟨c, hc, hm⟩ := List.mem_flatMap.mp hbelow
      exact List.mem_cons_of_mem _ (List.mem_flatMap.mpr ⟨c, hc, ih c hc (depth + 1) hm⟩)

/-- What a walk meets lies at the end of a path. -/
theorem exists_reaches_of_mem_walk {m : Node} {d : Nat} (n : Node) : ∀ depth : Nat,
    (d, m) ∈ n.walk depth → ∃ path, depth + path.length = d ∧ n.Reaches path m := by
  induction n using induction_children with
  | h n ih =>
    intro depth hm
    rw [walk_eq] at hm
    rcases List.mem_cons.mp hm with hroot | hbelow
    · obtain ⟨rfl, rfl⟩ := Prod.mk.inj hroot
      exact ⟨[], rfl, .here⟩
    · obtain ⟨c, hc, hm⟩ := List.mem_flatMap.mp hbelow
      obtain ⟨path, hlength, hpath⟩ := ih c hc (depth + 1) hm
      obtain ⟨⟨link, _⟩, hlink, rfl⟩ := List.mem_map.mp hc
      exact ⟨link :: path, by rw [List.length_cons]; omega, hpath.cons hlink⟩

/-- A walk meets the nodes that paths lead to, as far from the root as the paths are long. -/
theorem mem_walk_iff {n m : Node} {d : Nat} :
    (d, m) ∈ n.walk 0 ↔ ∃ path, path.length = d ∧ n.Reaches path m := by
  constructor
  · intro hm
    obtain ⟨path, hlength, hpath⟩ := exists_reaches_of_mem_walk n 0 hm
    exact ⟨path, by omega, hpath⟩
  · rintro ⟨path, rfl, hpath⟩
    induction hpath with
    | here =>
      rw [walk_eq]
      exact List.mem_cons_self
    | step _ hlink ih =>
      rw [List.length_append, List.length_singleton]
      exact mem_walk_of_mem_children (List.mem_map_of_mem (f := Prod.snd) hlink) n 0 ih

end Node
end SyntaxTree
