import SyntaxTree.Proofs.Tree.WellFormed

/-
# Nodes under construction

A node is built from parts that are well formed within its stretch.  It stands where it is known to
begin and to end; how it fits its parts is said apart from its span.
-/

namespace SyntaxTree

/-- What is true of all items and of a further one. -/
theorem forall_mem_concat {α : Type} {property : α → Prop} {items : List α} {item : α}
    (h : ∀ a ∈ items, property a) (hitem : property item) : ∀ a ∈ items ++ [item], property a :=
  List.forall_mem_append.mpr ⟨h, List.forall_mem_singleton.mpr hitem⟩

/-! ## Nodes within a stretch -/

namespace Node

variable {role : Context} {lo lo' hi hi' : Position} {n : Node}

/-- A node that is used in a role lies between two places. -/
abbrev Within (role : Context) (lo hi : Position) (n : Node) : Prop :=
  n.WellFormed (some ⟨lo, hi⟩) role

/-- A node that lies between two places has an end that is known. -/
structure Stands (role : Context) (lo hi : Position) (n : Node) : Prop where
  within : n.Within role lo hi
  ends : n.span.stop.isSome

theorem Stands.isIn (h : n.Stands role lo hi) : n.span.IsIn (some ⟨lo, hi⟩) := by
  refine h.within.span_isIn.resolve_left fun hnone => ?_
  have hends := h.ends
  rw [hnone] at hends
  cases hends

theorem Stands.le_start (h : n.Stands role lo hi) : lo ≤ n.span.start := (h.isIn.2 _ rfl).1

theorem Stands.start_le (h : n.Stands role lo hi) : n.span.start ≤ hi := by
  obtain ⟨stop, hstop⟩ := Option.isSome_iff_exists.mp h.ends
  exact Position.le_trans (h.isIn.1 stop hstop) ((h.isIn.2 _ rfl).2 stop hstop)

theorem Stands.le (h : n.Stands role lo hi) : lo ≤ hi := Position.le_trans h.le_start h.start_le

theorem Stands.widen (h : n.Stands role lo hi) (hlo : lo' ≤ lo) (hhi : hi ≤ hi') :
    n.Stands role lo' hi' :=
  ⟨h.within.widen (widens_some hlo hhi), h.ends⟩

/-- What stands behind a place stands behind all places in front of it. -/
theorem Stands.behind (h : n.Stands role lo hi) (hlo : lo' ≤ lo) : n.Stands role lo' hi :=
  h.widen hlo (Position.le_refl hi)

/-- A node stands behind its own beginning. -/
theorem Stands.from_start (h : n.Stands role lo hi) : n.Stands role n.span.start hi := by
  obtain ⟨stop, hstop⟩ := Option.isSome_iff_exists.mp h.ends
  refine ⟨(h.within.within_span hstop).widen (widens_some (Position.le_refl _) ?_), h.ends⟩
  exact (h.isIn.2 _ rfl).2 stop hstop

end Node

/-- An expression that stands between two places. -/
abbrev Expr.Stands (role : Context) (lo hi : Position) (e : Expr) : Prop :=
  (Node.expr e).Stands role lo hi

/-- A pattern that stands between two places. -/
abbrev Pattern.Stands (lo hi : Position) (p : Pattern) : Prop :=
  (Node.pattern p).Stands .load lo hi

/-- A statement that stands between two places. -/
abbrev Stmt.Stands (lo hi : Position) (s : Stmt) : Prop := (Node.stmt s).Stands .load lo hi

/-- Statements that lie between two places. -/
abbrev Stmt.AllWithin (lo hi : Position) (body : List Stmt) : Prop :=
  ∀ s ∈ body, (Node.stmt s).Within .load lo hi

/-! ## Links within a stretch -/

/-- What hangs by a link may hang by it and lies within a stretch, if one is given. -/
def Link.Holds (role : Context) (room : Option Stretch) (l : Link × Node) : Prop :=
  l.1.Allows l.2 ∧ l.2.WellFormed (l.1.room room) (l.1.context role)

namespace Link

variable {role : Context} {room : Option Stretch} {n : Node} {e : Expr}

@[simp]
theorem holds_part : Holds role room (.part, n) ↔ n.WellFormed room .load := by
  simp [Holds]

@[simp]
theorem holds_element : Holds role room (.element, n) ↔ n.WellFormed room role := by
  simp [Holds]

@[simp]
theorem holds_decorator : Holds role room (.decorator, n) ↔ n.WellFormed none .load := by
  simp [Holds]

@[simp]
theorem holds_target : Holds role room (.target, .expr e) ↔
    e.IsTarget false false ∧ (Node.expr e).WellFormed room .store := by
  simp [Holds]

@[simp]
theorem holds_place : Holds role room (.place, .expr e) ↔
    e.isPlace ∧ (Node.expr e).WellFormed room .store := by
  simp [Holds]

@[simp]
theorem holds_deleted : Holds role room (.deleted, .expr e) ↔
    e.IsTarget true false ∧ (Node.expr e).WellFormed room .delete := by
  simp [Holds]

/-- All of some links hold. -/
def AllHold (role : Context) (room : Option Stretch) (links : List (Link × Node)) : Prop :=
  ∀ l ∈ links, Holds role room l

@[simp]
theorem allHold_nil : AllHold role room [] := List.forall_mem_nil _

@[simp]
theorem allHold_cons {l : Link × Node} {links : List (Link × Node)} :
    AllHold role room (l :: links) ↔ Holds role room l ∧ AllHold role room links :=
  List.forall_mem_cons

@[simp]
theorem allHold_append {links links' : List (Link × Node)} :
    AllHold role room (links ++ links') ↔ AllHold role room links ∧ AllHold role room links' :=
  List.forall_mem_append

@[simp]
theorem allHold_each {α : Type} {link : Link} {node : α → Node} {items : List α} :
    AllHold role room (link.each node items) ↔ ∀ item ∈ items, Holds role room (link, node item) :=
  List.forall_mem_map

@[simp]
theorem allHold_flatMap {α : Type} {links : α → List (Link × Node)} {items : List α} :
    AllHold role room (items.flatMap links) ↔ ∀ item ∈ items, AllHold role room (links item) := by
  simp only [AllHold, List.mem_flatMap, forall_exists_index, and_imp]
  exact ⟨fun h item hitem l hl => h l item hitem hl, fun h l item hitem hl => h item hitem l hl⟩

end Link

/-! ## Nodes that fit their parts -/

namespace Node

variable {role : Context} {room : Option Stretch} {lo start stop hi : Position} {n : Node}

/-- A node that is used in a role fits its parts, which lie within a stretch, if one is given. -/
@[simp]
def Fits (role : Context) (room : Option Stretch) (n : Node) : Prop :=
  n.HasArity ∧ (∀ context ∈ n.context?, context = role) ∧ Link.AllHold role room n.links

theorem Fits.wellFormed (h : n.Fits role (n.span.room room))
    (hspan : n.span = .none ∨ n.span.IsIn room) : n.WellFormed room role :=
  .intro h.1 h.2.1 hspan (fun l hl => (h.2.2 l hl).1) fun l hl => (h.2.2 l hl).2

theorem WellFormed.fits (h : n.WellFormed room role) : n.Fits role (n.span.room room) :=
  ⟨h.hasArity, h.context_eq, fun l hl => ⟨h.allows l hl, h.parts l hl⟩⟩

/-- A node whose end is known. -/
theorem Fits.stands (h : n.Fits role (some ⟨start, stop⟩)) (hspan : n.span = ⟨start, some stop⟩)
    (hle : start ≤ stop) (hlo : lo ≤ start) (hhi : stop ≤ hi) : n.Stands role lo hi := by
  refine ⟨Fits.wellFormed (by rwa [hspan]) (.inr ⟨?_, ?_⟩), by rw [hspan]; rfl⟩
  · rw [hspan]
    rintro _ ⟨⟩
    exact hle
  · rw [hspan]
    rintro _ ⟨⟩
    refine ⟨hlo, ?_⟩
    rintro _ ⟨⟩
    exact hhi

/-- A node whose end is not known. -/
theorem Fits.within (h : n.Fits role (some ⟨lo, hi⟩)) (hstop : n.span.stop = none)
    (hstart : n.span = .none ∨ lo ≤ n.span.start) : n.Within role lo hi := by
  refine Fits.wellFormed (by rwa [Span.room, hstop]) (hstart.imp_right fun hle => ⟨?_, ?_⟩)
  · rw [hstop]
    rintro _ ⟨⟩
  · rintro _ ⟨⟩
    refine ⟨hle, ?_⟩
    rw [hstop]
    rintro _ ⟨⟩

end Node

end SyntaxTree
