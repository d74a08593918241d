import SyntaxTree.Grammar.Target
import SyntaxTree.Proofs.Token.Cover
import SyntaxTree.Proofs.Token.Division
import SyntaxTree.Proofs.Tree.Link

/-
# Well-formed trees

What the nodes of a tree satisfy that has been read from a source, each by itself and together: the
numbers of their parts, the contexts of names and of what is built from them, the shapes of targets,
and the places.  A node is well formed in a role, which says how it is used, and within a stretch of
the source, in which it and all below it stand.  A decorator stands in front of what it decorates.
-/

namespace SyntaxTree

/-! ## Arity -/

/-- Whether an expression is a string constant. -/
def Expr.isText : Expr → Bool
  | .node _ (.constant (.string _)) => true
  | _ => false

/-- Values of an f-string: none is the empty text, and no two texts stand side by side. -/
structure Expr.AreSeparated (values : List Expr) : Prop where
  nonempty : ∀ e ∈ values, e.shape ≠ .constant (.string [])
  apart : values.IsChain fun e e' => ¬ (e.isText ∧ e'.isText)

/-- An integer is shown by its canonical numeral. -/
@[simp]
def Constant.IsCanonical : Constant → Prop
  | .integer digits => Number.IsCanonical digits
  | _ => True

/-- The numbers of an expression's parts.  What is shown as two lists that go together has two lists
of one length. -/
@[simp]
def Expr.Shape.HasArity : Expr.Shape → Prop
  | .constant value => value.IsCanonical
  | .boolean _ values => 2 ≤ values.length
  | .dict items => (DictItem.keyDocs items).length = (DictItem.valueDocs items).length
  | .set elements => elements ≠ []
  | .listComp _ clauses | .setComp _ clauses | .generator _ clauses => clauses ≠ []
  | .dictComp _ _ clauses => clauses ≠ []
  | .compare _ rest => rest ≠ [] ∧
    (rest.map fun | .mk op _ => op).length = (Comparison.docs rest).length
  | .fstring values => Expr.AreSeparated values
  | _ => True

/-- Defaults belong to positional parameters, and a keyword-only parameter has one slot for its
own. -/
@[simp]
def Parameters.HasArity : Parameters → Prop
  | .mk positionalOnly positional _ keywordOnly _ defaults =>
    defaults.length ≤ positionalOnly.length + positional.length ∧
      (KeywordOnly.docs keywordOnly).length = (KeywordOnly.defaultDocs keywordOnly).length

/-- The numbers of a pattern's parts. -/
@[simp]
def Pattern.Shape.HasArity : Pattern.Shape → Prop
  | .mapping entries _ =>
    (entries.map fun entry => entry.1.doc).length = (Pattern.valueDocs entries).length
  | .record _ _ attributes =>
    (attributes.map Prod.fst).length = (Pattern.attributeDocs attributes).length
  | .as pattern name => pattern.isSome → name.isSome
  | .or patterns => 2 ≤ patterns.length
  | _ => True

/-- A handler that names an exception has its type. -/
@[simp]
def ExceptHandler.HasArity : ExceptHandler → Prop
  | .mk _ type name _ => name.isSome → type.isSome

/-- The type of the exceptions that a handler is for. -/
def ExceptHandler.type : ExceptHandler → Option Expr
  | .mk _ type _ _ => type

/-- The numbers of a statement's parts. -/
@[simp]
def Stmt.Shape.HasArity : Stmt.Shape → Prop
  | .delete targets => targets ≠ []
  | .assign targets _ => targets ≠ []
  | .withBlock _ items _ => items ≠ []
  | .matchBlock _ cases => cases ≠ []
  | .tryBlock isStar _ handlers orelse finalbody =>
    (handlers ≠ [] ∨ finalbody ≠ []) ∧ (orelse ≠ [] → handlers ≠ []) ∧
      (isStar → ∀ handler ∈ handlers, handler.type.isSome)
  | .importNames names => names ≠ []
  | .importFrom level source names => names ≠ [] ∧ (source = none → 1 ≤ level)
  | .globalNames names | .nonlocalNames names => names ≠ []
  | _ => True

/-- The numbers of a node's parts. -/
@[simp]
def Node.HasArity : Node → Prop
  | expr (.node _ shape) => shape.HasArity
  | pattern (.node _ shape) => shape.HasArity
  | stmt (.node _ shape) => shape.HasArity
  | parameters p => p.HasArity
  | exceptHandler h => h.HasArity
  | _ => True

/-! ### Lists that go together -/

@[simp]
theorem DictItem.length_keyDocs (items : List DictItem) :
    (DictItem.keyDocs items).length = items.length := by
  induction items with
  | nil => rfl
  | cons item items ih => cases item <;> simp [DictItem.keyDocs, ih]

@[simp]
theorem DictItem.length_valueDocs (items : List DictItem) :
    (DictItem.valueDocs items).length = items.length := by
  induction items with
  | nil => rfl
  | cons item items ih => cases item <;> simp [DictItem.valueDocs, ih]

@[simp]
theorem Comparison.length_docs (rest : List Comparison) :
    (Comparison.docs rest).length = rest.length := by
  induction rest with
  | nil => rfl
  | cons further rest ih =>
    obtain ⟨op, operand⟩ := further
    simp [Comparison.docs, ih]

@[simp]
theorem KeywordOnly.length_docs (ps : List KeywordOnly) :
    (KeywordOnly.docs ps).length = ps.length := by
  induction ps with
  | nil => rfl
  | cons p ps ih =>
    obtain ⟨parameter, default⟩ := p
    simp [KeywordOnly.docs, ih]

@[simp]
theorem KeywordOnly.length_defaultDocs (ps : List KeywordOnly) :
    (KeywordOnly.defaultDocs ps).length = ps.length := by
  induction ps with
  | nil => rfl
  | cons p ps ih =>
    obtain ⟨parameter, default⟩ := p
    cases default <;> simp [KeywordOnly.defaultDocs, ih]

@[simp]
theorem Pattern.length_valueDocs (entries : List (Expr × Pattern)) :
    (Pattern.valueDocs entries).length = entries.length := by
  induction entries with
  | nil => rfl
  | cons entry entries ih => simp [Pattern.valueDocs, ih]

@[simp]
theorem Pattern.length_attributeDocs (attributes : List (Bytes × Pattern)) :
    (Pattern.attributeDocs attributes).length = attributes.length := by
  induction attributes with
  | nil => rfl
  | cons entry attributes ih => simp [Pattern.attributeDocs, ih]

/-! ## Contexts and targets -/

/-- The context of an expression that has one. -/
@[simp]
def Expr.Shape.context? : Expr.Shape → Option Context
  | .name _ context | .list _ context | .tuple _ context | .attribute _ _ context
  | .subscript _ _ context | .starred _ context => some context
  | _ => none

/-- The context of a node that has one. -/
@[simp]
def Node.context? : Node → Option Context
  | expr (.node _ shape) => shape.context?
  | _ => none

/-- How what hangs below a node is used, where the node is used in a given role: an element shares
the role of its list. -/
@[simp]
def Link.context (role : Context) : Link → Context
  | part | decorator => .load
  | target | place => .store
  | deleted => .delete
  | element => role

/-- What is assigned to is reached from a target by elements only. -/
theorem Link.foldl_context_eq_store_iff (path : List Link) :
    path.foldl context .load = .store ↔ target.Governs path ∨ place.Governs path := by
  induction path using List.reverseRecOn with
  | nil => simp [not_governs_nil]
  | append_singleton path last ih =>
    rw [List.foldl_concat, governs_concat (by decide), governs_concat (by decide)]
    cases last <;> simp [ih]

/-- What is deleted is reached from a deleted target by elements only. -/
theorem Link.foldl_context_eq_delete_iff (path : List Link) :
    path.foldl context .load = .delete ↔ deleted.Governs path := by
  induction path using List.reverseRecOn with
  | nil => simp [not_governs_nil]
  | append_singleton path last ih =>
    rw [List.foldl_concat, governs_concat (by decide)]
    cases last <;> simp [ih]

/-- What can be assigned to, or deleted if `deleted` says so: a name, an attribute, a subscript, or
a tuple or list of such targets.  Among the elements of one that is assigned to may be starred
ones. -/
inductive Expr.IsTarget (deleted : Bool) : (element : Bool) → Expr → Prop where
  | place {element : Bool} {e : Expr} (h : e.isPlace) : IsTarget deleted element e
  | tuple {element : Bool} {span : Span} {elements : List Expr} {context : Context}
    (h : ∀ e ∈ elements, IsTarget deleted true e) :
    IsTarget deleted element (.node span (.tuple elements context))
  | list {element : Bool} {span : Span} {elements : List Expr} {context : Context}
    (h : ∀ e ∈ elements, IsTarget deleted true e) :
    IsTarget deleted element (.node span (.list elements context))
  | starred {span : Span} {value : Expr} {context : Context} (hdeleted : deleted = false)
    (h : IsTarget deleted false value) :
    IsTarget deleted true (.node span (.starred value context))

/-- What may hang by a link. -/
@[simp]
def Link.Allows : Link → Node → Prop
  | target, .expr e => e.IsTarget false false
  | place, .expr e => e.isPlace
  | deleted, .expr e => e.IsTarget true false
  | target, _ | place, _ | deleted, _ => False
  | part, _ | decorator, _ | element, _ => True

/-! ## Places -/

/-- A stretch of a source. -/
structure Stretch where
  start : Position
  stop : Position

/-- A span lies within a stretch, if one is given, and does not stop before it starts. -/
def Span.IsIn (room : Option Stretch) (span : Span) : Prop :=
  (∀ stop ∈ span.stop, span.start ≤ stop) ∧
    ∀ r ∈ room, r.start ≤ span.start ∧ ∀ stop ∈ span.stop, stop ≤ r.stop

/-- The stretch for what is below a node: the node's own, if its end is known. -/
def Span.room (room : Option Stretch) (span : Span) : Option Stretch :=
  match span.stop with
  | some stop => some ⟨span.start, stop⟩
  | .none => room

/-- The stretch for what hangs by a link. -/
@[simp]
def Link.room (room : Option Stretch) : Link → Option Stretch
  | decorator => none
  | _ => room

/-- What lies within `room` lies within `room'`. -/
def Widens (room room' : Option Stretch) : Prop :=
  ∀ r' ∈ room', ∃ r ∈ room, r'.start ≤ r.start ∧ r.stop ≤ r'.stop

theorem Widens.refl (room : Option Stretch) : Widens room room :=
  fun r hr => ⟨r, hr, Position.le_refl _, Position.le_refl _⟩

theorem widens_none (room : Option Stretch) : Widens room none := fun _ hr => by cases hr

theorem widens_some {start start' stop stop' : Position} (hstart : start' ≤ start)
    (hstop : stop ≤ stop') : Widens (some ⟨start, stop⟩) (some ⟨start', stop'⟩) := by
  rintro r' hr'
  obtain rfl := Option.mem_some_iff.mp hr'
  exact ⟨_, rfl, hstart, hstop⟩

theorem Span.IsIn.widen {room room' : Option Stretch} {span : Span} (h : span.IsIn room)
    (hroom : Widens room room') : span.IsIn room' := by
  refine ⟨h.1, fun r' hr' => ?_⟩
  obtain ⟨r, hr, hstart, hstop⟩ := hroom r' hr'
  obtain ⟨hspan, hle⟩ := h.2 r hr
  exact ⟨Position.le_trans hstart hspan, fun stop hmem => Position.le_trans (hle stop hmem) hstop⟩

theorem Widens.room {room room' : Option Stretch} (h : Widens room room') (span : Span) :
    Widens (span.room room) (span.room room') := by
  unfold Span.room
  split
  · exact .refl _
  · exact h

theorem Widens.link {room room' : Option Stretch} (h : Widens room room') (link : Link) :
    Widens (link.room room) (link.room room') := by
  cases link <;> first | exact h | exact .refl _

/-- What is below a node that lies within a stretch lies there too. -/
theorem Span.IsIn.widens {room : Option Stretch} {span : Span} (h : span.IsIn room) :
    Widens (span.room room) room := by
  intro r hr
  obtain ⟨hstart, hstop⟩ := h.2 r hr
  unfold Span.room
  split
  · next stop hspan => exact ⟨_, rfl, hstart, hstop stop hspan⟩
  · exact ⟨r, hr, Position.le_refl _, Position.le_refl _⟩

/-! ## Well-formed nodes -/

/-- A node that is used in a role and lies within a stretch, if one is given, is well formed with
all that is below it. -/
inductive Node.WellFormed : Option Stretch → Context → Node → Prop where
  | intro {room : Option Stretch} {role : Context} {n : Node} (arity : n.HasArity)
    (context : ∀ context ∈ n.context?, context = role) (span : n.span = .none ∨ n.span.IsIn room)
    (allowed : ∀ l ∈ n.links, l.1.Allows l.2)
    (parts : ∀ l ∈ n.links, WellFormed (l.1.room (n.span.room room)) (l.1.context role) l.2) :
    WellFormed room role n

namespace Node.WellFormed

variable {room room' : Option Stretch} {role : Context} {n d : Node} {path : List Link}

theorem widen (h : n.WellFormed room role) (hroom : Widens room room') :
    n.WellFormed room' role := by
  induction h generalizing room' with
  | @intro room role n arity context span allowed parts ih =>
    exact .intro arity context (span.imp_right (·.widen hroom)) allowed fun l hl =>
      ih l hl ((hroom.room n.span).link l.1)

theorem hasArity (h : n.WellFormed room role) : n.HasArity := by
  cases h with
  | intro arity => exact arity

theorem context_eq (h : n.WellFormed room role) : ∀ context ∈ n.context?, context = role := by
  cases h with
  | intro _ context => exact context

theorem allows (h : n.WellFormed room role) : ∀ l ∈ n.links, l.1.Allows l.2 := by
  cases h with
  | intro _ _ _ allowed => exact allowed

theorem span_isIn (h : n.WellFormed room role) : n.span = .none ∨ n.span.IsIn room := by
  cases h with
  | intro _ _ span => exact span

theorem parts (h : n.WellFormed room role) :
    ∀ l ∈ n.links, l.2.WellFormed (l.1.room (n.span.room room)) (l.1.context role) := by
  cases h with
  | intro _ _ _ _ parts => exact parts

/-- A node whose end is known is well formed within its own span. -/
theorem within_span (h : n.WellFormed room role) {stop : Position}
    (hstop : n.span.stop = some stop) :
    n.WellFormed (some ⟨n.span.start, stop⟩) role := by
  have hroom (r : Option Stretch) : n.span.room r = some ⟨n.span.start, stop⟩ := by
    rw [Span.room, hstop]
  refine .intro h.hasArity h.context_eq (h.span_isIn.imp_right fun hin => ⟨hin.1, ?_⟩) h.allows
    fun l hl => ?_
  · intro r hr
    obtain rfl := Option.mem_some_iff.mp hr
    refine ⟨Position.le_refl _, fun stop' hstop' => ?_⟩
    obtain rfl : stop = stop' := Option.some.inj (hstop.symm.trans hstop')
    exact Position.le_refl stop
  · rw [hroom, ← hroom room]
    exact h.parts l hl

/-- What is reached is well formed in the role that its path gives it. -/
theorem exists_of_reaches (h : n.WellFormed room role) (hd : n.Reaches path d) :
    ∃ room', d.WellFormed room' (path.foldl Link.context role) := by
  induction hd with
  | here => exact ⟨room, h⟩
  | @step path parent child link hparent hlink ih =>
    obtain ⟨room', hwell⟩ := ih
    rw [List.foldl_append]
    exact ⟨_, hwell.parts _ hlink⟩

/-- What is reached without a decorator on the way stays within the stretch. -/
theorem of_reaches (h : n.WellFormed room role) (hd : n.Reaches path d)
    (hpath : Link.decorator ∉ path) : d.WellFormed room (path.foldl Link.context role) := by
  induction hd with
  | here => exact h
  | @step path parent child link hparent hlink ih =>
    rw [List.mem_append, List.mem_singleton, not_or] at hpath
    have hwell := ih hpath.1
    have hroom : link.room (parent.span.room room) = parent.span.room room := by
      cases link <;> first | rfl | exact absurd rfl hpath.2
    rw [List.foldl_append]
    refine (hroom ▸ hwell.parts _ hlink).widen ?_
    rcases hwell.span_isIn with hnone | hin
    · rw [hnone]
      exact .refl room
    · exact hin.widens

end Node.WellFormed

end SyntaxTree
