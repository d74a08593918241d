import SyntaxTree.Proofs.Tree.Link

/-
# Blocks

The blocks of a tree are the statements of its definitions, conditions, loops, context managers, try
statements, cases and handlers.  An alternative or a final block may be missing and is none of them.
Below expressions and patterns there are no statements, and so no blocks.
-/

namespace SyntaxTree

/-! ## What hangs by links -/

namespace Link

variable {property : Node → Prop} {links links' : List (Link × Node)}

/-- What hangs by some links is as a property says. -/
def AllBelow (property : Node → Prop) (links : List (Link × Node)) : Prop :=
  ∀ l ∈ links, property l.2

@[simp]
theorem allBelow_nil : AllBelow property [] := List.forall_mem_nil _

@[simp]
theorem allBelow_cons {l : Link × Node} :
    AllBelow property (l :: links) ↔ property l.2 ∧ AllBelow property links :=
  List.forall_mem_cons

@[simp]
theorem allBelow_append :
    AllBelow property (links ++ links') ↔ AllBelow property links ∧ AllBelow property links' :=
  List.forall_mem_append

@[simp]
theorem allBelow_each {α : Type} {link : Link} {node : α → Node} {items : List α} :
    AllBelow property (link.each node items) ↔ ∀ item ∈ items, property (node item) :=
  List.forall_mem_map

end Link

/-! ## Blocks with statements -/

/-- A statement that has a block has a statement in it. -/
@[simp]
def Stmt.Shape.HasBlock : Stmt.Shape → Prop
  | .functionDef _ _ _ _ _ _ body | .classDef _ _ _ _ _ body | .withBlock _ _ body => body ≠ []
  | .forLoop _ _ _ body _ | .whileLoop _ body _ | .conditional _ body _ => body ≠ []
  | .tryBlock _ body _ _ _ => body ≠ []
  | _ => True

namespace Node

/-- A node that has a block has a statement in it. -/
@[simp]
def HasBlock : Node → Prop
  | stmt (.node _ shape) => shape.HasBlock
  | matchCase (.mk _ _ _ body) | exceptHandler (.mk _ _ _ body) => body ≠ []
  | _ => True

/-- There is a statement in every block at and below a node. -/
def IsFilled (n : Node) : Prop := ∀ ⦃path d⦄, n.Reaches path d → d.HasBlock

variable {n d : Node} {path : List Link}

/-- What stands below a node stands at or below one of its parts. -/
theorem Reaches.eq_or_exists (h : n.Reaches path d) :
    d = n ∨ ∃ l ∈ n.links, ∃ below, l.2.Reaches below d := by
  induction h with
  | here => exact .inl rfl
  | @step path parent child link hparent hlink ih =>
    rcases ih with rfl | ⟨l, hl, below, hbelow⟩
    · exact .inr ⟨(link, child), hlink, [], .here⟩
    · exact .inr ⟨l, hl, below ++ [link], .step hbelow hlink⟩

theorem IsFilled.of_links (h : n.HasBlock) (hlinks : Link.AllBelow IsFilled n.links) :
    n.IsFilled := by
  intro path d hd
  rcases hd.eq_or_exists with rfl | ⟨l, hl, below, hbelow⟩
  · exact h
  · exact hlinks l hl hbelow

/-! ## Phrases -/

/-- A node that holds no statements. -/
@[simp]
def isPhrase : Node → Bool
  | module _ | stmt _ | matchCase _ | exceptHandler _ => false
  | _ => true

/-- No statement hangs below an expression. -/
theorem isPhrase_of_expr (e : Expr) : Link.AllBelow (isPhrase ·) (expr e).links := by
  obtain ⟨span, shape⟩ := e
  cases shape with
  | dict items =>
    refine List.forall_mem_flatMap.mpr fun item _ => ?_
    cases item with
    | entry => exact List.forall_mem_cons.mpr ⟨rfl, List.forall_mem_singleton.mpr rfl⟩
    | unpack => exact List.forall_mem_singleton.mpr rfl
  | _ => simp

/-- No statement hangs below a pattern. -/
theorem isPhrase_of_pattern (p : Pattern) : Link.AllBelow (isPhrase ·) (pattern p).links := by
  obtain ⟨span, shape⟩ := p
  cases shape with
  | mapping entries =>
    refine List.forall_mem_flatMap.mpr fun entry _ => ?_
    exact List.forall_mem_cons.mpr ⟨rfl, List.forall_mem_singleton.mpr rfl⟩
  | _ => simp

theorem isPhrase_of_links (h : n.isPhrase) : Link.AllBelow (isPhrase ·) n.links := by
  cases n with
  | module | stmt | matchCase | exceptHandler => cases h
  | expr e => exact isPhrase_of_expr e
  | pattern p => exact isPhrase_of_pattern p
  | parameters p =>
    obtain ⟨positionalOnly, positional, variadic, keywordOnly, variadicKeyword, defaults⟩ := p
    simp
  | parameter p | keyword p | comprehension p =>
    cases p
    simp
  | importAlias | withItem | typeParam => simp

/-- Where there are no statements there are no blocks. -/
theorem isFilled_of_isPhrase (h : n.isPhrase) : n.IsFilled := by
  intro path d hd
  have hphrase : d.isPhrase := by
    induction hd with
    | here => exact h
    | step _ hlink ih => exact isPhrase_of_links ih _ hlink
  cases d with
  | stmt | matchCase | exceptHandler => cases hphrase
  | _ => trivial

@[simp]
theorem isFilled_expr (e : Expr) : (expr e).IsFilled := isFilled_of_isPhrase rfl

@[simp]
theorem isFilled_pattern (p : Pattern) : (pattern p).IsFilled := isFilled_of_isPhrase rfl

@[simp]
theorem isFilled_parameters (p : Parameters) : (parameters p).IsFilled := isFilled_of_isPhrase rfl

@[simp]
theorem isFilled_keyword (k : Keyword) : (keyword k).IsFilled := isFilled_of_isPhrase rfl

@[simp]
theorem isFilled_withItem (item : WithItem) : (withItem item).IsFilled := isFilled_of_isPhrase rfl

@[simp]
theorem isFilled_typeParam (p : TypeParam) : (typeParam p).IsFilled := isFilled_of_isPhrase rfl

end Node

end SyntaxTree
