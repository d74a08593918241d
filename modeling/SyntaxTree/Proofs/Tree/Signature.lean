import Mathlib.Data.List.Basic
import SyntaxTree.Proofs.Tree.Bare

/-
# Parameter lists

A parameter list is written as a sequence of items: names, names with defaults, and the marks
between them.  Its rules say which items may stand behind which, so that a list is legal as soon as
each of its items may follow those in front of it, and nothing is missing at its end.  A legal list
determines the sections of the parameters, and can be told from them again.
-/

namespace SyntaxTree

/-- An item of a parameter list. -/
inductive ParameterItem where
  | plain (name : Bytes) (default : Option Expr)
  | slash
  /-- A star, with the name of a parameter or bare. -/
  | star (name : Option Bytes)
  | doubleStar (name : Bytes)

/-! ## The rules of parameter lists -/

namespace ParameterItem

/-- The parameter lists that the grammar allows. -/
structure Legal (items : List ParameterItem) : Prop where
  /-- There is one slash at most, with a plain parameter and no star in front of it. -/
  slash : ∀ {front back}, items = front ++ .slash :: back →
    .slash ∉ front ∧ (∃ name default, .plain name default ∈ front) ∧ ∀ name, .star name ∉ front
  /-- There is one star at most. -/
  star : ∀ {front name back}, items = front ++ .star name :: back → ∀ name', .star name' ∉ front
  /-- A bare star has a plain parameter behind it. -/
  bareStar : ∀ {front back}, items = front ++ .star none :: back →
    ∃ name default, .plain name default ∈ back
  /-- Nothing stands behind a double star. -/
  doubleStar : ∀ {front name back}, items = front ++ .doubleStar name :: back → back = []
  /-- No parameter without a default follows one with a default, unless a star stands in front. -/
  defaults : ∀ {front name back}, items = front ++ .plain name none :: back →
    (∀ name', .star name' ∉ front) → ∀ name' value, .plain name' (some value) ∉ front

/-- An item that may stand behind others. -/
def MayFollow (front : List ParameterItem) (item : ParameterItem) : Prop :=
  (∀ name, .doubleStar name ∉ front) ∧
    match item with
    | plain _ none =>
      (∀ name, .star name ∉ front) → ∀ name value, .plain name (some value) ∉ front
    | plain _ (some _) => True
    | slash =>
      .slash ∉ front ∧ (∃ name default, .plain name default ∈ front) ∧ ∀ name, .star name ∉ front
    | star _ => ∀ name, .star name ∉ front
    | doubleStar _ => True

/-- A list is legal if each item may follow those in front of it and no star is left bare. -/
theorem legal_iff {items : List ParameterItem} : Legal items ↔
    (∀ front item back, items = front ++ item :: back → MayFollow front item) ∧
      ∀ front back, items = front ++ .star none :: back →
        ∃ name default, .plain name default ∈ back := by
  constructor
  · refine fun h => ⟨fun front item back hitems => ⟨fun name hname => ?_, ?_⟩,
      fun front back => h.bareStar⟩
    · obtain ⟨first, last, rfl⟩ := List.append_of_mem hname
      rw [List.append_assoc] at hitems
      exact absurd (h.doubleStar hitems) (by simp)
    · match item with
      | plain name none => exact h.defaults hitems
      | plain name (some value) => trivial
      | slash => exact h.slash hitems
      | star name => exact h.star hitems
      | doubleStar name => trivial
  · rintro ⟨h, hbare⟩
    refine ⟨fun hitems => (h _ _ _ hitems).2, fun hitems => (h _ _ _ hitems).2, hbare _ _, ?_,
      fun hitems => (h _ _ _ hitems).2⟩
    intro front name back hitems
    cases back with
    | nil => rfl
    | cons next back =>
      have hnext := h (front ++ [.doubleStar name]) next back (by rw [hitems]; simp)
      exact absurd (by simp) (hnext.1 name)

end ParameterItem

/-! ## Sections -/

/-- Parameters sorted into the sections of a list, each plain one with its default. -/
structure Signature where
  positionalOnly : List (Bytes × Option Expr)
  positional : List (Bytes × Option Expr)
  /-- Whether there is a star. -/
  star : Bool
  variadic : Option Bytes
  keywordOnly : List (Bytes × Option Expr)
  variadicKeyword : Option Bytes

/-- Plain parameters as items. -/
def ParameterItem.plains (ps : List (Bytes × Option Expr)) : List ParameterItem :=
  ps.map fun p => .plain p.1 p.2

namespace Signature

open ParameterItem

/-- No parameters. -/
def empty : Signature := ⟨[], [], false, none, [], none⟩

/-- The items as which the sections are written. -/
def items (x : Signature) : List ParameterItem :=
  plains x.positionalOnly ++ (if x.positionalOnly.isEmpty then [] else [.slash]) ++
    plains x.positional ++ (if x.star then [.star x.variadic] else []) ++ plains x.keywordOnly ++
    x.variadicKeyword.toList.map .doubleStar

/-- Whether a further item may stand behind the sections. -/
def admits (x : Signature) (item : ParameterItem) : Bool :=
  x.variadicKeyword.isNone &&
    match item with
    | .slash => x.positionalOnly.isEmpty && !x.star && !x.positional.isEmpty
    | .star _ => !x.star
    | .doubleStar _ => true
    | .plain _ default =>
      x.star || default.isSome || (x.positionalOnly ++ x.positional).all (·.2.isNone)

/-- The sections with a further item. -/
def extend (x : Signature) : ParameterItem → Signature
  | .slash => { x with positionalOnly := x.positional, positional := [] }
  | .star name => { x with star := true, variadic := name }
  | .doubleStar name => { x with variadicKeyword := some name }
  | .plain name default =>
    if x.star then { x with keywordOnly := x.keywordOnly ++ [(name, default)] }
    else { x with positional := x.positional ++ [(name, default)] }

/-- Sections that can arise: what belongs behind a star has one in front, and the positional
parameters with defaults are the last ones. -/
structure WellFormed (x : Signature) : Prop where
  star : x.star = false → x.variadic = none ∧ x.keywordOnly = []
  defaults : (x.positionalOnly ++ x.positional).Pairwise fun p q => p.2.isSome → q.2.isSome

theorem WellFormed.empty : empty.WellFormed := ⟨fun _ => ⟨rfl, rfl⟩, .nil⟩

section Membership

variable {x : Signature}

theorem slash_mem_items : .slash ∈ x.items ↔ x.positionalOnly ≠ [] := by
  simp [items, plains]

theorem star_mem_items {name : Option Bytes} :
    .star name ∈ x.items ↔ x.star ∧ name = x.variadic := by
  simp [items, plains]

theorem doubleStar_mem_items {name : Bytes} :
    .doubleStar name ∈ x.items ↔ x.variadicKeyword = some name := by
  simp [items, plains]

theorem plain_mem_items {name : Bytes} {default : Option Expr} : .plain name default ∈ x.items ↔
    (name, default) ∈ x.positionalOnly ++ x.positional ∨ (name, default) ∈ x.keywordOnly := by
  simp [items, plains, or_assoc]

end Membership

/-- An item that is admitted becomes the last one. -/
theorem items_extend {x : Signature} {item : ParameterItem} (hx : x.WellFormed)
    (h : x.admits item) : (x.extend item).items = x.items ++ [item] := by
  obtain ⟨hlast, h⟩ := Bool.and_eq_true_iff.mp h
  rw [Option.isNone_iff_eq_none] at hlast
  match item with
  | .slash =>
    obtain ⟨⟨hfirst, hstar⟩, hne⟩ : (x.positionalOnly = [] ∧ x.star = false) ∧ ¬x.positional =
      [] := by
      simpa using h
    simp [items, extend, plains, hlast, hfirst, hstar, hx.star hstar, hne]
  | .star name =>
    have hstar : x.star = false := by simpa using h
    simp [items, extend, plains, hlast, hstar, hx.star hstar]
  | .doubleStar name =>
    rw [items, items, hlast, Option.toList_none, List.map_nil, List.append_nil]
    rfl
  | .plain name default =>
    cases hstar : x.star with
    | true => simp [items, extend, plains, hlast, hstar]
    | false => simp [items, extend, plains, hlast, hstar, hx.star hstar]

theorem WellFormed.extend {x : Signature} {item : ParameterItem} (hx : x.WellFormed)
    (h : x.admits item) : (x.extend item).WellFormed := by
  obtain ⟨-, h⟩ := Bool.and_eq_true_iff.mp h
  match item with
  | .slash =>
    obtain ⟨⟨hfirst, -⟩, -⟩ : (x.positionalOnly = [] ∧ x.star = false) ∧ ¬x.positional = [] := by
      simpa using h
    exact ⟨hx.star, by simpa [Signature.extend, hfirst] using hx.defaults⟩
  | .star name => exact ⟨nofun, hx.defaults⟩
  | .doubleStar name => exact ⟨hx.star, hx.defaults⟩
  | .plain name default =>
    by_cases hstar : x.star = true
    · rw [Signature.extend, if_pos hstar]
      exact ⟨fun h => absurd (hstar.symm.trans h) nofun, hx.defaults⟩
    · rw [Signature.extend, if_neg hstar]
      refine ⟨fun h => hx.star h, ?_⟩
      rw [← List.append_assoc, List.pairwise_append]
      refine ⟨hx.defaults, List.pairwise_singleton .., fun p hp q hq hsome => ?_⟩
      obtain rfl := List.mem_singleton.mp hq
      obtain hdefault | hnone : default.isSome ∨
          (x.positionalOnly ++ x.positional).all (·.2.isNone) := by
        simpa [hstar] using h
      · exact hdefault
      · exact absurd hsome (by simpa using List.all_eq_true.mp hnone p hp)

/-- No default is there exactly if no parameter has one. -/
theorem all_isNone_iff {ps : List (Bytes × Option Expr)} :
    ps.all (·.2.isNone) ↔ ∀ name value, (name, some value) ∉ ps := by
  rw [List.all_eq_true]
  constructor
  · exact fun h name value hmem => absurd (h _ hmem) Bool.false_ne_true
  · rintro h ⟨name, _ | value⟩ hmem
    · rfl
    · exact absurd hmem (h name value)

/-- An item is admitted exactly if it may follow those that are there. -/
theorem admits_iff {x : Signature} (hx : x.WellFormed) (item : ParameterItem) :
    x.admits item ↔ MayFollow x.items item := by
  have hlast : (∀ name, .doubleStar name ∉ x.items) ↔ x.variadicKeyword = none := by
    simp only [doubleStar_mem_items]
    exact Option.eq_none_iff_forall_ne_some.symm
  have hstar : (∀ name, .star name ∉ x.items) ↔ x.star = false := by
    simp [star_mem_items]
  unfold MayFollow admits
  rw [hlast, Bool.and_eq_true, Option.isNone_iff_eq_none]
  refine and_congr_right fun _ => ?_
  match item with
  | .slash =>
    rw [hstar, slash_mem_items]
    cases hx' : x.star with
    | true => simp
    | false =>
      simp only [plain_mem_items, (hx.star hx').2]
      cases hfirst : x.positionalOnly with
      | nil =>
        rw [← not_iff_not]
        simp [List.eq_nil_iff_forall_not_mem]
      | cons => simp
  | .star name => simp [hstar]
  | .doubleStar name => simp
  | .plain name (some value) => simp
  | .plain name none =>
    cases hx' : x.star with
    | true => simp [hstar, hx']
    | false =>
      simp only [hstar, hx', plain_mem_items, (hx.star hx').2]
      rw [Option.isSome_none, Bool.or_false, Bool.false_or, all_isNone_iff]
      simp

/-! ## Whole lists -/

/-- The sections of a list, if each item is admitted behind those in front of it. -/
def ofItems (x : Signature) (items : List ParameterItem) : Option Signature :=
  items.foldlM (fun x item => if x.admits item then some (x.extend item) else none) x

theorem ofItems_cons (x : Signature) (item : ParameterItem) (items : List ParameterItem) :
    x.ofItems (item :: items) = if x.admits item then (x.extend item).ofItems items else none := by
  rw [ofItems, List.foldlM_cons]
  split <;> rfl

/-- The sections of a list are written as the list. -/
theorem items_ofItems {items : List ParameterItem} {x x' : Signature} (hx : x.WellFormed)
    (h : x.ofItems items = some x') : x'.items = x.items ++ items ∧ x'.WellFormed := by
  induction items generalizing x with
  | nil =>
    obtain rfl := Option.some.inj h
    exact ⟨(List.append_nil _).symm, hx⟩
  | cons item items ih =>
    rw [ofItems_cons] at h
    obtain ⟨hadmits, h⟩ := Option.ite_none_right_eq_some.mp h
    obtain ⟨hitems, hx'⟩ := ih (hx.extend hadmits) h
    exact ⟨by rw [hitems, items_extend hx hadmits, List.append_assoc, List.singleton_append], hx'⟩

/-- A list has sections exactly if each item may follow those in front of it. -/
theorem exists_ofItems_iff {items : List ParameterItem} {x : Signature} (hx : x.WellFormed) :
    (∃ x', x.ofItems items = some x') ↔
      ∀ front item back, items = front ++ item :: back → MayFollow (x.items ++ front) item := by
  induction items generalizing x with
  | nil => exact ⟨fun _ front item back h => absurd h (by simp), fun _ => ⟨x, rfl⟩⟩
  | cons item items ih =>
    rw [ofItems_cons]
    by_cases hadmits : x.admits item
    · rw [if_pos hadmits, ih (hx.extend hadmits), items_extend hx hadmits]
      constructor
      · intro h front next back hsplit
        obtain ⟨rfl, hnext⟩ | ⟨front, rfl, hrest⟩ := List.cons_eq_append_iff.mp hsplit
        · obtain ⟨rfl, -⟩ := List.cons.inj hnext
          rw [List.append_nil]
          exact (admits_iff hx _).mp hadmits
        · rw [List.append_cons]
          exact h front next back hrest
      · intro h front next back hrest
        have hfollow := h (item :: front) next back (by rw [hrest, List.cons_append])
        rwa [List.append_cons] at hfollow
    · rw [if_neg hadmits]
      refine ⟨fun ⟨_, h⟩ => (nomatch h), fun h => absurd ?_ hadmits⟩
      have hfollow := h [] item items rfl
      rw [List.append_nil] at hfollow
      exact (admits_iff hx _).mpr hfollow

/-- A star has parameters behind it. -/
def IsComplete (x : Signature) : Prop := x.star → x.variadic.isSome ∨ x.keywordOnly ≠ []

/-- No star is left bare exactly if a plain parameter stands behind each bare one. -/
theorem isComplete_iff {x : Signature} : x.IsComplete ↔
    ∀ front back, x.items = front ++ .star none :: back →
      ∃ name default, .plain name default ∈ back := by
  by_cases hbare : .star none ∈ x.items
  · -- the bare star is the only star, so that there is one way to split the items at it
    obtain ⟨hstar, hvariadic⟩ := star_mem_items.mp hbare
    let front := plains x.positionalOnly ++ (if x.positionalOnly.isEmpty then [] else [.slash]) ++
      plains x.positional
    let back := plains x.keywordOnly ++ x.variadicKeyword.toList.map .doubleStar
    have hsplit : x.items = front ++ .star none :: back := by
      simp [items, front, back, hstar, ← hvariadic]
    have hfront : .star none ∉ front := by simp [front, plains]
    have hback : .star none ∉ back := by simp [back, plains]
    constructor
    · intro h front' back' hitems
      obtain ⟨-, -, rfl⟩ :=
        (List.append_cons_inj_of_notMem hfront hback).mp (hsplit.symm.trans hitems)
      have hkeywords : x.keywordOnly ≠ [] := (h hstar).resolve_left (by simp [← hvariadic])
      obtain ⟨p, hp⟩ := List.exists_mem_of_ne_nil _ hkeywords
      exact ⟨p.1, p.2, List.mem_append_left _ (List.mem_map_of_mem hp)⟩
    · refine fun h _ => .inr fun hkeywords => ?_
      obtain ⟨name, default, hmem⟩ := h _ _ hsplit
      simp [back, plains, hkeywords] at hmem
  · refine ⟨fun _ front back hitems => absurd (hitems ▸ by simp) hbare, fun _ hstar => .inl ?_⟩
    rw [star_mem_items] at hbare
    cases hvariadic : x.variadic with
    | none => exact absurd ⟨hstar, hvariadic.symm⟩ hbare
    | some name => rfl

/-- A list is legal exactly if it has complete sections. -/
theorem legal_iff {items : List ParameterItem} :
    Legal items ↔ ∃ x, empty.ofItems items = some x ∧ x.IsComplete := by
  rw [ParameterItem.legal_iff]
  have hitems := @exists_ofItems_iff items _ WellFormed.empty
  constructor
  · rintro ⟨hfollow, hbare⟩
    obtain ⟨x, hx⟩ := hitems.mpr hfollow
    obtain ⟨rfl, -⟩ := items_ofItems WellFormed.empty hx
    exact ⟨x, hx, isComplete_iff.mpr hbare⟩
  · rintro ⟨x, hx, hcomplete⟩
    have hfollow := hitems.mp ⟨x, hx⟩
    obtain ⟨rfl, -⟩ := items_ofItems WellFormed.empty hx
    exact ⟨hfollow, isComplete_iff.mp hcomplete⟩

end Signature

/-! ## Parameters in a tree -/

/-- Values that belong to the last of `count` places. -/
def alignLast {α : Type} (count : Nat) (values : List α) : List (Option α) :=
  List.replicate (count - values.length) none ++ values.map some

/-- The name of a parameter. -/
def Parameter.name : Parameter → Bytes
  | .mk _ name _ => name

/-- A keyword-only parameter as an item. -/
def KeywordOnly.item : KeywordOnly → ParameterItem
  | .mk parameter default => .plain parameter.name default

/-- The items of parameters in the order of their sections, each default with the parameter to which
it belongs. -/
def Parameters.items : Parameters → List ParameterItem
  | .mk positionalOnly positional variadic keywordOnly variadicKeyword defaults =>
    let aligned := alignLast (positionalOnly.length + positional.length) defaults
    List.zipWith .plain (positionalOnly.map Parameter.name) aligned ++
      (if positionalOnly.isEmpty then [] else [.slash]) ++
      List.zipWith .plain (positional.map Parameter.name) (aligned.drop positionalOnly.length) ++
      (if variadic.isNone ∧ keywordOnly.isEmpty then []
        else [.star (variadic.map Parameter.name)]) ++
      keywordOnly.map KeywordOnly.item ++
      variadicKeyword.toList.map fun p => .doubleStar p.name

namespace Signature

open ParameterItem

/-- A parameter without an annotation and a place. -/
def parameter (name : Bytes) : Parameter := .mk .none name none

/-- The sections as they stand in a tree. -/
def parameters (x : Signature) : Parameters :=
  .mk (x.positionalOnly.map (parameter ·.1)) (x.positional.map (parameter ·.1))
    (x.variadic.map parameter) (x.keywordOnly.map fun p => .mk (parameter p.1) p.2)
    (x.variadicKeyword.map parameter) ((x.positionalOnly ++ x.positional).filterMap (·.2))

/-- Defaults belong to the parameters that carry them where these are the last ones. -/
theorem alignLast_filterMap {ps : List (Bytes × Option Expr)}
    (h : ps.Pairwise fun p q => p.2.isSome → q.2.isSome) :
    alignLast ps.length (ps.filterMap (·.2)) = ps.map (·.2) := by
  induction ps with
  | nil => rfl
  | cons p ps ih =>
    obtain ⟨hp, hps⟩ := List.pairwise_cons.mp h
    replace ih := ih hps
    rw [alignLast] at ih ⊢
    cases hdefault : p.2 with
    | none =>
      have hle : (ps.filterMap (·.2)).length ≤ ps.length := List.length_filterMap_le _ ps
      rw [List.filterMap_cons_none hdefault, List.length_cons, Nat.succ_sub hle,
        List.replicate_succ, List.cons_append, ih, List.map_cons, hdefault]
    | some value =>
      have hall : (ps.filterMap (·.2)).length = ps.length :=
        List.filterMap_length_eq_length.mpr fun q hq => hp q hq (by rw [hdefault]; rfl)
      rw [hall, Nat.sub_self] at ih
      rw [List.filterMap_cons_some hdefault, List.length_cons, List.length_cons, hall,
        Nat.sub_self, List.map_cons, List.map_cons, hdefault]
      exact congrArg (some value :: ·) ih

/-- Names and what they carry are the parameters. -/
theorem zipWith_plain (ps : List (Bytes × Option Expr)) (defaults : List (Option Expr)) :
    List.zipWith .plain (ps.map (·.1)) (ps.map (·.2) ++ defaults) = plains ps := by
  induction ps with
  | nil => rfl
  | cons p ps ih => exact congrArg (ParameterItem.plain p.1 p.2 :: ·) ih

/-- A star is written exactly if a parameter belongs to it or behind it. -/
theorem star_items {x : Signature} (hx : x.WellFormed) (hcomplete : x.IsComplete) :
    (if x.variadic.isNone ∧ x.keywordOnly.isEmpty then [] else [ParameterItem.star x.variadic]) =
      if x.star then [.star x.variadic] else [] := by
  by_cases hstar : x.star = true
  · rw [if_pos hstar, if_neg]
    rintro ⟨hnone, hempty⟩
    exact (hcomplete hstar).elim (by simpa using hnone) (by simpa using hempty)
  · obtain ⟨hnone, hempty⟩ := hx.star (by simpa using hstar)
    rw [if_neg hstar, if_pos (by simp [hnone, hempty])]

/-- The sections can be told from the parameters in a tree. -/
theorem items_parameters {x : Signature} (hx : x.WellFormed) (hcomplete : x.IsComplete) :
    x.parameters.items = x.items := by
  have haligned := alignLast_filterMap hx.defaults
  rw [List.length_append, List.map_append] at haligned
  have hfirst := zipWith_plain x.positionalOnly (x.positional.map (·.2))
  have hsecond := zipWith_plain x.positional []
  rw [List.append_nil] at hsecond
  have hnames (ps : List (Bytes × Option Expr)) :
      (ps.map (parameter ·.1)).map Parameter.name = ps.map (·.1) := List.map_map
  have hvariadic : (x.variadic.map parameter).map Parameter.name = x.variadic := by
    cases x.variadic <;> rfl
  have hkeywords : (x.keywordOnly.map fun p => KeywordOnly.mk (parameter p.1) p.2).map
      KeywordOnly.item = plains x.keywordOnly := List.map_map
  have hdouble : ((x.variadicKeyword.map parameter).toList.map fun p =>
      ParameterItem.doubleStar p.name) = x.variadicKeyword.toList.map .doubleStar := by
    cases x.variadicKeyword <;> rfl
  simp only [parameters, Parameters.items, List.length_map, haligned, hnames, hfirst, hsecond,
    List.drop_left', hvariadic, hkeywords, hdouble, Option.isNone_map, List.isEmpty_map,
    star_items hx hcomplete]
  rfl

end Signature

end SyntaxTree
