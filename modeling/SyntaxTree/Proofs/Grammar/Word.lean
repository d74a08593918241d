import Mathlib.Data.List.Forall2
import SyntaxTree.Grammar.Expression

/-
# Words ahead of the cursor

A word is a token without its places.  What a reading does depends on the words ahead of the cursor,
apart from the spans of the syntax it gives.
-/

namespace SyntaxTree

/-! ## Words -/

/-- A token without its places. -/
structure Word where
  kind : TokenKind
  text : Bytes
  deriving DecidableEq, Repr

/-- The word of a token. -/
def Token.word (t : Token) : Word := ⟨t.kind, t.text⟩

namespace Cursor

/-- The words ahead, the one that ends the input included. -/
def words (c : Cursor) : List Word := (c.rest ++ [c.final]).map Token.word

theorem length_words (c : Cursor) : c.words.length = c.rest.length + 1 := by
  simp [words]

/-- The word at the cursor is the first one ahead. -/
theorem word_peek {c : Cursor} {w : Word} {ws : List Word} (h : c.words = w :: ws) :
    c.peek.word = w := by
  obtain ⟨_, _, rest, final, _⟩ := c
  cases rest <;> exact (List.cons.inj h).1

theorem kind_peek {c : Cursor} {w : Word} {ws : List Word} (h : c.words = w :: ws) :
    c.peek.kind = w.kind :=
  congrArg Word.kind (word_peek h)

/-- Taking a token moves on to the next word. -/
theorem words_advance {c : Cursor} {w : Word} {ws : List Word} (h : c.words = w :: ws)
    (hws : ws ≠ []) : c.advance.words = ws := by
  obtain ⟨_, _, rest, final, _⟩ := c
  cases rest with
  | nil => exact absurd (List.cons.inj h).2.symm hws
  | cons t rest => exact (List.cons.inj h).2

theorem kind_peekAt_one {c : Cursor} {w w' : Word} {ws : List Word}
    (h : c.words = w :: w' :: ws) : (c.peekAt 1).kind = w'.kind := by
  obtain ⟨_, _, rest, final, _⟩ := c
  rcases rest with _ | ⟨t, _ | ⟨t', rest⟩⟩
  · simp [words] at h
  · exact congrArg Word.kind (List.cons.inj (List.cons.inj h).2).1
  · exact congrArg Word.kind (List.cons.inj (List.cons.inj h).2).1

end Cursor

/-! ## Running readings -/

namespace Parse

variable {α β σ : Type}

/-- A reading that succeeds hands its result on. -/
theorem bind_ok {p : Parse α} {f : α → Parse β} {c c' : Cursor} {a : α} (h : p c = .ok a c') :
    (p >>= f) c = f a c' := by
  simp only [bind, EStateM.bind, h]

/-- A reading that fails is the end. -/
theorem bind_error {p : Parse α} {f : α → Parse β} {c c' : Cursor} {e : SyntaxError}
    (h : p c = .error e c') : (p >>= f) c = .error e c' := by
  simp only [bind, EStateM.bind, h]

/-- Two readings succeed one after the other exactly if each does. -/
theorem exists_of_bind_eq_ok {p : Parse α} {f : α → Parse β} {c c' : Cursor} {b : β}
    (h : (p >>= f) c = .ok b c') : ∃ a c₁, p c = .ok a c₁ ∧ f a c₁ = .ok b c' := by
  simp only [bind, EStateM.bind] at h
  split at h
  · rename_i a c₁ hp
    exact ⟨a, c₁, hp, h⟩
  · cases h

theorem peek_run (c : Cursor) : peek c = .ok c.peek c := rfl

theorem kind_run {c : Cursor} {w : Word} {ws : List Word} (h : c.words = w :: ws) :
    kind c = .ok w.kind c := by
  rw [← Cursor.kind_peek h]
  rfl

theorem kindAt_run {c : Cursor} {w w' : Word} {ws : List Word} (h : c.words = w :: w' :: ws) :
    kindAt 1 c = .ok w'.kind c := by
  rw [← Cursor.kind_peekAt_one h]
  rfl

theorem at?_run {c : Cursor} {w : Word} {ws : List Word} (h : c.words = w :: ws)
    (k : TokenKind) : at? k c = .ok (w.kind == k) c := by
  rw [← Cursor.kind_peek h]
  rfl

theorem next_run (c : Cursor) : next c = .ok c.peek c.advance := rfl

/-- A token of the right kind is taken. -/
theorem accept_true {c : Cursor} {w : Word} {ws : List Word} (h : c.words = w :: ws)
    {k : TokenKind} (hk : w.kind = k) : accept k c = .ok true c.advance := by
  rw [accept, bind_ok (at?_run h k), if_pos (by simpa using hk), bind_ok (next_run c)]
  rfl

/-- A token of another kind stays. -/
theorem accept_false {c : Cursor} {w : Word} {ws : List Word} (h : c.words = w :: ws)
    {k : TokenKind} (hk : w.kind ≠ k) : accept k c = .ok false c := by
  rw [accept, bind_ok (at?_run h k), if_neg (by simpa using hk)]
  rfl

/-- A token that must stand at the cursor and does is taken. -/
theorem expect_run (what : Missing) {c : Cursor} {w : Word} {ws : List Word}
    (h : c.words = w :: ws) (hk : w.kind = what.kind) : expect what c = .ok () c.advance := by
  rw [expect, bind_ok (accept_true h hk)]
  rfl

theorem exprFrom_run (start : Position) (shape : Expr.Shape) (c : Cursor) :
    exprFrom start shape c = .ok (.node (c.spanFrom start) shape) c := rfl

/-! ## Repeated readings -/

/-- As many tokens are left as there are words behind the first one. -/
theorem length_rest {c : Cursor} {w : Word} {ws : List Word} (h : c.words = w :: ws) :
    c.rest.length = ws.length := by
  have hlength := c.length_words
  rw [h, List.length_cons] at hlength
  exact (Nat.succ.inj hlength).symm

/-- The tokens ahead bound the nesting. -/
theorem limit_run {c : Cursor} {w : Word} {ws : List Word} (h : c.words = w :: ws) :
    limit c = .ok (ws.length + 1) c := by
  rw [← length_rest h]
  rfl

theorem iterate_run (step : σ → Parse (ForInStep σ)) (s : σ) {c : Cursor} {w : Word}
    {ws : List Word} (h : c.words = w :: ws) :
    iterate step s c = iterateUpTo step (ws.length + 1) s c := by
  rw [← length_rest h]
  rfl

theorem iterateUpTo_yield {step : σ → Parse (ForInStep σ)} {s s' : σ} {c c' : Cursor}
    (h : step s c = .ok (.yield s') c') (limit : Nat) :
    iterateUpTo step (limit + 1) s c = iterateUpTo step limit s' c' := by
  rw [iterateUpTo, bind_ok h]

theorem iterateUpTo_done {step : σ → Parse (ForInStep σ)} {s s' : σ} {c c' : Cursor}
    (h : step s c = .ok (.done s') c') (limit : Nat) :
    iterateUpTo step (limit + 1) s c = .ok s' c' := by
  rw [iterateUpTo, bind_ok h]
  rfl

theorem collect_run (item : Parse (Option α)) {c : Cursor} {w : Word} {ws : List Word}
    (h : c.words = w :: ws) : collect item c = collectUpTo item (ws.length + 1) c := by
  rw [← length_rest h]
  rfl

theorem collectUpTo_none {item : Parse (Option α)} {c c' : Cursor} (h : item c = .ok none c')
    (limit : Nat) : collectUpTo item (limit + 1) c = .ok [] c' := by
  rw [collectUpTo, bind_ok h]
  rfl

theorem collectUpTo_some {item : Parse (Option α)} {c c' c'' : Cursor} {a : α} {as : List α}
    {limit : Nat} (h : item c = .ok (some a) c') (hrest : collectUpTo item limit c' = .ok as c'') :
    collectUpTo item (limit + 1) c = .ok (a :: as) c'' := by
  rw [collectUpTo, bind_ok h]
  show ((collectUpTo item limit >>= fun as => pure (a :: as)) : Parse (List α)) c' = _
  rw [bind_ok hrest]
  rfl

/-- A reading that gives one item for some words, whenever a word that may follow does. -/
structure ReadsItem (item : Parse (Option α)) (follows : TokenKind → Prop) (ws : List Word)
    (result : α → Prop) : Prop where
  begins : ∃ w tail, ws = w :: tail ∧ follows w.kind
  run : ∀ (c : Cursor) (f : Word) (more : List Word), c.words = ws ++ f :: more →
    follows f.kind → ∃ a c', item c = .ok (some a) c' ∧ c'.words = f :: more ∧ result a

/-- The word behind an item begins the next one, or is the word where the items end. -/
theorem exists_next_item {ι : Type} {item : Parse (Option α)} {follows : TokenKind → Prop}
    {words : ι → List Word} {result : α → ι → Prop} {pieces : List ι} {f : Word}
    (more : List Word)
    (hpieces : ∀ i ∈ pieces, ReadsItem item follows (words i) (result · i))
    (hf : follows f.kind) :
    ∃ f' more', pieces.flatMap words ++ f :: more = f' :: more' ∧ follows f'.kind := by
  cases pieces with
  | nil => exact ⟨f, more, rfl, hf⟩
  | cons i pieces =>
    obtain ⟨w, tail, hw, hfollows⟩ := (hpieces i (by simp)).begins
    exact ⟨w, _, by rw [List.flatMap_cons, hw]; rfl, hfollows⟩

/-- Items that can be read one by one are collected up to the word where there is none. -/
theorem collectUpTo_items {ι : Type} {item : Parse (Option α)} {follows : TokenKind → Prop}
    {words : ι → List Word} {result : α → ι → Prop} {f : Word} {more left : List Word}
    (hf : follows f.kind)
    (hstop : ∀ c : Cursor, c.words = f :: more → ∃ c', item c = .ok none c' ∧ c'.words = left) :
    ∀ (pieces : List ι) (limit : Nat) (c : Cursor),
      (∀ i ∈ pieces, ReadsItem item follows (words i) (result · i)) →
      c.words = pieces.flatMap words ++ f :: more → pieces.length < limit →
      ∃ as c', collectUpTo item limit c = .ok as c' ∧ c'.words = left ∧
        List.Forall₂ result as pieces := by
  intro pieces
  induction pieces with
  | nil =>
    intro limit c _ hc hlimit
    obtain ⟨limit, rfl⟩ := Nat.exists_eq_add_of_lt hlimit
    obtain ⟨c', hitem, hleft⟩ := hstop c hc
    exact ⟨[], c', collectUpTo_none hitem _, hleft, .nil⟩
  | cons i pieces ih =>
    intro limit c hpieces hc hlimit
    obtain ⟨limit, rfl⟩ := Nat.exists_eq_add_of_lt hlimit
    obtain ⟨f', more', hnext, hf'⟩ :=
      exists_next_item more (fun j hj => hpieces j (List.mem_cons_of_mem i hj)) hf
    rw [List.flatMap_cons, List.append_assoc, hnext] at hc
    obtain ⟨a, c₁, hitem, hc₁, ha⟩ := (hpieces i (by simp)).run c f' more' hc hf'
    rw [← hnext] at hc₁
    obtain ⟨as, c', hrest, hleft, has⟩ := ih (pieces.length + 1 + limit) c₁
      (fun j hj => hpieces j (List.mem_cons_of_mem i hj)) hc₁ (by omega)
    refine ⟨a :: as, c', ?_, hleft, .cons ha has⟩
    rw [List.length_cons]
    exact collectUpTo_some hitem hrest

/-- Items that are not empty are at most as many as their words. -/
theorem length_le_length_flatMap {ι : Type} {words : ι → List Word} {pieces : List ι}
    (h : ∀ i ∈ pieces, words i ≠ []) : pieces.length ≤ (pieces.flatMap words).length := by
  induction pieces with
  | nil => exact Nat.le_refl 0
  | cons i pieces ih =>
    have hi := List.length_pos_iff.mpr (h i (by simp))
    have hrest := ih fun j hj => h j (List.mem_cons_of_mem i hj)
    rw [List.flatMap_cons, List.length_append, List.length_cons]
    omega

/-- The tokens ahead are enough to collect all items. -/
theorem collect_items {ι : Type} {item : Parse (Option α)} {follows : TokenKind → Prop}
    {words : ι → List Word} {result : α → ι → Prop} {f : Word} {more left : List Word}
    {pieces : List ι} (hpieces : ∀ i ∈ pieces, ReadsItem item follows (words i) (result · i))
    (hf : follows f.kind)
    (hstop : ∀ c : Cursor, c.words = f :: more → ∃ c', item c = .ok none c' ∧ c'.words = left)
    {c : Cursor} (hc : c.words = pieces.flatMap words ++ f :: more) :
    ∃ as c', collect item c = .ok as c' ∧ c'.words = left ∧ List.Forall₂ result as pieces := by
  have hnonempty : ∀ i ∈ pieces, words i ≠ [] := by
    intro i hi
    obtain ⟨w, tail, hw, _⟩ := (hpieces i hi).begins
    simp [hw]
  have hlength := length_le_length_flatMap hnonempty
  have htotal := congrArg List.length hc
  rw [c.length_words, List.length_append, List.length_cons] at htotal
  exact collectUpTo_items hf hstop pieces (c.rest.length + 1) c hpieces hc (by omega)

/-! ## Looks -/

/-- A reading that only looks. -/
def Looks (p : Parse α) : Prop := ∀ c, ∃ a, p c = .ok a c

namespace Looks

theorem pure (a : α) : Looks (pure a) := fun _ => ⟨a, rfl⟩

theorem bind {p : Parse α} {k : α → Parse β} (h : Looks p) (hk : ∀ a, Looks (k a)) :
    Looks (p >>= k) := by
  intro c
  obtain ⟨a, ha⟩ := h c
  obtain ⟨b, hb⟩ := hk a c
  exact ⟨b, by rw [bind_ok ha, hb]⟩

theorem at? (kind : TokenKind) : Looks (at? kind) := fun _ => ⟨_, rfl⟩

theorem kind : Looks kind := fun _ => ⟨_, rfl⟩

theorem kindAt (distance : Nat) : Looks (kindAt distance) := fun _ => ⟨_, rfl⟩

theorem isWordAt (distance : Nat) (word : Bytes) : Looks (isWordAt distance word) :=
  fun _ => ⟨_, rfl⟩

/-- A choice between two looks. -/
theorem ite {b : Prop} [Decidable b] {p p' : Parse α} (h : Looks p) (h' : Looks p') :
    Looks (if b then p else p') := by
  split
  · exact h
  · exact h'

theorem startsExpression : Looks startsExpression :=
  kind.bind fun k => by split <;> exact pure _

theorem startsStarred : Looks startsStarred :=
  startsExpression.bind fun _ => ite (pure _) (at? _)

theorem startsNoItem : Looks startsNoItem := startsStarred.bind fun _ => pure _

theorem startsClause : Looks startsClause :=
  (at? _).bind fun _ => ite (pure _) ((at? _).bind fun _ => ite ((kindAt 1).bind fun _ => pure _)
    (pure _))

theorem endsSlicePart : Looks endsSlicePart :=
  kind.bind fun k => by split <;> exact pure _

end Looks

end Parse

end SyntaxTree
