import SyntaxTree.Proofs.Grammar.Argument
import SyntaxTree.Proofs.Render.Parameter
import SyntaxTree.Unicode.NameTable

/-
# Written argument lists

The arguments of a call are written with all keyword arguments behind the positional ones, whatever
the order in which they were read.  The list in this order is legal too, and reads as the same
arguments.
-/

namespace SyntaxTree

open Parse

/-! ## Items and their texts -/

namespace ArgumentItem

/-- The value of an item. -/
def value : ArgumentItem → Expr
  | .plain e | .starred e | .named _ e | .unpacked e => e

/-- An item without positions. -/
def bare : ArgumentItem → ArgumentItem
  | .plain e => .plain e.bare
  | .starred e => .starred e.bare
  | .named name e => .named name e.bare
  | .unpacked e => .unpacked e.bare

/-- The text of an item. -/
def write (quote : Byte) : ArgumentItem → Bytes
  | .plain e => e.write quote .test
  | .starred e => text "*" ++ e.write quote .bitOr
  | .named name e => argumentText (some name) (e.write quote .test)
  | .unpacked e => argumentText none (e.write quote .test)

/-- The value of an item is a simple expression, and its name can stand in a source. -/
structure IsSimple (item : ArgumentItem) : Prop where
  value : item.value.IsSimple
  name : ∀ name e, item = .named name e → IsIdentifier name

/-- An item is written for what it is. -/
theorem IsSimple.spells {item : ArgumentItem} (h : item.IsSimple) {quote : Byte}
    (hquote : quote.isQuote) :
    ∃ ws, SpellsItem (item.write quote) ws ∧ ReadsArgument item.bare ws := by
  cases item with
  | plain e =>
    obtain ⟨ws, hspells, hreads, -⟩ := h.value.spells hquote (p := .test) (by decide)
    exact ⟨ws, hspells.item, .plain hreads⟩
  | starred e =>
    obtain ⟨ws, hspells, hreads, -⟩ := h.value.spells hquote (p := .bitOr) (by decide)
    exact ⟨_, Mark.star.front hspells, .starred hreads⟩
  | named name e =>
    obtain ⟨ws, hspells, hreads, -⟩ := h.value.spells hquote (p := .test) (by decide)
    exact ⟨_, SpellsItem.keyword (h.name name e rfl) hspells, .named name hreads⟩
  | unpacked e =>
    obtain ⟨ws, hspells, hreads, -⟩ := h.value.spells hquote (p := .test) (by decide)
    exact ⟨_, Mark.doubleStar.front hspells, .unpacked hreads⟩

/-- The items of a list are written for what they are. -/
theorem exists_spells (items : List ArgumentItem) (h : ∀ item ∈ items, item.IsSimple) {quote : Byte}
    (hquote : quote.isQuote) :
    ∃ wss, List.Forall₂ SpellsItem (items.map (write quote)) wss ∧
      List.Forall₂ ReadsArgument (items.map bare) wss := by
  induction items with
  | nil => exact ⟨[], .nil, .nil⟩
  | cons item items ih =>
    obtain ⟨hitem, hitems⟩ := List.forall_mem_cons.mp h
    obtain ⟨ws, hspells, hreads⟩ := hitem.spells hquote
    obtain ⟨wss, hspells', hreads'⟩ := ih hitems
    exact ⟨ws :: wss, .cons hspells hspells', .cons hreads hreads'⟩

/-- Positions do not tell where an item may stand. -/
theorem legal_map_bare {items : List ArgumentItem} : Legal (items.map bare) ↔ Legal items := by
  refine List.pairwise_map.trans (iff_of_eq (congrArg (List.Pairwise · items) ?_))
  funext front item
  cases front <;> cases item <;> rfl

/-- The positional arguments of items without positions. -/
theorem filterMap_positional?_map_bare (items : List ArgumentItem) :
    (items.map bare).filterMap positional? = (items.filterMap positional?).map Expr.bare := by
  rw [List.filterMap_map, List.map_filterMap]
  refine congrArg (List.filterMap · items) (funext fun item => ?_)
  cases item <;> simp [bare, positional?, Expr.new]

/-- The keyword arguments of items without positions. -/
theorem filterMap_keyword?_map_bare (items : List ArgumentItem) :
    (items.map bare).filterMap keyword? = (items.filterMap keyword?).map Keyword.bare := by
  rw [List.filterMap_map, List.map_filterMap]
  refine congrArg (List.filterMap · items) (funext fun item => ?_)
  cases item <;> rfl

/-- The positional arguments are written as their items. -/
theorem writeAll_positional (quote : Byte) (items : List ArgumentItem) :
    Expr.writeAll quote .test (items.filterMap positional?) =
      (items.filter (·.keyword?.isNone)).map (write quote) := by
  have hstarred (e : Expr) : (Expr.new (.starred e .load)).write quote .test =
      text "*" ++ e.write quote .bitOr :=
    Expr.write_of_le (s := .starred e .load) (show Precedence.test ≤ .atom by decide)
  induction items with
  | nil => rfl
  | cons item items ih =>
    cases item with
    | plain e => exact congrArg (e.write quote .test :: ·) ih
    | starred e => exact congrArg₂ List.cons (hstarred e) ih
    | named _ _ | unpacked _ => exact ih

/-- The keyword arguments are written as their items. -/
theorem writeAll_keywords (quote : Byte) (items : List ArgumentItem) :
    Keyword.writeAll quote (items.filterMap keyword?) =
      (items.filter (·.keyword?.isSome)).map (write quote) := by
  induction items with
  | nil => rfl
  | cons item items ih =>
    cases item with
    | plain _ | starred _ => exact ih
    | named name e => exact congrArg (argumentText (some name) (e.write quote .test) :: ·) ih
    | unpacked e => exact congrArg (argumentText none (e.write quote .test) :: ·) ih

end ArgumentItem

/-! ## Calls and their texts -/

/-- Arguments that read back from the text of a call, whatever is called. -/
def Parse.ArgumentDraft.ReadsBack [Unicode.CharacterNames] (quote : Byte) (draft : ArgumentDraft) :
    Prop :=
  ∀ (span : Span) (callee : Expr), callee.IsOperatorTree →
    ∃ e, Expr.ofSource
        ((Expr.node span (.call callee draft.positional draft.keywords)).write quote .test) =
          .ok e ∧
      e.bare = .new
        (.call callee.bare (Expr.bareAll draft.positional) (Keyword.bareAll draft.keywords))

section Exact

variable {items : List ArgumentItem} {wss : List (List Word)} {trailing more : List Word}
  {c : Cursor} {f close : Word} {n : Nat} {draft : ArgumentDraft}

/-- What has been read from simple items is written as their partition. -/
theorem Parse.ArgumentDraft.Shows.write (h : draft.Shows items) (quote : Byte) :
    Expr.writeAll quote .test draft.positional ++ Keyword.writeAll quote draft.keywords =
      (ArgumentItem.partition items).map (ArgumentItem.write quote) := by
  rw [← Expr.writeAll_bare, ← Keyword.writeAll_bare, Expr.bareAll_eq_map, Keyword.bareAll_eq_map,
    h.positional, h.keywords, ArgumentItem.writeAll_positional, ArgumentItem.writeAll_keywords,
    ← List.map_append, ArgumentItem.partition]

/-- What has been read from simple items reads back from a call. -/
theorem Parse.ArgumentDraft.Shows.readsBack [Unicode.CharacterNames] (h : draft.Shows items)
    (hsimple : ∀ item ∈ items, item.IsSimple) {quote : Byte} (hquote : quote.isQuote) :
    draft.ReadsBack quote := by
  intro span callee hcallee
  obtain ⟨ws, hspells, hfits⟩ := (hcallee.written quote).inside .atom (by decide)
  obtain ⟨wss, htexts, hreads⟩ := ArgumentItem.exists_spells (ArgumentItem.partition items)
    (fun item hitem => hsimple item (ArgumentItem.mem_partition.mp hitem)) hquote
  have hlegal := ArgumentItem.legal_map_bare.mpr (ArgumentItem.legal_partition items)
  have hleads := (hfits.leads (.inr rfl)).call
    (show (Word.mk .openParen (text "(")).kind = .openParen from rfl) hreads hlegal
    (show (Word.mk .closeParen (text ")")).kind = .closeParen from rfl)
  rw [ArgumentItem.filterMap_positional?_map_bare, ArgumentItem.filterMap_keyword?_map_bare,
    ArgumentItem.filterMap_positional?_partition, ArgumentItem.filterMap_keyword?_partition,
    ← h.positional, ← h.keywords, ← Expr.bareAll_eq_map, ← Expr.bareAll_eq_map,
    ← Keyword.bareAll_eq_map, ← Keyword.bareAll_eq_map, Expr.bareAll_bareAll,
    Keyword.bareAll_bareAll] at hleads
  have htext : (Expr.node span (.call callee draft.positional draft.keywords)).write quote .test =
      callee.write quote .atom ++ parenthesize
        (commaSeparated ((ArgumentItem.partition items).map (ArgumentItem.write quote))) := by
    rw [Expr.write_of_le (s := .call ..) (show Precedence.test ≤ .atom by decide), Expr.Shape.write,
      h.write]
  rw [htext]
  exact (hspells.callOf htexts).ofSource ((hleads.reads (.inr rfl)).mono (Nat.zero_le _)).list

/-- Exactly the legal argument lists are read; what is read is the positional and the keyword
arguments of the list, each in their order; and it reads back from what is written for it as the
arguments of a call. -/
theorem Parse.arguments_exact [Unicode.CharacterNames] (h : List.Forall₂ ReadsArgument items wss)
    (field : FieldReading) (hn : ([Word.comma].intercalate wss).length < n)
    (htrailing : trailing = [] ∨ trailing = [Word.comma] ∧ items ≠ [])
    (hc : c.words = [Word.comma].intercalate wss ++ trailing ++ close :: f :: more)
    (hclose : close.kind = .closeParen) :
    ((∃ draft c', arguments (readUpTo field n) c = .ok draft c') ↔ ArgumentItem.Legal items) ∧
      ∀ draft c', arguments (readUpTo field n) c = .ok draft c' →
        c'.words = f :: more ∧
          Expr.bareAll draft.positional = items.filterMap ArgumentItem.positional? ∧
          Keyword.bareAll draft.keywords = items.filterMap ArgumentItem.keyword? ∧
          ((∀ item ∈ items, item.IsSimple) → ∀ quote : Byte, quote.isQuote →
            draft.ReadsBack quote) := by
  have hlegal {draft : ArgumentDraft} {c' : Cursor}
      (hrun : arguments (readUpTo field n) c = .ok draft c') : ArgumentItem.Legal items := by
    by_contra hillegal
    obtain ⟨e, c'', hfail⟩ := arguments_error h field hn htrailing hc hclose hillegal
    exact nomatch hrun.symm.trans hfail
  refine ⟨⟨fun ⟨_, _, hrun⟩ => hlegal hrun, fun hlegal => ?_⟩, fun draft c' hrun => ?_⟩
  · obtain ⟨draft, c', hrun, -⟩ := arguments_run h field hn htrailing hc hclose hlegal
    exact ⟨draft, c', hrun⟩
  · obtain ⟨draft', c'', hrun', hc', hs⟩ :=
      arguments_run h field hn htrailing hc hclose (hlegal hrun)
    obtain ⟨rfl, rfl⟩ := EStateM.Result.ok.inj (hrun.symm.trans hrun')
    rw [Expr.bareAll_eq_map, Keyword.bareAll_eq_map]
    exact ⟨hc', hs.positional, hs.keywords, fun hsimple _ hquote => hs.readsBack hsimple hquote⟩

open scoped Unicode.NameTable in
/-- A starred item between keyword arguments, and a comma at the end. -/
theorem Parse.arguments_exact_interleaved :
    ∃ draft c', arguments
        (readUpTo ⟨Unicode.NameTable.tableNames, fun _ _ => pure (.new (.constant .none))⟩ 20)
        (.ofWords [⟨.identifier, text "k"⟩, ⟨.equal, text "="⟩, ⟨.identifier, text "a"⟩, Word.comma,
          ⟨.star, text "*"⟩, ⟨.identifier, text "b"⟩, Word.comma, ⟨.doubleStar, text "**"⟩,
          ⟨.identifier, text "a"⟩, Word.comma, Word.closeParen, Word.newline]) = .ok draft c' ∧
      Expr.bareAll draft.positional =
        [.new (.starred (.new (.name (text "b") .load)) .load)] ∧
      Keyword.bareAll draft.keywords =
        [.mk .none (some (text "k")) (.new (.name (text "a") .load)),
          .mk .none none (.new (.name (text "a") .load))] ∧
      draft.ReadsBack Byte.doubleQuote := by
  have hname : ∀ s ∈ [text "a", text "b", text "k"], IsName s := by
    simp only [List.forall_mem_cons, List.not_mem_nil, false_implies, implies_true, and_true]
    exact ⟨⟨⟨_, _, rfl, rfl, rfl⟩, by decide⟩, ⟨⟨_, _, rfl, rfl, rfl⟩, by decide⟩,
      ⟨_, _, rfl, rfl, rfl⟩, by decide⟩
  have hreads (s : Bytes) : Reads .expression [⟨.identifier, s⟩] (.new (.name s .load)) :=
    ((Leads.name rfl).reads (.inr rfl)).mono (Nat.zero_le _)
  obtain ⟨hiff, hall⟩ := arguments_exact (n := 20) (f := Word.newline)
    (c := .ofWords [⟨.identifier, text "k"⟩, ⟨.equal, text "="⟩, ⟨.identifier, text "a"⟩,
      Word.comma, ⟨.star, text "*"⟩, ⟨.identifier, text "b"⟩, Word.comma, ⟨.doubleStar, text "**"⟩,
      ⟨.identifier, text "a"⟩, Word.comma, Word.closeParen, Word.newline])
    (.cons (.named (text "k") (hreads (text "a"))) (.cons (.starred (hreads (text "b")))
      (.cons (.unpacked (hreads (text "a"))) .nil)))
    ⟨Unicode.NameTable.tableNames, fun _ _ => pure (.new (.constant .none))⟩ (by decide)
    (.inr ⟨rfl, List.cons_ne_nil _ _⟩) rfl (show Word.closeParen.kind = .closeParen from rfl)
  obtain ⟨draft, c', hrun⟩ := hiff.mpr (by decide)
  obtain ⟨-, hpositional, hkeywords, hback⟩ := hall draft c' hrun
  refine ⟨draft, c', hrun, hpositional, hkeywords, hback ?_ _ rfl⟩
  have hvalue : ∀ s ∈ [text "a", text "b", text "k"], (Expr.new (.name s .load)).IsSimple :=
    fun s hs => .tree (.name _ (hname s hs))
  simp only [List.mem_cons, List.not_mem_nil, or_false]
  rintro item (rfl | rfl | rfl)
  · refine ⟨hvalue (text "a") (by simp), fun name e h => ?_⟩
    obtain ⟨rfl, -⟩ := ArgumentItem.named.inj h
    exact (hname (text "k") (by simp)).isIdentifier
  · exact ⟨hvalue (text "b") (by simp), nofun⟩
  · exact ⟨hvalue (text "a") (by simp), nofun⟩

end Exact

end SyntaxTree
