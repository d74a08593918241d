import Mathlib.Data.List.Forall2
import SyntaxTree.Proofs.Grammar.Separated
import SyntaxTree.Proofs.Grammar.Whole

/-
# Argument lists in words

The words of an argument list are taken item by item.  An item is taken where it may stand behind
all those that have been taken, and refused otherwise, so that exactly the legal lists are read.
What has been read is a stable partition of the items: the positional arguments in their order, and
the keyword arguments in theirs.
-/

namespace SyntaxTree

open Parse

/-- An item of an argument list. -/
inductive ArgumentItem where
  | plain (value : Expr)
  | starred (value : Expr)
  | named (name : Bytes) (value : Expr)
  | unpacked (value : Expr)

namespace ArgumentItem

/-! ## The rules of argument lists -/

/-- The positional argument that an item is. -/
def positional? : ArgumentItem → Option Expr
  | .plain e => some e
  | .starred e => some (.new (.starred e .load))
  | .named .. | .unpacked _ => none

/-- The keyword argument that an item is. -/
def keyword? : ArgumentItem → Option Keyword
  | .plain _ | .starred _ => none
  | .named name e => some (.mk .none (some name) e)
  | .unpacked e => some (.mk .none none e)

/-- An item that may stand behind another one: no plain item behind a keyword argument, and no
starred one behind an unpacked mapping. -/
def MayFollow : (front item : ArgumentItem) → Prop
  | .named .., .plain _ | .unpacked _, .plain _ | .unpacked _, .starred _ => False
  | _, _ => True

instance (front item : ArgumentItem) : Decidable (MayFollow front item) := by
  unfold MayFollow
  split <;> infer_instance

/-- The argument lists that the grammar allows. -/
def Legal (items : List ArgumentItem) : Prop := items.Pairwise MayFollow

instance (items : List ArgumentItem) : Decidable (Legal items) :=
  inferInstanceAs (Decidable (items.Pairwise MayFollow))

/-- A positional argument may stand behind another one, and a keyword argument behind any item. -/
theorem mayFollow_of_keyword? {front item : ArgumentItem}
    (h : front.keyword? = none ∨ item.keyword?.isSome) : MayFollow front item := by
  cases front <;> cases item <;> first | trivial | simp [keyword?] at h

/-- The items of a list with all keyword arguments behind the positional ones. -/
def partition (items : List ArgumentItem) : List ArgumentItem :=
  items.filter (·.keyword?.isNone) ++ items.filter (·.keyword?.isSome)

/-- A partition has the items of the list. -/
theorem mem_partition {items : List ArgumentItem} {item : ArgumentItem} :
    item ∈ partition items ↔ item ∈ items := by
  rw [partition, List.mem_append, List.mem_filter, List.mem_filter, ← and_or_left,
    Option.isNone_iff_eq_none, Option.isSome_iff_ne_none]
  exact and_iff_left (em _)

/-- Positional arguments with keyword arguments behind them are legal, in whatever order they were
given. -/
theorem legal_partition (items : List ArgumentItem) : Legal (partition items) := by
  have hsome : ∀ item ∈ items.filter (·.keyword?.isSome), item.keyword?.isSome :=
    fun item h => (List.mem_filter.mp h).2
  have hnone : ∀ item ∈ items.filter (·.keyword?.isNone), item.keyword? = none :=
    fun item h => Option.isNone_iff_eq_none.mp (List.mem_filter.mp h).2
  refine List.pairwise_append.mpr
    ⟨?_, ?_, fun _ _ item h => mayFollow_of_keyword? (.inr (hsome item h))⟩
  · exact List.pairwise_of_forall_mem_list fun front h _ _ =>
      mayFollow_of_keyword? (.inl (hnone front h))
  · exact List.pairwise_of_forall_mem_list fun _ _ item h =>
      mayFollow_of_keyword? (.inr (hsome item h))

/-- An item is positional or a keyword argument. -/
theorem positional?_eq_none_iff (item : ArgumentItem) :
    item.positional? = none ↔ item.keyword?.isSome := by
  cases item <;> simp [positional?, keyword?]

/-- A partition keeps the positional arguments in their order. -/
theorem filterMap_positional?_partition (items : List ArgumentItem) :
    (partition items).filterMap positional? = items.filterMap positional? := by
  have hkeywords : (items.filter (·.keyword?.isSome)).filterMap positional? = [] :=
    List.filterMap_eq_nil_iff.mpr fun item h =>
      (positional?_eq_none_iff item).mpr (List.mem_filter.mp h).2
  rw [partition, List.filterMap_append, hkeywords, List.append_nil, List.filterMap_filter]
  refine congrArg (List.filterMap · items) (funext fun item => ?_)
  cases item <;> rfl

/-- A partition keeps the keyword arguments in their order. -/
theorem filterMap_keyword?_partition (items : List ArgumentItem) :
    (partition items).filterMap keyword? = items.filterMap keyword? := by
  have hpositional : (items.filter (·.keyword?.isNone)).filterMap keyword? = [] :=
    List.filterMap_eq_nil_iff.mpr fun item h =>
      Option.isNone_iff_eq_none.mp (List.mem_filter.mp h).2
  rw [partition, List.filterMap_append, hpositional, List.nil_append, List.filterMap_filter]
  refine congrArg (List.filterMap · items) (funext fun item => ?_)
  cases item <;> rfl

/-- The items with a further one, if it may stand behind all of them. -/
def extend? (items : List ArgumentItem) (item : ArgumentItem) : Option (List ArgumentItem) :=
  if ∀ front ∈ items, MayFollow front item then some (items ++ [item]) else none

/-- Items are added one after the other exactly if each may stand behind all in front of it. -/
theorem foldlM_extend?_eq_some_iff {items front all : List ArgumentItem} :
    items.foldlM extend? front = some all ↔
      all = front ++ items ∧ Legal items ∧ ∀ a ∈ front, ∀ b ∈ items, MayFollow a b := by
  induction items generalizing front with
  | nil => simp [Legal, eq_comm]
  | cons item items ih =>
    rw [List.foldlM_cons, Option.bind_eq_bind, Option.bind_eq_some_iff]
    simp only [extend?, Option.ite_none_right_eq_some, Option.some.injEq]
    constructor
    · rintro ⟨_, ⟨hitem, rfl⟩, hrest⟩
      obtain ⟨rfl, hlegal, hfollow⟩ := ih.mp hrest
      refine ⟨List.append_assoc .., List.pairwise_cons.mpr ⟨hfollow item (by simp), hlegal⟩, ?_⟩
      exact fun a ha => List.forall_mem_cons.mpr ⟨hitem a ha, hfollow a (by simp [ha])⟩
    · rintro ⟨rfl, hlegal, hfollow⟩
      obtain ⟨hbehind, hlegal⟩ := List.pairwise_cons.mp hlegal
      refine ⟨_, ⟨fun a ha => hfollow a ha item (by simp), rfl⟩, ih.mpr ⟨by simp, hlegal, ?_⟩⟩
      refine List.forall_mem_append.mpr ⟨fun a ha b hb => hfollow a ha b (by simp [hb]), ?_⟩
      exact List.forall_mem_singleton.mpr hbehind

/-- All items of a list are added exactly if the list is legal. -/
theorem foldlM_extend?_nil (items : List ArgumentItem) :
    items.foldlM extend? [] = if Legal items then some items else none := by
  split
  · next h => exact foldlM_extend?_eq_some_iff.mpr ⟨rfl, h, nofun⟩
  · next h =>
    rw [← Option.not_isSome_iff_eq_none, Option.isSome_iff_exists]
    exact fun ⟨_, hall⟩ => h (foldlM_extend?_eq_some_iff.mp hall).2.1

end ArgumentItem

/-- Words that are an item of an argument list. -/
inductive ReadsArgument : ArgumentItem → List Word → Prop where
  | plain {ws : List Word} {e : Expr} (h : Reads .expression ws e) : ReadsArgument (.plain e) ws
  | starred {ws : List Word} {e : Expr} (h : Reads .expression ws e) :
    ReadsArgument (.starred e) (⟨.star, text "*"⟩ :: ws)
  | named (name : Bytes) {ws : List Word} {e : Expr} (h : Reads .expression ws e) :
    ReadsArgument (.named name e) (⟨.identifier, name⟩ :: ⟨.equal, text "="⟩ :: ws)
  | unpacked {ws : List Word} {e : Expr} (h : Reads .expression ws e) :
    ReadsArgument (.unpacked e) (⟨.doubleStar, text "**"⟩ :: ws)

/-- A closing parenthesis is not the first word of an item. -/
theorem ReadsArgument.begins {item : ArgumentItem} {ws : List Word} (h : ReadsArgument item ws) :
    ∃ w tail, ws = w :: tail ∧ w.kind ≠ .closeParen := by
  cases h with
  | plain h =>
    obtain ⟨w, tail, hws, hw⟩ := h.begins
    exact ⟨w, tail, hws, hw.ne (by decide)⟩
  | starred _ => exact ⟨_, _, rfl, by rintro ⟨⟩⟩
  | named name _ => exact ⟨_, _, rfl, by rintro ⟨⟩⟩
  | unpacked _ => exact ⟨_, _, rfl, by rintro ⟨⟩⟩

/-! ## Drafts -/

/-- A draft holds the items that have been read, the positional arguments and the keyword arguments
apart. -/
structure Parse.ArgumentDraft.Shows (draft : ArgumentDraft) (items : List ArgumentItem) : Prop where
  positional : draft.positional.map Expr.bare = items.filterMap ArgumentItem.positional?
  keywords : draft.keywords.map Keyword.bare = items.filterMap ArgumentItem.keyword?

namespace Parse

variable {draft : ArgumentDraft} {items : List ArgumentItem} {item : ArgumentItem}
  {ws more : List Word} {e : Expr} {c : Cursor} {f : Word} {n : Nat}

namespace ArgumentDraft.Shows

theorem empty : ArgumentDraft.Shows ⟨[], []⟩ [] := ⟨rfl, rfl⟩

/-- A positional argument has been added. -/
theorem addPositional (h : draft.Shows items) {v : Expr} (hv : item.positional? = some v.bare) :
    ArgumentDraft.Shows { draft with positional := draft.positional ++ [v] } (items ++ [item]) where
  positional := by simp [h.positional, hv]
  keywords := by
    have hitem : item.keyword? = none := by cases item <;> first | rfl | exact nomatch hv
    simp [h.keywords, hitem]

/-- A keyword argument has been added. -/
theorem addKeyword (h : draft.Shows items) {k : Keyword} (hk : item.keyword? = some k.bare) :
    ArgumentDraft.Shows { draft with keywords := draft.keywords ++ [k] } (items ++ [item]) where
  positional := by
    have hitem : item.positional? = none := by cases item <;> first | rfl | exact nomatch hk
    simp [h.positional, hitem]
  keywords := by simp [h.keywords, hk]

/-- Whether a draft holds a keyword argument of some sort can be told from the items. -/
theorem any_keywords (h : draft.Shows items) {holds : Keyword → Bool}
    (hbare : ∀ k : Keyword, holds k.bare = holds k) :
    draft.keywords.any holds = items.any fun item => item.keyword?.any holds := by
  have hmap : (draft.keywords.map Keyword.bare).any holds = draft.keywords.any holds := by
    simp only [List.any_map, Function.comp_def, hbare]
  rw [← hmap, h.keywords, List.any_filterMap]
  refine congrArg items.any (funext fun item => ?_)
  cases item.keyword? <;> rfl

/-- A starred item may be added where no mapping has been unpacked. -/
theorem mayFollow_starred (h : draft.Shows items) :
    (∀ front ∈ items, ArgumentItem.MayFollow front (.starred e)) ↔
      ¬ draft.keywords.any (!·.isNamed) := by
  rw [h.any_keywords (fun k => by cases k; rfl), List.any_eq_true]
  push Not
  refine forall₂_congr fun front _ => ?_
  cases front <;> simp [ArgumentItem.MayFollow, ArgumentItem.keyword?, Keyword.isNamed]

/-- A plain item may be added where there is no keyword argument. -/
theorem mayFollow_plain (h : draft.Shows items) :
    (∀ front ∈ items, ArgumentItem.MayFollow front (.plain e)) ↔
      ¬ draft.keywords.any (!·.isNamed) ∧ ¬ draft.keywords.any (·.isNamed) := by
  rw [h.any_keywords (fun k => by cases k; rfl), h.any_keywords (fun k => by cases k; rfl),
    List.any_eq_true, List.any_eq_true]
  push Not
  rw [← forall₂_and]
  refine forall₂_congr fun front _ => ?_
  cases front <;> simp [ArgumentItem.MayFollow, ArgumentItem.keyword?, Keyword.isNamed]

end ArgumentDraft.Shows

/-! ## Items -/

section Items

variable (hs : draft.Shows items) (field : FieldReading) (hn : ws.length < n)
  (hf : f.kind = .comma ∨ f.kind = .closeParen)

include hs

/-- A keyword argument may follow whatever has been read. -/
theorem decides_keyword {k : Keyword} {c' : Cursor} {left : List Word} (item : ArgumentItem)
    {reading : Parse ArgumentDraft} (hitem : item.keyword? = some k.bare)
    (hc' : c'.words = left)
    (hrun : reading c = .ok { draft with keywords := draft.keywords ++ [k] } c') :
    Decides (ArgumentItem.extend? items item) ArgumentDraft.Shows reading c left := by
  refine .of_admits (fun _ => ⟨_, c', hrun, hc', hs.addKeyword hitem⟩) fun hrefused => ?_
  have hkeyword : item.keyword?.isSome := by rw [hitem]; rfl
  exact absurd (fun _ _ => ArgumentItem.mayFollow_of_keyword? (.inr hkeyword)) hrefused

/-- A positional argument is added where it may follow what has been read. -/
theorem decides_positional {v : Expr} {c' : Cursor} {left : List Word} (item : ArgumentItem)
    {reading : Parse ArgumentDraft} (hitem : item.positional? = some v.bare)
    (hc' : c'.words = left)
    (hadds : (∀ front ∈ items, ArgumentItem.MayFollow front item) →
      reading c = .ok { draft with positional := draft.positional ++ [v] } c')
    (hrefuses : ¬ (∀ front ∈ items, ArgumentItem.MayFollow front item) →
      ∃ e c', reading c = .error e c') :
    Decides (ArgumentItem.extend? items item) ArgumentDraft.Shows reading c left :=
  .of_admits (fun hfollows => ⟨_, c', hadds hfollows, hc', hs.addPositional hitem⟩) hrefuses

include hn hf

/-- An item without a mark is added where there is no keyword argument. -/
theorem addArgument_plain (h : Reads .expression ws e) (hc : c.words = ws ++ f :: more) :
    Decides (ArgumentItem.extend? items (.plain e)) ArgumentDraft.Shows
      (addArgument (readUpTo field n) draft) c (f :: more) := by
  have hends : f.kind.Ends .expression ∧ (f.kind ≠ .colonEqual ∧ f.kind ≠ .equal) ∧
      f.kind ≠ .kwFor ∧ f.kind ≠ .kwAsync := by
    obtain hf | hf := hf <;> rw [hf] <;> decide
  obtain ⟨v, c', hrun, hc', rfl⟩ := h.namedExpression field hn hc hends.1 hends.2.1
  obtain ⟨w, w', tail, hwords, hw, -, hw'⟩ := h.exists_two hends.2.1 more
  rw [hwords] at hc
  have hplain : plainArgument (readUpTo field n) c = .ok v c' := by
    rw [plainArgument, bind_ok hrun, bind_ok (startsClause_false hc' hends.2.2.1 hends.2.2.2)]
    rfl
  have hkeyword : (w'.kind == .equal) = false := by simpa using hw'
  have hargument : addArgument (readUpTo field n) draft c =
      (if draft.keywords.any (!·.isNamed) then failAtSpan .positionalAfterUnpacking v.span
      else if draft.keywords.any (·.isNamed) then failAtSpan .positionalAfterKeyword v.span
      else pure { draft with positional := draft.positional ++ [v] } : Parse ArgumentDraft) c' := by
    rw [addArgument, bind_ok (peek_run c), bind_ok (accept_false hc (hw.ne (by decide)))]
    simp only [Bool.false_eq_true, if_false]
    rw [bind_ok (accept_false hc (hw.ne (by decide)))]
    simp only [Bool.false_eq_true, if_false]
    rw [bind_ok (at?_run hc _), bind_ok (kindAt_run hc), hkeyword, Bool.and_false]
    simp only [Bool.false_eq_true, if_false]
    rw [bind_ok hplain]
  refine decides_positional hs (.plain v.bare) rfl hc' (fun hfollows => ?_) fun hrefused => ?_
  · obtain ⟨hunpacked, hnamed⟩ := hs.mayFollow_plain.mp hfollows
    rw [hargument, if_neg hunpacked, if_neg hnamed]
    rfl
  · rw [hargument]
    rw [hs.mayFollow_plain, not_and_or, not_not, not_not] at hrefused
    by_cases hunpacked : draft.keywords.any (!·.isNamed)
    · exact ⟨_, _, by rw [if_pos hunpacked]; rfl⟩
    · exact ⟨_, _, by rw [if_neg hunpacked, if_pos (hrefused.resolve_left hunpacked)]; rfl⟩

/-- An item with a star is added where no mapping has been unpacked. -/
theorem addArgument_starred (h : Reads .expression ws e)
    (hc : c.words = ⟨.star, text "*"⟩ :: (ws ++ f :: more)) :
    Decides (ArgumentItem.extend? items (.starred e)) ArgumentDraft.Shows
      (addArgument (readUpTo field n) draft) c (f :: more) := by
  have hends : f.kind.Ends .expression := by
    obtain hf | hf := hf <;> rw [hf] <;> decide
  obtain ⟨v, c', hrun, hc', rfl⟩ := h.read (g := .expression) field hn
    (Cursor.words_advance hc (by simp)) hends
  let starred : Expr := .node (c'.spanFrom c.peek.start) (.starred v .load)
  refine decides_positional (v := starred) hs (.starred v.bare) rfl hc' (fun hfollows => ?_)
    fun hrefused => ?_
  · rw [addArgument, bind_ok (peek_run c), bind_ok (accept_true (k := .star) hc rfl)]
    simp only [if_true]
    rw [if_neg (hs.mayFollow_starred.mp hfollows), bind_ok hrun]
    rfl
  · rw [hs.mayFollow_starred, not_not] at hrefused
    rw [addArgument, bind_ok (peek_run c), bind_ok (accept_true (k := .star) hc rfl)]
    simp only [if_true]
    exact ⟨_, _, by rw [if_pos hrefused]; rfl⟩

/-- An item with a name is a keyword argument. -/
theorem addArgument_named (name : Bytes) (h : Reads .expression ws e)
    (hc : c.words = ⟨.identifier, name⟩ :: ⟨.equal, text "="⟩ :: (ws ++ f :: more)) :
    Decides (ArgumentItem.extend? items (.named name e)) ArgumentDraft.Shows
      (addArgument (readUpTo field n) draft) c (f :: more) := by
  have hends : f.kind.Ends .expression := by
    obtain hf | hf := hf <;> rw [hf] <;> decide
  have hequal := Cursor.words_advance hc (by simp)
  have hname : c.peek.text = name := congrArg Word.text (Cursor.word_peek hc)
  obtain ⟨v, c', hrun, hc', rfl⟩ := h.read (g := .expression) field hn
    (Cursor.words_advance hequal (by simp)) hends
  refine decides_keyword (k := .mk (c'.spanFrom c.peek.start) (some name) v) hs
    (.named name v.bare) rfl hc' ?_
  rw [addArgument, bind_ok (peek_run c), bind_ok (accept_false (k := .star) hc (by rintro ⟨⟩))]
  simp only [Bool.false_eq_true, if_false]
  rw [bind_ok (accept_false (k := .doubleStar) hc (by rintro ⟨⟩))]
  simp only [Bool.false_eq_true, if_false]
  rw [bind_ok (at?_run hc _), bind_ok (kindAt_run hc), if_pos (by rfl), bind_ok (next_run c),
    bind_ok (next_run _), bind_ok hrun, hname]
  rfl

/-- An item with two stars is a keyword argument without a name. -/
theorem addArgument_unpacked (h : Reads .expression ws e)
    (hc : c.words = ⟨.doubleStar, text "**"⟩ :: (ws ++ f :: more)) :
    Decides (ArgumentItem.extend? items (.unpacked e)) ArgumentDraft.Shows
      (addArgument (readUpTo field n) draft) c (f :: more) := by
  have hends : f.kind.Ends .expression := by
    obtain hf | hf := hf <;> rw [hf] <;> decide
  obtain ⟨v, c', hrun, hc', rfl⟩ := h.read (g := .expression) field hn
    (Cursor.words_advance hc (by simp)) hends
  refine decides_keyword (k := .mk (c'.spanFrom c.peek.start) none v) hs (.unpacked v.bare) rfl
    hc' ?_
  rw [addArgument, bind_ok (peek_run c), bind_ok (accept_false (k := .star) hc (by rintro ⟨⟩))]
  simp only [Bool.false_eq_true, if_false]
  rw [bind_ok (accept_true (k := .doubleStar) hc rfl)]
  simp only [if_true]
  rw [bind_ok hrun]
  rfl

end Items

/-- An item is added where it may follow what has been read. -/
theorem addArgument_run (h : ReadsArgument item ws) (field : FieldReading) (hn : ws.length < n)
    (hs : draft.Shows items) (hc : c.words = ws ++ f :: more)
    (hf : f.kind = .comma ∨ f.kind = .closeParen) :
    Decides (ArgumentItem.extend? items item) ArgumentDraft.Shows
      (addArgument (readUpTo field n) draft) c (f :: more) := by
  cases h with
  | plain h => exact addArgument_plain hs field hn hf h hc
  | starred h => exact addArgument_starred hs field (Nat.lt_of_succ_lt hn) hf h hc
  | named name h =>
    exact addArgument_named hs field (Nat.lt_of_succ_lt (Nat.lt_of_succ_lt hn)) hf name h hc
  | unpacked h => exact addArgument_unpacked hs field (Nat.lt_of_succ_lt hn) hf h hc

/-! ## Whole lists -/

section Lists

variable {wss : List (List Word)} {trailing : List Word} {close : Word}
  (h : List.Forall₂ ReadsArgument items wss) (field : FieldReading)
  (hn : ([Word.comma].intercalate wss).length < n)
  (htrailing : trailing = [] ∨ trailing = [Word.comma] ∧ items ≠ [])
  (hc : c.words = [Word.comma].intercalate wss ++ trailing ++ close :: f :: more)
  (hclose : close.kind = .closeParen)

include h hn htrailing hc hclose

/-- A list is taken item by item: either each may stand where it stands, or the reading fails. -/
theorem argumentSteps_run :
    Decides (items.foldlM ArgumentItem.extend? []) ArgumentDraft.Shows
      (iterate (argumentStep (readUpTo field n)) ⟨[], []⟩) c (close :: f :: more) :=
  iterate_pieceStep_decides h (by rintro ⟨⟩) ReadsArgument.begins
    (fun h hn hs hc hf => addArgument_run h field hn hs hc hf) hn .empty htrailing hc hclose

/-- A legal list is read as its positional arguments and its keyword arguments. -/
theorem arguments_run (hlegal : ArgumentItem.Legal items) :
    ∃ draft c', arguments (readUpTo field n) c = .ok draft c' ∧ c'.words = f :: more ∧
      draft.Shows items := by
  obtain ⟨draft, c', hrun, hc', hs⟩ :=
    (argumentSteps_run h field hn htrailing hc hclose).adds
      ((ArgumentItem.foldlM_extend?_nil items).trans (if_pos hlegal))
  refine ⟨draft, c'.advance, ?_, Cursor.words_advance hc' (by simp), hs⟩
  rw [arguments, bind_ok hrun, bind_ok (expect_run .argumentsClose hc' hclose)]
  rfl

/-- A list that is not legal is refused. -/
theorem arguments_error (hillegal : ¬ ArgumentItem.Legal items) :
    ∃ e c', arguments (readUpTo field n) c = .error e c' := by
  obtain ⟨e, c', hrun⟩ := (argumentSteps_run h field hn htrailing hc hclose).refuses
    ((ArgumentItem.foldlM_extend?_nil items).trans (if_neg hillegal))
  exact ⟨e, c', by rw [arguments, bind_error hrun]⟩

end Lists

end Parse

end SyntaxTree
