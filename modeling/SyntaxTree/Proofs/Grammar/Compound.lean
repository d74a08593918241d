import SyntaxTree.Proofs.Grammar.Parameter
import SyntaxTree.Proofs.Grammar.Statement

/-
# Words of compound statements

A compound statement is read from the words of its header and from those of its blocks.  What may
follow a part of it decides whether the part goes on: further conditions, handlers and final blocks
stand behind words of their own.
-/

namespace SyntaxTree

open Parse

/-! ## Parts of compound statements -/

/-- Words that are a block behind a word, or nothing. -/
inductive ReadsPart (word : Word) : List Word → List Stmt → Prop where
  | none : ReadsPart word [] []
  | block (width : Nat) {ws : List Word} {ss : List Stmt} (h : ReadsAll ws ss) :
    ReadsPart word (word :: blockWords width ws) ss

/-- Words that are a condition and its block behind a word. -/
inductive ReadsBranch (word : Word) : List Word → Expr → List Stmt → Prop where
  | mk (width : Nat) {ws ws' : List Word} {e : Expr} {ss : List Stmt}
    (htest : Reads .expression ws e)
    (hbody : ReadsAll ws' ss) : ReadsBranch word (word :: (ws ++ blockWords width ws')) e ss

/-- Words that are the alternative of a condition: a block, a further condition, or nothing. -/
inductive ReadsElse : List Word → List Stmt → Prop where
  | part {ws : List Word} {ss : List Stmt} (h : ReadsPart Word.elseWord ws ss) : ReadsElse ws ss
  | elif {ws ws' : List Word} {e : Expr} {ss orelse : List Stmt}
    (h : ReadsBranch Word.elifWord ws e ss) (hrest : ReadsElse ws' orelse) :
    ReadsElse (ws ++ ws') [.new (.conditional e ss orelse)]

section Parts

variable (field : FieldReading) (n limit : Nat) {c : Cursor} {f : Word} {more ws : List Word}
  {ss : List Stmt} {e : Expr}

/-- The block behind a word is read if there is one. -/
theorem ReadsPart.run {word : Word} (h : ReadsPart word ws ss) (header : Header)
    (hn : ws.length ≤ min n limit) (hc : c.words = ws ++ f :: more) (hf : f.kind ≠ word.kind) :
    ∃ vs c', (do
        if ← accept word.kind then
          blockAfter header (readUpTo field n) (statementsUpTo (readUpTo field n) field limit)
        else return []) c = .ok vs c' ∧ c'.words = f :: more ∧ Stmt.bareAll vs = ss := by
  cases h with
  | none => exact ⟨[], c, by rw [bind_ok (accept_false hc hf)]; rfl, hc, rfl⟩
  | block width h =>
    rw [blockWords] at hn
    obtain ⟨vs, c', hrun, hc', hvs⟩ := h.blockAfter_run field n limit header
      (by simp at hn ⊢; omega) (Cursor.words_advance hc (by simp))
    exact ⟨vs, c', by rw [bind_ok (accept_true hc rfl), if_pos rfl, hrun], hc', hvs⟩

theorem ReadsBranch.begins {word : Word} (h : ReadsBranch word ws e ss) :
    ∃ tail, ws = word :: tail := by
  cases h
  exact ⟨_, rfl⟩

/-- A condition and its block are read at the word in front of them. -/
theorem ReadsBranch.run {word : Word} (h : ReadsBranch word ws e ss) (header : Header)
    (hn : ws.length ≤ min n limit) (hc : c.words = ws ++ f :: more) :
    ∃ b c', branch header (readUpTo field n) (statementsUpTo (readUpTo field n) field limit) c =
        .ok b c' ∧ c'.words = f :: more ∧ b.test.bare = e ∧ Stmt.bareAll b.body = ss := by
  obtain ⟨width, htest, hbody⟩ := h
  rw [blockWords] at hn
  rw [List.cons_append, List.append_assoc] at hc
  obtain ⟨test, c₁, hrun, hc₁, he⟩ := htest.namedExpression field (n := n)
    (by simp at hn ⊢; omega) (Cursor.words_advance hc (by simp)) (by decide) (by decide)
  obtain ⟨vs, c', hrun', hc', hvs⟩ :=
    hbody.blockAfter_run field n limit header (by simp at hn ⊢; omega) hc₁
  refine ⟨⟨c.peek.start, test, vs⟩, c', ?_, hc', he, hvs⟩
  rw [branch, bind_ok (next_run c), bind_ok hrun, bind_ok hrun']
  rfl

/-- What a branch holds without positions. -/
def Parse.Branch.Holds (b : Branch) (test : Expr) (body : List Stmt) : Prop :=
  b.test.bare = test ∧ Stmt.bareAll b.body = body

/-- Further conditions are read one by one. -/
theorem ReadsBranch.collect_run {branches : List (List Word × Expr × List Stmt)}
    (h : ∀ b ∈ branches, ReadsBranch Word.elifWord b.1 b.2.1 b.2.2)
    (hn : (branches.flatMap Prod.fst).length ≤ min n limit)
    (hc : c.words = branches.flatMap Prod.fst ++ f :: more) (hf : f.kind ≠ .kwElif) :
    ∃ bs c', collect (do
        if ← at? .kwElif then
          return some (← branch .elifCondition (readUpTo field n)
            (statementsUpTo (readUpTo field n) field limit))
        else return none) c = .ok bs c' ∧ c'.words = f :: more ∧
      List.Forall₂ (fun b p => b.Holds p.2.1 p.2.2) bs branches := by
  let step : Parse (Option Parse.Branch) := do
    if ← at? .kwElif then
      return some (← branch .elifCondition (readUpTo field n)
        (statementsUpTo (readUpTo field n) field limit))
    else return none
  have hitems :
      ∀ p ∈ branches, ReadsItem step (fun _ => True) p.1 fun b => b.Holds p.2.1 p.2.2 := by
    intro p hp
    have hlength : p.1.length ≤ min n limit :=
      Nat.le_trans (List.sublist_flatten_of_mem (List.mem_map_of_mem hp)).length_le
        (List.flatMap_def ▸ hn)
    obtain ⟨tail, htail⟩ := (h p hp).begins
    refine ⟨⟨_, _, htail, trivial⟩, fun c f more hc _ => ?_⟩
    obtain ⟨b, c', hrun, hc', hb⟩ := (h p hp).run field n limit .elifCondition hlength hc
    rw [htail] at hc
    refine ⟨b, c', ?_, hc', hb⟩
    dsimp only [step]
    rw [bind_ok (at?_run hc _), if_pos (by rfl), bind_ok hrun]
    rfl
  refine collect_items hitems trivial (fun c hc => ⟨c, ?_, hc⟩) hc
  dsimp only [step]
  rw [bind_ok (at?_run hc _), if_neg (by simpa using hf)]
  rfl

/-- A name is read as the target of a loop. -/
theorem starTargets_name {name : Bytes} (hn : 1 < n)
    (hc : c.words = ⟨.identifier, name⟩ :: f :: more) (hf : f.kind.Ends .bitOr)
    (hcomma : f.kind ≠ .comma) :
    ∃ v c', starTargets (readUpTo field n) c = .ok v c' ∧ c'.words = f :: more ∧
      v.bare = .new (.name name .store) := by
  have hname : Reads .bitOr [⟨.identifier, name⟩] (.new (.name name .load)) :=
    ((Leads.name rfl).reads (.inr rfl)).mono (by decide)
  obtain ⟨⟨span, shape⟩, c', hrun, hc', hv⟩ := hname.read (g := .operand) field hn hc hf
  obtain rfl : shape = .name name .load := by
    rw [Expr.bare] at hv
    cases shape <;> cases hv
    rfl
  refine ⟨.node span (.name name .store), c', ?_, hc', rfl⟩
  have htarget : starTarget (readUpTo field n) c = .ok (.node span (.name name .load)) c' := by
    rw [starTarget, starredOr, bind_ok (at?_run hc _), if_neg (by exact Bool.false_ne_true), hrun]
  have htuple : tupleOf startsNoItem (starTarget (readUpTo field n)) c =
      .ok (.node span (.name name .load)) c' := by
    rw [tupleOf, bind_ok htarget, bind_ok (at?_run hc' _), if_neg (by simpa using hcomma)]
    rfl
  rw [starTargets, bind_ok htuple]
  rfl

/-- What is read under a condition hands its result on. -/
theorem Parse.bind_ite_ok {α β : Type} {test : Parse Bool} {p q : Parse α} {next : α → Parse β}
    {c' : Cursor} {a : α}
    (h : (test >>= fun b => if b then p else q) c = .ok a c') :
    (test >>= fun b => if b then p >>= next else q >>= next) c = next a c' := by
  have hnext : (test >>= fun b => if b then p >>= next else q >>= next) =
      (test >>= fun b => if b then p else q) >>= next := by
    rw [bind_assoc]
    congr 1
    funext b
    split <;> rfl
  rw [hnext, bind_ok h]

/-- An identifier is taken where a name must stand. -/
theorem Parse.expectName_run (role : NameRole) {name : Bytes}
    (hc : c.words = ⟨.identifier, name⟩ :: more) : expectName role c = .ok c.peek c.advance := by
  rw [expectName, bind_ok (at?_run hc _), if_pos (by rfl)]
  rfl

/-- No type parameters stand in front of any word but an opening bracket. -/
theorem Parse.typeParams_none {read : Reading} (hc : c.words = f :: more)
    (hf : f.kind ≠ .openBracket) : typeParams read c = .ok [] c := by
  rw [typeParams, bind_ok (at?_run hc _), if_neg (by simpa using hf)]
  rfl

end Parts

/-- The conditions of an alternative, and the block behind them. -/
theorem ReadsElse.exists_branches {ws : List Word} {ss : List Stmt} (h : ReadsElse ws ss) :
    ∃ (branches : List (List Word × Expr × List Stmt)) (ws' : List Word) (orelse : List Stmt),
      ws = branches.flatMap Prod.fst ++ ws' ∧ ReadsPart Word.elseWord ws' orelse ∧
        (∀ b ∈ branches, ReadsBranch Word.elifWord b.1 b.2.1 b.2.2) ∧
        ss = branches.foldr (fun b orelse => [.new (.conditional b.2.1 b.2.2 orelse)]) orelse := by
  induction h with
  | @part ws ss h => exact ⟨[], ws, ss, rfl, h, List.forall_mem_nil _, rfl⟩
  | @elif ws ws' e ss orelse h _ ih =>
    obtain ⟨branches, ws'', orelse', rfl, hpart, hbranches, rfl⟩ := ih
    refine ⟨(ws, e, ss) :: branches, ws'', orelse', ?_, hpart,
      List.forall_mem_cons.mpr ⟨h, hbranches⟩, rfl⟩
    rw [List.flatMap_cons, List.append_assoc]

/-! ## Context managers -/

/-- Words that are a name as the only context manager, alone or in parentheses. -/
inductive ReadsManager (name : Bytes) : List Word → Prop where
  | alone : ReadsManager name [⟨.identifier, name⟩]
  | enclosed {trailing : List Word} (h : trailing = [] ∨ trailing = [Word.comma]) :
    ReadsManager name (Word.openParen :: ⟨.identifier, name⟩ :: (trailing ++ [Word.closeParen]))

/-- An expression is read as a context manager without a target. -/
theorem Reads.withItem {ws : List Word} {e : Expr} (h : Reads .expression ws e)
    (field : FieldReading) {n : Nat} (hn : ws.length < n) {c : Cursor} {f : Word}
    {more : List Word} (hc : c.words = ws ++ f :: more) (hf : f.kind.Ends .expression)
    (has : f.kind ≠ .kwAs) :
    ∃ item c', Parse.withItem (readUpTo field n) c = .ok item c' ∧ c'.words = f :: more ∧
      item.bare = ⟨.none, e, none⟩ := by
  obtain ⟨v, c', hrun, hc', hv⟩ := h.read (g := .expression) field hn hc hf
  refine ⟨⟨c'.spanFrom v.span.start, v, none⟩, c', ?_, hc', by rw [WithItem.bare, hv]; rfl⟩
  rw [Parse.withItem, bind_ok hrun, bind_ok (accept_false hc' has)]
  rfl

/-- A context manager is read up to the colon. -/
theorem ReadsManager.run {name : Bytes} {ws : List Word} (h : ReadsManager name ws)
    (field : FieldReading) {n : Nat} (hn : ws.length < n) {c : Cursor} {more : List Word}
    (hc : c.words = ws ++ Word.colon :: more) :
    ∃ items c', withItems (readUpTo field n) c = .ok items c' ∧ c'.words = Word.colon :: more ∧
      items.map WithItem.bare = [⟨.none, .new (.name name .load), none⟩] := by
  have hname : Reads .expression [⟨.identifier, name⟩] (.new (.name name .load)) :=
    ((Leads.name rfl).reads (.inr rfl)).mono (Nat.zero_le _)
  cases h with
  | alone =>
    obtain ⟨item, c', hrun, hc', hitem⟩ := hname.withItem field hn hc (by decide) (by rintro ⟨⟩)
    refine ⟨[item], c', ?_, hc', by rw [List.map_singleton, hitem]⟩
    have hnone : (do
        if ← accept .comma then return some (← withItem (readUpTo field n)) else return none :
          Parse (Option WithItem)) c' = .ok none c' := by
      rw [bind_ok (accept_false (k := .comma) hc' (by rintro ⟨⟩))]
      rfl
    rw [withItems, bind_ok (at?_run hc _), if_neg (by exact Bool.false_ne_true), oneOrMore,
      bind_ok hrun, bind_ok ((collect_run _ hc').trans (collectUpTo_none hnone _))]
    rfl
  -- Parentheses are tried first: the reading of them is one more under way until the colon is seen.
  | @enclosed trailing htrailing =>
    let c₀ := { c with attempts := c.attempts + 1 }
    simp only [List.cons_append, List.append_assoc] at hc
    have hc₀ : c₀.words = Word.openParen :: _ := hc
    have hadvance := Cursor.words_advance hc₀ (by simp)
    rw [List.length_cons, List.length_cons] at hn
    obtain ⟨item, c₁, c₂, hrun, hmore, hc₂, hitem⟩ : ∃ item c₁ c₂,
        withItem (readUpTo field n) c₀.advance = .ok item c₁ ∧
        moreItems (at? .closeParen) (withItem (readUpTo field n)) c₁ = .ok [] c₂ ∧
        c₂.words = Word.closeParen :: Word.colon :: more ∧
        item.bare = ⟨.none, .new (.name name .load), none⟩ := by
      have hn' : [(⟨.identifier, name⟩ : Word)].length < n := by simp; omega
      obtain rfl | rfl := htrailing
      · obtain ⟨item, c₁, hrun, hc₁, hitem⟩ :=
          hname.withItem field hn' hadvance (by decide) (by rintro ⟨⟩)
        refine ⟨item, c₁, c₁, hrun, ?_, hc₁, hitem⟩
        refine (collect_run _ hc₁).trans (collectUpTo_none ?_ _)
        rw [furtherItem, bind_ok (accept_false (k := .comma) hc₁ (by rintro ⟨⟩))]
        rfl
      · obtain ⟨item, c₁, hrun, hc₁, hitem⟩ :=
          hname.withItem field hn' hadvance (by decide) (by rintro ⟨⟩)
        have hclose := Cursor.words_advance hc₁ (by simp)
        refine ⟨item, c₁, c₁.advance, hrun, ?_, hclose, hitem⟩
        refine (collect_run _ hc₁).trans (collectUpTo_none ?_ _)
        rw [furtherItem, bind_ok (accept_true (k := .comma) hc₁ rfl), if_pos rfl,
          bind_ok (at?_run hclose _)]
        rfl
    have hitems : itemsUntil .closeParen (withItem (readUpTo field n)) c₀.advance =
        .ok [item] c₂ := by
      rw [itemsUntil, bind_ok (at?_run hadvance _), if_neg (by exact Bool.false_ne_true),
        bind_ok hrun, bind_ok hmore]
      rfl
    have hcolon := Cursor.words_advance hc₂ (by simp)
    have hparenthesized : parenthesizedItems (readUpTo field n) c₀ =
        .ok (some [item]) c₂.advance := by
      rw [parenthesizedItems, bind_ok (next_run c₀), bind_ok hitems, if_neg (by simp),
        bind_ok (accept_true (k := .closeParen) hc₂ rfl), if_pos rfl, bind_ok (at?_run hcolon _),
        if_pos (by rfl)]
      rfl
    refine ⟨[item], { c₂.advance with attempts := c.attempts }, ?_, hcolon,
      by rw [List.map_singleton, hitem]⟩
    rw [withItems, bind_ok (at?_run hc _), if_pos (by rfl),
      bind_ok (attempt_some hparenthesized)]
    rfl

/-! ## Handlers -/

/-- The words of a second name, if there is one. -/
def asWords : Option Bytes → List Word
  | none => []
  | some name => [Word.asWord, ⟨.identifier, name⟩]

/-- The star of a handler, if it has one. -/
def starWords (isStar : Bool) : List Word := if isStar then [Word.star] else []

/-- Words that are a handler; a starred one has a type. -/
inductive ReadsHandler (isStar : Bool) : List Word → ExceptHandler → Prop where
  | bare (hstar : isStar = false) (width : Nat) {ws : List Word} {ss : List Stmt}
    (h : ReadsAll ws ss) :
    ReadsHandler isStar (Word.exceptWord :: blockWords width ws) (.mk .none none none ss)
  | typed {ws : List Word} {e : Expr} (htype : Reads .expression ws e) (name : Option Bytes)
    (width : Nat) {ws' : List Word} {ss : List Stmt} (h : ReadsAll ws' ss) :
    ReadsHandler isStar
      (Word.exceptWord :: (starWords isStar ++ (ws ++ (asWords name ++ blockWords width ws'))))
      (.mk .none (some e) name ss)

/-- Words that are handlers one after the other, all of them starred or none. -/
inductive ReadsHandlers (isStar : Bool) : List Word → List ExceptHandler → Prop where
  | nil : ReadsHandlers isStar [] []
  | cons {ws ws' : List Word} {handler : ExceptHandler} {handlers : List ExceptHandler}
    (h : ReadsHandler isStar ws handler) (hrest : ReadsHandlers isStar ws' handlers) :
    ReadsHandlers isStar (ws ++ ws') (handler :: handlers)

section Handlers

variable (field : FieldReading) (n limit : Nat) {c : Cursor} {f : Word} {more ws : List Word}
  {isStar : Bool} {handler : ExceptHandler} {handlers : List ExceptHandler}

/-- A second name is read if there is one. -/
theorem Parse.renamed_run (role : NameRole) {name : Option Bytes}
    (hc : c.words = asWords name ++ f :: more) (hf : f.kind ≠ .kwAs) :
    ∃ c', renamed role c = .ok name c' ∧ c'.words = f :: more := by
  cases name with
  | none => exact ⟨c, by rw [renamed, bind_ok (accept_false hc hf)]; rfl, hc⟩
  | some name =>
    have hname := Cursor.words_advance hc (by simp)
    have htext : c.advance.peek.text = name := congrArg Word.text (Cursor.word_peek hname)
    refine ⟨c.advance.advance, ?_, Cursor.words_advance hname (by simp)⟩
    rw [renamed, bind_ok (accept_true (k := .kwAs) hc rfl), if_pos rfl,
      bind_ok (expectName_run role hname), htext]
    rfl

/-- A handler is read behind handlers that are starred like it. -/
theorem ReadsHandler.run (h : ReadsHandler isStar ws handler) {draft : HandlerDraft}
    (hdraft : draft.handlers = [] ∨ draft.isStar = isStar) (hn : ws.length ≤ min n limit)
    (hc : c.words = ws ++ f :: more) :
    ∃ v c', addHandler (readUpTo field n) (statementsUpTo (readUpTo field n) field limit) draft c =
        .ok ⟨isStar, draft.handlers ++ [v]⟩ c' ∧ c'.words = f :: more ∧ v.bare = handler := by
  have hmixed : ¬ (draft.handlers.length ≠ 0 ∧ isStar ≠ draft.isStar) := by
    obtain h | h := hdraft <;> simp [h]
  cases h with
  | @bare hstar width ws ss h =>
    subst hstar
    rw [blockWords] at hn
    have hadvance := Cursor.words_advance hc (by simp [blockWords])
    obtain ⟨vs, c', hblock, hc', hvs⟩ :=
      h.blockAfter_run field n limit .exceptClause (by simp at hn ⊢; omega) hadvance
    refine ⟨.mk (c'.spanFrom c.peek.start) none none vs, c', ?_, hc', by
      rw [ExceptHandler.bare, hvs]; rfl⟩
    have htype : handledType (readUpTo field n) false c.advance = .ok (none, none) c.advance := by
      rw [handledType, bind_ok (at?_run hadvance _), if_pos (by rfl)]
      rfl
    rw [addHandler, bind_ok (next_run c),
      bind_ok (accept_false (k := .star) hadvance (by rintro ⟨⟩)), if_neg hmixed, bind_ok htype]
    exact (bind_ok hblock).trans rfl
  -- Read in turn: the star, the type, the name behind `as`, the colon with the block.
  | @typed ws e htype name width ws' ss h =>
    rw [blockWords] at hn
    simp only [List.cons_append, List.append_assoc] at hc
    have hadvance := Cursor.words_advance hc (by simp [blockWords])
    obtain ⟨w, tail, hws, hw⟩ := htype.begins
    obtain ⟨c₁, hstar, hc₁⟩ : ∃ c₁, accept .star c.advance = .ok isStar c₁ ∧
        c₁.words = ws ++ (asWords name ++ (blockWords width ws' ++ f :: more)) := by
      cases isStar with
      | true =>
        exact ⟨_, accept_true (k := .star) hadvance rfl,
          Cursor.words_advance hadvance (by simp [hws])⟩
      | false =>
        exact ⟨_, accept_false (hadvance.trans (by rw [hws]; rfl)) (hw.ne (by decide)), hadvance⟩
    obtain ⟨g, behind, hbehind, hends⟩ : ∃ g behind,
        asWords name ++ (blockWords width ws' ++ f :: more) = g :: behind ∧
          g.kind.Ends .expression := by
      cases name <;> exact ⟨_, _, rfl, by decide⟩
    obtain ⟨v, c₂, hv, hc₂, he⟩ := htype.read (g := .expression) field (n := n)
      (by simp at hn; omega) (hc₁.trans (by rw [hbehind])) hends
    obtain ⟨c₃, hname, hc₃⟩ := renamed_run .exceptionName (hc₂.trans hbehind.symm) (by rintro ⟨⟩)
    obtain ⟨vs, c', hblock, hc', hvs⟩ :=
      h.blockAfter_run field n limit .exceptClause (by simp at hn ⊢; omega) hc₃
    refine ⟨.mk (c'.spanFrom c.peek.start) (some v) name vs, c', ?_, hc', by
      rw [ExceptHandler.bare, hvs, Expr.bareOption, he]⟩
    have hcolon : w.kind ≠ .colon := hw.ne (by decide)
    have htype : handledType (readUpTo field n) isStar c₁ = .ok (some v, name) c₃ := by
      rw [handledType, bind_ok (at?_run (hc₁.trans (by rw [hws]; rfl)) _),
        if_neg (by simpa using hcolon), bind_ok hv, bind_ok hname]
      rfl
    rw [addHandler, bind_ok (next_run c), bind_ok hstar, if_neg hmixed, bind_ok htype]
    exact (bind_ok hblock).trans rfl

theorem ReadsHandler.begins (h : ReadsHandler isStar ws handler) :
    ∃ tail, ws = Word.exceptWord :: tail := by
  cases h <;> exact ⟨_, rfl⟩

/-- A further handler, if one follows. -/
def Parse.handlerStep (read : Reading) (inner : Parse (List Stmt)) (draft : HandlerDraft) :
    Parse (ForInStep HandlerDraft) := do
  if ← at? .kwExcept then return .yield (← addHandler read inner draft) else return .done draft

/-- Handlers are read behind others that are starred like them. -/
theorem ReadsHandlers.iterateUpTo_run (h : ReadsHandlers isStar ws handlers)
    (hf : f.kind ≠ .kwExcept) : ∀ (draft : HandlerDraft) {k : Nat} {c : Cursor},
      draft.handlers = [] ∨ draft.isStar = isStar → (handlers = [] → draft.isStar = isStar) →
      ws.length ≤ min n limit → ws.length < k → c.words = ws ++ f :: more →
      ∃ vs c', iterateUpTo
          (handlerStep (readUpTo field n) (statementsUpTo (readUpTo field n) field limit))
          k draft c =
            .ok ⟨isStar, draft.handlers ++ vs⟩ c' ∧
        c'.words = f :: more ∧ ExceptHandler.bareAll vs = handlers := by
  -- The draft grows from the front, so it is generalized; its star is settled by the first handler.
  induction h with
  | nil =>
    intro draft k c _ hstar _ hk hc
    obtain ⟨k, rfl⟩ := Nat.exists_eq_add_of_lt hk
    refine ⟨[], c, ?_, hc, rfl⟩
    rw [List.append_nil, ← hstar rfl]
    refine iterateUpTo_done ?_ _
    rw [handlerStep, bind_ok (at?_run hc _), if_neg (by simpa using hf)]
    rfl
  | @cons ws ws' handler handlers h hrest ih =>
    intro draft k c hdraft _ hn hk hc
    obtain ⟨k, rfl⟩ := Nat.exists_eq_add_of_lt hk
    obtain ⟨tail, hws⟩ := h.begins
    rw [List.length_append] at hn
    rw [List.append_assoc] at hc
    obtain ⟨g, behind, hbehind⟩ := List.exists_cons_of_ne_nil (l := ws' ++ f :: more) (by simp)
    obtain ⟨v, c₁, hv, hc₁, hbare⟩ := h.run field n limit hdraft
      (by omega) (hc.trans (by rw [hbehind]))
    obtain ⟨vs, c', hrun, hc', hvs⟩ := ih ⟨isStar, draft.handlers ++ [v]⟩
      (k := (ws ++ ws').length + k) (.inr rfl) (fun _ => rfl) (by omega)
      (by simp [hws]; omega) (hc₁.trans hbehind.symm)
    refine ⟨v :: vs, c', ?_, hc', by rw [ExceptHandler.bareAll, hbare, hvs]⟩
    have hstep : handlerStep (readUpTo field n) (statementsUpTo (readUpTo field n) field limit)
        draft c = .ok (.yield ⟨isStar, draft.handlers ++ [v]⟩) c₁ := by
      rw [handlerStep, bind_ok (at?_run (hc.trans (by rw [hws]; rfl)) _), if_pos (by rfl),
        bind_ok hv]
      rfl
    rw [iterateUpTo_yield hstep, hrun, List.append_assoc]
    rfl

/-- The handlers of a try statement are read up to a word that begins none. -/
theorem ReadsHandlers.run (h : ReadsHandlers isStar ws handlers)
    (hstar : handlers = [] → isStar = false) (hn : ws.length ≤ min n limit)
    (hc : c.words = ws ++ f :: more) (hf : f.kind ≠ .kwExcept) :
    ∃ vs c', Parse.handlers (readUpTo field n) (statementsUpTo (readUpTo field n) field limit) c =
        .ok ⟨isStar, vs⟩ c' ∧ c'.words = f :: more ∧ ExceptHandler.bareAll vs = handlers := by
  have hlength := congrArg List.length hc
  rw [c.length_words, List.length_append, List.length_cons] at hlength
  exact h.iterateUpTo_run field n limit hf ⟨false, []⟩ (k := c.rest.length + 1) (.inl rfl)
    (fun hnil => (hstar hnil).symm) hn (by omega) hc

end Handlers

/-! ## Compound statements -/

namespace ReadsAs

/-- A statement that is told by its first word. -/
theorem compound {w : Word} {tail : List Word} {s : Stmt}
    (reading : Reading → Parse (List Stmt) → Position → Parse Stmt)
    (hw : w.kind.endsStmt = false)
    (hstatements :
      ∀ {read : Reading} {field : FieldReading} {inner : Parse (List Stmt)} {c : Cursor},
      c.peek.kind = w.kind → statements read field inner c =
        statements.single (reading read inner c.peek.start) c)
    (hrun : ∀ (field : FieldReading) (n limit : Nat) {c : Cursor} {f : Word} {more : List Word}
      (start : Position), tail.length < min n limit → c.words = w :: (tail ++ f :: more) →
      f.kind.resumes = false →
      ∃ v c', reading (readUpTo field n) (statementsUpTo (readUpTo field n) field limit) start c =
        .ok v c' ∧ c'.words = f :: more ∧ v.bare = s) : ReadsAs (w :: tail) s where
  begins := ⟨w, tail, rfl, hw⟩
  run := by
    intro field n limit c f more hn hc hf
    obtain ⟨limit, rfl⟩ : ∃ m, limit = m + 1 := ⟨limit - 1, by simp at hn; omega⟩
    obtain ⟨v, c', hv, hc', hbare⟩ := hrun field n limit c.peek.start
      (by simp at hn ⊢; omega) hc hf
    refine ⟨v, c', ?_, hc', hbare⟩
    rw [statementsUpTo, hstatements (Cursor.kind_peek hc), statements.single, bind_ok hv]
    rfl

variable {ws ws' : List Word} {e : Expr} {ss orelse : List Stmt}

/-- The alternatives of nested conditions. -/
theorem bareAll_foldr (span : Position → Span) {bs : List Parse.Branch}
    {branches : List (List Word × Expr × List Stmt)} (orelse : List Stmt)
    (h : List.Forall₂ (fun b p => b.Holds p.2.1 p.2.2) bs branches) :
    Stmt.bareAll (bs.foldr
        (fun b orelse => [.node (span b.start) (.conditional b.test b.body orelse)]) orelse) =
      branches.foldr (fun b orelse => [.new (.conditional b.2.1 b.2.2 orelse)])
        (Stmt.bareAll orelse) := by
  induction h with
  | nil => rfl
  | cons hb _ ih =>
    rw [List.foldr_cons, List.foldr_cons, ← ih, ← hb.1, ← hb.2]
    rfl

/-- A condition and its alternative. -/
theorem conditional {w : Word} (hw : w.kind = .kwIf) (h : ReadsBranch w ws e ss)
    (helse : ReadsElse ws' orelse) : ReadsAs (ws ++ ws') (.new (.conditional e ss orelse)) := by
  obtain ⟨branches, elses, last, rfl, hpart, hbranches, rfl⟩ := helse.exists_branches
  obtain ⟨tail, rfl⟩ := h.begins
  rw [List.cons_append]
  refine compound (fun read inner _ => ifStmt read inner) (by rw [hw]; rfl) ?_ ?_
  · intro read field inner c hkind
    rw [statements, bind_ok (peek_run c), hkind, hw]
  intro field n limit c f more start hn hc hf
  obtain ⟨helif, helse', -⟩ := TokenKind.ne_of_resumes hf
  simp only [List.length_append] at hn
  simp only [List.append_assoc] at hc
  -- behind the first condition, and behind those that follow it, there is always a word
  obtain ⟨g, behind, hbehind, hg⟩ : ∃ g behind, elses ++ f :: more = g :: behind ∧
      g.kind ≠ .kwElif := by
    cases hpart with
    | none => exact ⟨f, more, rfl, helif⟩
    | block width h => exact ⟨_, _, rfl, by rintro ⟨⟩⟩
  obtain ⟨g', behind', hbehind'⟩ := List.exists_cons_of_ne_nil (l := branches.flatMap Prod.fst ++
    (elses ++ f :: more)) (by simp)
  obtain ⟨first, c₁, hfirst, hc₁, htest, hbody⟩ :=
    h.run field n limit .ifCondition (by simp; omega) (hc.trans (by rw [hbehind']; rfl))
  obtain ⟨bs, c₂, hbs, hc₂, hrest⟩ := ReadsBranch.collect_run field n limit hbranches (by omega)
    (hc₁.trans (hbehind'.symm.trans (by rw [hbehind]))) hg
  obtain ⟨vs, c', helses, hc', hvs⟩ :=
    hpart.run field n limit .elseWord (by omega) (hc₂.trans hbehind.symm) helse'
  let build (b : Parse.Branch) (orelse : List Stmt) : Stmt :=
    .node (c'.spanFrom b.start) (.conditional b.test b.body orelse)
  refine ⟨build first (bs.foldr (fun b orelse => [build b orelse]) vs), c', ?_, hc', ?_⟩
  · rw [ifStmt, bind_ok hfirst, bind_ok hbs]
    exact (bind_ok helses).trans rfl
  · have hfoldr := bareAll_foldr c'.spanFrom vs hrest
    rw [Stmt.bare, Stmt.Shape.bare, hfoldr, htest, hbody, hvs]
    rfl

/-- A loop with a condition. -/
theorem whileLoop {w : Word} (hw : w.kind = .kwWhile) (h : ReadsBranch w ws e ss)
    (helse : ReadsPart Word.elseWord ws' orelse) :
    ReadsAs (ws ++ ws') (.new (.whileLoop e ss orelse)) := by
  obtain ⟨tail, rfl⟩ := h.begins
  rw [List.cons_append]
  refine compound (fun read inner _ => whileStmt read inner) (by rw [hw]; rfl) ?_ ?_
  · intro read field inner c hkind
    rw [statements, bind_ok (peek_run c), hkind, hw]
  intro field n limit c f more start hn hc hf
  obtain ⟨-, helse', -⟩ := TokenKind.ne_of_resumes hf
  simp only [List.length_append] at hn
  rw [List.append_assoc] at hc
  obtain ⟨g, behind, hbehind⟩ := List.exists_cons_of_ne_nil (l := ws' ++ f :: more) (by simp)
  obtain ⟨b, c₁, hb, hc₁, htest, hbody⟩ :=
    h.run field n limit .whileCondition (by simp; omega) (hc.trans (by rw [hbehind]; rfl))
  obtain ⟨vs, c', helses, hc', hvs⟩ :=
    helse.run field n limit .elseWord (by omega) (hc₁.trans hbehind.symm) helse'
  refine ⟨.node (c'.spanFrom b.start) (.whileLoop b.test b.body vs), c', ?_, hc', ?_⟩
  · rw [whileStmt, bind_ok hb]
    exact (bind_ok helses).trans rfl
  · rw [Stmt.bare, Stmt.Shape.bare, htest, hbody, hvs]
    rfl

/-- A loop over a name. -/
theorem forLoop {w : Word} (hw : w.kind = .kwFor) (target iterable : Bytes) (width : Nat)
    {s : Word} (hs : s.kind = .kwIn) (hbody : ReadsAll ws ss)
    (helse : ReadsPart Word.elseWord ws' orelse) :
    ReadsAs (w :: ⟨.identifier, target⟩ :: s :: ⟨.identifier, iterable⟩ ::
        (blockWords width ws ++ ws'))
      (.new (.forLoop false (.new (.name target .store)) (.new (.name iterable .load)) ss
        orelse)) := by
  refine compound (fun read inner start => do let _ ← next; forStmt read inner start false)
    (by rw [hw]; rfl) ?_ ?_
  · intro read field inner c hkind
    rw [statements, bind_ok (peek_run c), hkind, hw]
  intro field n limit c f more start hn hc hf
  obtain ⟨-, helse', -⟩ := TokenKind.ne_of_resumes hf
  rw [blockWords] at hn
  obtain ⟨g, behind, hbehind⟩ := List.exists_cons_of_ne_nil (l := ws' ++ f :: more) (by simp)
  simp only [List.cons_append, List.append_assoc, hbehind] at hc
  have htarget := Cursor.words_advance hc (by simp)
  obtain ⟨v, c₁, hv, hc₁, htarget⟩ := starTargets_name field n
    (by simp at hn; omega) htarget (by rw [hs]; decide) (by rw [hs]; decide)
  have hvalue := Cursor.words_advance hc₁ (by simp)
  have hname : Reads .expression [⟨.identifier, iterable⟩] (.new (.name iterable .load)) :=
    ((Leads.name rfl).reads (.inr rfl)).mono (Nat.zero_le _)
  obtain ⟨v', c₂, hv', hc₂, hiterable⟩ := hname.read (g := .expression) field (n := n)
    (by simp at hn ⊢; omega) hvalue (by decide)
  obtain ⟨vs, c₃, hblock, hc₃, hvs⟩ :=
    hbody.blockAfter_run field n limit .forClause (by simp at hn ⊢; omega) hc₂
  obtain ⟨vs', c', helses, hc', hvs'⟩ :=
    helse.run field n limit .elseWord (by simp at hn ⊢; omega) (hc₃.trans hbehind.symm) helse'
  refine ⟨.node (c'.spanFrom start) (.forLoop false v v' vs vs'), c', ?_, hc', ?_⟩
  · rw [bind_ok (next_run c), forStmt, bind_ok hv, bind_ok (expect_run .forIn hc₁ hs),
      bind_ok (starExpressions_single hvalue (by rintro ⟨⟩) hv' hc₂ (by rintro ⟨⟩)), bind_ok hblock]
    exact (bind_ok helses).trans rfl
  · rw [Stmt.bare, Stmt.Shape.bare, htarget, hiterable, hvs, hvs']
    rfl

/-- A function definition without annotations. -/
theorem functionDef {w : Word} (hw : w.kind = .kwDef) (name : Bytes) {items : List ParameterItem}
    {wss : List (List Word)} (h : List.Forall₂ ReadsParameter items wss) {trailing : List Word}
    (htrailing : trailing = [] ∨ trailing = [Word.comma] ∧ items ≠ []) {x : Signature}
    (hx : Signature.empty.ofItems items = some x) (hcomplete : x.IsComplete) (width : Nat)
    (hbody : ReadsAll ws ss) :
    ReadsAs (w :: ⟨.identifier, name⟩ :: Word.openParen ::
      ([Word.comma].intercalate wss ++ trailing ++
        Word.closeParen :: blockWords width ws))
      (.new (.functionDef false name [] [] x.parameters none ss)) := by
  refine compound
    (fun read inner start => do let _ ← next; Parse.functionDef read inner [] start false)
    (by rw [hw]; rfl) ?_ ?_
  · intro read field inner c hkind
    rw [statements, bind_ok (peek_run c), hkind, hw]
  intro field n limit c f more start hn hc hf
  rw [blockWords] at hn
  rw [List.cons_append, List.cons_append, List.append_assoc, List.cons_append] at hc
  have hname := Cursor.words_advance hc (by simp)
  have hparen := Cursor.words_advance hname (by simp)
  have hlist := Cursor.words_advance hparen (by simp)
  obtain ⟨ps, c₁, x', hps, hc₁, hx', -, hbare⟩ := parameters_run h .definition field (n := n)
    (by simp at hn ⊢; omega) htrailing hlist rfl (Signature.legal_iff.mpr ⟨x, hx, hcomplete⟩)
  obtain rfl := Option.some.inj (hx'.symm.trans hx)
  have hcolon := Cursor.words_advance hc₁ (by simp [blockWords])
  obtain ⟨vs, c', hblock, hc', hvs⟩ :=
    hbody.blockAfter_run field n limit .functionSignature (by simp at hn ⊢; omega) hcolon
  refine ⟨.node (c'.spanFrom start) (.functionDef false name [] [] ps none vs), c', ?_, hc', ?_⟩
  · have htext : c.advance.peek.text = name := congrArg Word.text (Cursor.word_peek hname)
    rw [bind_ok (next_run c), Parse.functionDef, bind_ok (expectName_run .functionName hname),
      bind_ok (typeParams_none hparen (by rintro ⟨⟩)),
      bind_ok (expect_run .parametersOpen hparen rfl), bind_ok hps,
      bind_ok (expect_run .parametersClose hc₁ rfl),
      bind_ok (accept_false (k := .arrow) hcolon (by rintro ⟨⟩)), htext]
    exact (bind_ok hblock).trans rfl
  · rw [Stmt.bare, Stmt.Shape.bare, hbare, hvs]
    rfl

/-- A class definition without bases. -/
theorem classDef {w : Word} (hw : w.kind = .kwClass) (name : Bytes) (width : Nat)
    (hbody : ReadsAll ws ss) : ReadsAs (w :: ⟨.identifier, name⟩ :: blockWords width ws)
      (.new (.classDef name [] [] [] [] ss)) := by
  refine compound (fun read inner start => do let _ ← next; Parse.classDef read inner [] start)
    (by rw [hw]; rfl) ?_ ?_
  · intro read field inner c hkind
    rw [statements, bind_ok (peek_run c), hkind, hw]
  intro field n limit c f more start hn hc hf
  rw [blockWords] at hn
  have hname := Cursor.words_advance hc (by simp)
  have hcolon := Cursor.words_advance hname (by simp [blockWords])
  obtain ⟨vs, c', hblock, hc', hvs⟩ :=
    hbody.blockAfter_run field n limit .className (by simp at hn ⊢; omega) hcolon
  refine ⟨.node (c'.spanFrom start) (.classDef name [] [] [] [] vs), c', ?_, hc', ?_⟩
  · have htext : c.advance.peek.text = name := congrArg Word.text (Cursor.word_peek hname)
    rw [bind_ok (next_run c), Parse.classDef, bind_ok (expectName_run .className hname),
      bind_ok (typeParams_none hcolon (by rintro ⟨⟩)),
      bind_ok (accept_false (k := .openParen) hcolon (by rintro ⟨⟩)), htext]
    exact (bind_ok hblock).trans rfl
  · rw [Stmt.bare, Stmt.Shape.bare, hvs]
    rfl

/-- A statement with a context manager. -/
theorem withBlock {w : Word} (hw : w.kind = .kwWith) {name : Bytes} (h : ReadsManager name ws)
    (width : Nat) (hbody : ReadsAll ws' ss) : ReadsAs (w :: (ws ++ blockWords width ws'))
      (.new (.withBlock false [⟨.none, .new (.name name .load), none⟩] ss)) := by
  refine compound (fun read inner start => do let _ ← next; withStmt read inner start false)
    (by rw [hw]; rfl) ?_ ?_
  · intro read field inner c hkind
    rw [statements, bind_ok (peek_run c), hkind, hw]
  intro field n limit c f more start hn hc hf
  rw [blockWords] at hn
  rw [List.append_assoc] at hc
  obtain ⟨items, c₁, hitems, hc₁, hbare⟩ := h.run field (n := n)
    (by simp at hn ⊢; omega) (Cursor.words_advance hc (by simp))
  obtain ⟨vs, c', hblock, hc', hvs⟩ :=
    hbody.blockAfter_run field n limit .withClause (by simp at hn ⊢; omega) hc₁
  refine ⟨.node (c'.spanFrom start) (.withBlock false items vs), c', ?_, hc', ?_⟩
  · rw [bind_ok (next_run c), withStmt, bind_ok hitems]
    exact (bind_ok hblock).trans rfl
  · rw [Stmt.bare, Stmt.Shape.bare, hbare, hvs]
    rfl

/-- A try statement: it has handlers or a final block, and an alternative only behind handlers. -/
theorem tryBlock {w : Word} (hw : w.kind = .kwTry) (width : Nat) (hbody : ReadsAll ws ss)
    {isStar : Bool} {handlers : List ExceptHandler} (hhandlers : ReadsHandlers isStar ws' handlers)
    {elses finals : List Word} {finalbody : List Stmt}
    (helse : ReadsPart Word.elseWord elses orelse)
    (hfinal : ReadsPart Word.finallyWord finals finalbody)
    (hnone : handlers = [] → isStar = false ∧ elses = []) (hsome : handlers ≠ [] ∨ finalbody ≠ []) :
    ReadsAs (w :: (blockWords width ws ++ (ws' ++ (elses ++ finals))))
      (.new (.tryBlock isStar ss handlers orelse finalbody)) := by
  refine compound (fun read inner _ => tryStmt read inner) (by rw [hw]; rfl) ?_ ?_
  · intro read field inner c hkind
    rw [statements, bind_ok (peek_run c), hkind, hw]
  intro field n limit c f more start hn hc hf
  obtain ⟨-, helse', hexcept', hfinally'⟩ := TokenKind.ne_of_resumes hf
  simp only [blockWords, List.length_append, List.length_cons] at hn
  simp only [List.append_assoc] at hc
  -- behind each part there is a word, and none that would carry the part on
  obtain ⟨g₁, behind₁, hbehind₁, hg₁⟩ : ∃ g behind, finals ++ f :: more = g :: behind ∧
      g.kind ≠ .kwElse ∧ g.kind ≠ .kwExcept := by
    cases hfinal with
    | none => exact ⟨f, more, rfl, helse', hexcept'⟩
    | block _ _ => exact ⟨_, _, rfl, by rintro ⟨⟩, by rintro ⟨⟩⟩
  obtain ⟨g₂, behind₂, hbehind₂, hg₂⟩ : ∃ g behind, elses ++ (finals ++ f :: more) = g :: behind ∧
      g.kind ≠ .kwExcept ∧ (handlers = [] → g.kind ≠ .kwElse) := by
    cases helse with
    | none => exact ⟨g₁, behind₁, hbehind₁, hg₁.2, fun _ => hg₁.1⟩
    | block _ _ => exact ⟨_, _, rfl, by rintro ⟨⟩, fun h => absurd (hnone h).2 (by simp)⟩
  obtain ⟨g₃, behind₃, hbehind₃⟩ := List.exists_cons_of_ne_nil
    (l := ws' ++ (elses ++ (finals ++ f :: more))) (by simp)
  rw [hbehind₃] at hc
  obtain ⟨vs, c₁, hblock, hc₁, hvs⟩ := hbody.blockAfter_run field n limit .tryWord (by omega)
    (Cursor.words_advance hc (by simp [blockWords]))
  rw [← hbehind₃, hbehind₂] at hc₁
  obtain ⟨hs, c₂, hhs, hc₂, hbare⟩ :=
    hhandlers.run field n limit (fun h => (hnone h).1) (by omega) hc₁ hg₂.1
  rw [← hbehind₂, hbehind₁] at hc₂
  obtain ⟨vs', c₃, helses, hc₃, hvs'⟩ := helse.run field n limit .elseWord (by omega) hc₂ hg₁.1
  rw [← hbehind₁] at hc₃
  obtain ⟨vs'', c', hfinals, hc', hvs''⟩ :=
    hfinal.run field n limit .finallyWord (by omega) hc₃ hfinally'
  refine ⟨.node (c'.spanFrom c.peek.start) (.tryBlock isStar vs hs vs' vs''), c', ?_, hc', ?_⟩
  · have hnil : hs.length = 0 → handlers = [] := fun h => by
      rw [← hbare, List.length_eq_zero_iff.mp h]
      rfl
    have halone : ((g₂.kind == .kwElse) && hs.length == 0) = false := by
      rw [Bool.and_eq_false_imp]
      intro hkind
      simpa using fun h => hg₂.2 (hnil (by simp [h])) (by simpa using hkind)
    have hsome' : ¬ (hs.length = 0 ∧ vs''.length = 0) := by
      rintro ⟨h, h''⟩
      refine hsome.elim (absurd (hnil h)) (absurd ?_)
      rw [← hvs'', List.length_eq_zero_iff.mp h'']
      rfl
    rw [tryStmt, bind_ok (next_run c), bind_ok hblock, bind_ok hhs]
    dsimp only
    rw [bind_ok (at?_run (hc₂.trans (hbehind₁ ▸ hbehind₂)) _), halone, if_neg Bool.false_ne_true]
    refine (bind_ok helses).trans ((bind_ite_ok hfinals).trans ?_)
    rw [if_neg hsome']
    rfl
  · rw [Stmt.bare, Stmt.Shape.bare, hvs, hbare, hvs', hvs'']
    rfl

end ReadsAs

end SyntaxTree
