import SyntaxTree.Proofs.Build.Phrase

/-
# Readings that come to an end

A reading repeats steps and nests in others only as far as its bounds allow, and gives up where they
are too small.  It comes to an end if it never gives up: then it succeeds, or fails for a cause of
the grammar, and its cursor stands further on among the same tokens.

What carries the argument is which results a token has been taken for.  A loop goes on only behind
steps that took a token, and an expression nests in another only behind one, so that the tokens
ahead bound both.
-/

namespace SyntaxTree

/-! ## Cursors over the same tokens -/

namespace Cursor

variable {c c' c'' : Cursor}

/-- The second cursor stands at the first or further on, among the same tokens. -/
structure MovesTo (c c' : Cursor) : Prop where
  lines : c'.lines = c.lines
  tokens : c'.tokens = c.tokens
  final : c'.final = c.final
  forward : c'.rest <:+ c.rest
  attempts : c'.attempts = c.attempts

theorem MovesTo.refl (c : Cursor) : c.MovesTo c := ⟨rfl, rfl, rfl, List.suffix_rfl, rfl⟩

theorem MovesTo.trans (h : c.MovesTo c') (h' : c'.MovesTo c'') : c.MovesTo c'' :=
  ⟨h'.lines.trans h.lines, h'.tokens.trans h.tokens, h'.final.trans h.final,
    h'.forward.trans h.forward, h'.attempts.trans h.attempts⟩

theorem movesTo_advance (c : Cursor) : c.MovesTo c.advance := by
  refine ⟨?_, c.tokens_advance, c.final_advance, c.suffix_advance_rest, ?_⟩
  all_goals
    unfold advance
    split <;> rfl

/-- Where no reading under way may fail without harm, an error shows the line of its place. -/
def Shows (c : Cursor) (e : SyntaxError) : Prop :=
  c.attempts = 0 → e.context = some (.of c.lines e.place e.cause.expected)

theorem Shows.move {e : SyntaxError} (h : c'.Shows e) (hmove : c.MovesTo c') : c.Shows e := by
  intro hattempts
  rw [← hmove.lines]
  exact h (hmove.attempts.trans hattempts)

theorem shows_errorAt (c : Cursor) (cause : SyntaxCause) (place : Position) (found : Bytes) :
    c.Shows (c.errorAt cause place found) :=
  fun hattempts => if_pos hattempts

/-- There are tokens ahead wherever the input does not end. -/
theorem length_advance_lt (hends : c.final.kind = .endOfInput) (h : c.peek.kind ≠ .endOfInput) :
    c.advance.rest.length < c.rest.length := by
  obtain ⟨_, _, rest, final, _⟩ := c
  cases rest with
  | nil => exact absurd hends h
  | cons t rest => exact Nat.lt_succ_self rest.length

/-- The bounds that readings need at a cursor.  The tokens ahead come to an end, there are less than
`limit` of them, and no literal among them is long enough for fields that are nested `depth` times:
a field has a prefix, a quote and a brace less than its literal. -/
structure Within (depth limit : Nat) (c : Cursor) : Prop where
  ends : c.final.kind = .endOfInput
  texts : ∀ t ∈ c.rest, t.kind.isText → t.text.length ≤ depth + 2
  length_lt : c.rest.length < limit

variable {depth limit limit' : Nat}

theorem Within.move (h : c.Within depth limit) (hmove : c.MovesTo c') : c'.Within depth limit :=
  ⟨hmove.final ▸ h.ends, fun t ht => h.texts t (hmove.forward.subset ht),
    Nat.lt_of_le_of_lt hmove.forward.length_le h.length_lt⟩

/-- Behind a token there are fewer ahead. -/
theorem Within.taken (h : c.Within depth (limit + 1)) (hmove : c.MovesTo c')
    (hlt : c'.rest.length < c.rest.length) : c'.Within depth limit :=
  ⟨(h.move hmove).ends, (h.move hmove).texts,
    Nat.lt_of_lt_of_le hlt (Nat.le_of_lt_succ h.length_lt)⟩

theorem Within.mono (h : c.Within depth limit) (hlimit : limit ≤ limit') : c.Within depth limit' :=
  ⟨h.ends, h.texts, Nat.lt_of_lt_of_le h.length_lt hlimit⟩

/-- The tokens ahead bound themselves. -/
theorem Within.self (h : c.Within depth limit) : c.Within depth (c.rest.length + 1) :=
  ⟨h.ends, h.texts, Nat.lt_succ_self c.rest.length⟩

end Cursor

/-! ## Readings that end -/

namespace Parse

variable {α β σ ι : Type}

/-- Every result. -/
def always (_ : α) : Prop := True

/-- A step behind which a loop goes on. -/
def isYield : ForInStep σ → Prop
  | .yield _ => True
  | .done _ => False

/-- An item that is there. -/
def isThere (o : Option α) : Prop := o.isSome

/-- From the cursor `c` a result has been found, or an error of the grammar that shows its line.  A
token has been taken for the results that `taken` names. -/
def Settles (c : Cursor) (taken : α → Prop) : EStateM.Result SyntaxError Cursor α → Prop
  | .ok a c' => c.MovesTo c' ∧ (taken a → c'.rest.length < c.rest.length)
  | .error e c' => c.MovesTo c' ∧ e.cause.isUnending = false ∧ c.Shows e

/-- Within bounds, and where the token at the cursor is as `pre` says, a reading comes to an end. -/
def Ends (depth limit : Nat) (pre : Token → Prop) (taken : α → Prop) (p : Parse α) : Prop :=
  ∀ c : Cursor, c.Within depth limit → pre c.peek → Settles c taken (p c)

/-- What is found further on has been found. -/
theorem Settles.move {c c' : Cursor} {taken : α → Prop} {r : EStateM.Result SyntaxError Cursor α}
    (hmove : c.MovesTo c') (h : Settles c' taken r) : Settles c taken r := by
  cases r with
  | ok a c'' =>
    exact ⟨hmove.trans h.1, fun ha => Nat.lt_of_lt_of_le (h.2 ha) hmove.forward.length_le⟩
  | error e c'' => exact ⟨hmove.trans h.1, h.2.1, h.2.2.move hmove⟩

/-- What is found behind a token has been found by taking one. -/
theorem Settles.behind {c c' : Cursor} {taken taken' : α → Prop}
    {r : EStateM.Result SyntaxError Cursor α} (hmove : c.MovesTo c')
    (hlt : c'.rest.length < c.rest.length) (h : Settles c' taken r) : Settles c taken' r := by
  cases r with
  | ok a c'' => exact ⟨hmove.trans h.1, fun _ => Nat.lt_of_le_of_lt h.1.forward.length_le hlt⟩
  | error e c'' => exact ⟨hmove.trans h.1, h.2.1, h.2.2.move hmove⟩

namespace Ends

variable {depth limit limit' : Nat} {pre : Token → Prop} {taken : α → Prop}
  {taken' : β → Prop} {p p' : Parse α}

/-! ### Weaker contracts -/

theorem mono (h : Ends depth limit' pre taken p) (hlimit : limit ≤ limit') :
    Ends depth limit pre taken p :=
  fun c hc => h c (hc.mono hlimit)

theorem at_any (h : Ends depth limit anywhere taken p) : Ends depth limit pre taken p :=
  fun c hc _ => h c hc trivial

theorem at_token {t : Token} (h : Ends depth limit pre taken p) (ht : pre t) :
    Ends depth limit (· = t) taken p :=
  fun c hc hpeek => h c hc (hpeek ▸ ht)

theorem weaken {taken' : α → Prop} (h : Ends depth limit pre taken p)
    (htaken : ∀ a, taken' a → taken a) : Ends depth limit pre taken' p := by
  intro c hc hpre
  have hp := h c hc hpre
  cases hrun : p c with
  | ok a c' =>
    rw [hrun] at hp
    exact ⟨hp.1, fun ha => hp.2 (htaken a ha)⟩
  | error e c' =>
    rw [hrun] at hp
    exact hp

/-- It may be left open whether a token is taken. -/
theorem loosely (h : Ends depth limit pre taken p) : Ends depth limit pre never p :=
  h.weaken fun _ => False.elim

/-! ### Sequences -/

theorem pure {a : α} (ha : ¬ taken a) : Ends depth limit pre taken (pure a) :=
  fun c _ _ => ⟨.refl c, fun h => absurd h ha⟩

theorem result (a : α) : Ends depth limit pre never (Pure.pure a) := pure id

/-- What follows a reading goes on behind a token if one has been taken, and from where the reading
left the cursor otherwise. -/
theorem chain {k : α → Parse β} (hp : Ends depth (limit + 1) pre taken p)
    (hbehind : ∀ a, taken a → Ends depth limit anywhere never (k a))
    (hk : ∀ a, ¬ taken a → Ends depth (limit + 1) anywhere taken' (k a)) :
    Ends depth (limit + 1) pre taken' (p >>= k) := by
  intro c hc hpre
  have hfirst := hp c hc hpre
  cases hrun : p c with
  | error e c' =>
    rw [hrun] at hfirst
    show Settles c taken' (EStateM.bind p k c)
    rw [EStateM.bind, hrun]
    exact hfirst
  | ok a c' =>
    rw [hrun] at hfirst
    obtain ⟨hmove, htaken⟩ := hfirst
    rw [bind_ok hrun]
    by_cases ha : taken a
    · exact (hbehind a ha _ (hc.taken hmove (htaken ha)) trivial).behind hmove (htaken ha)
    · exact (hk a ha _ (hc.move hmove) trivial).move hmove

/-- The same for readings that are nested no deeper. -/
theorem follow {k : α → Parse β} (hp : Ends depth limit pre taken p)
    (hbehind : ∀ a, taken a → Ends depth limit anywhere never (k a))
    (hk : ∀ a, ¬ taken a → Ends depth limit anywhere taken' (k a)) :
    Ends depth limit pre taken' (p >>= k) := by
  cases limit with
  | zero => exact fun c hc => absurd hc.length_lt (Nat.not_lt_zero _)
  | succ limit => exact hp.chain (fun a ha => (hbehind a ha).mono (Nat.le_succ limit)) hk

theorem bind {k : α → Parse β} (hp : Ends depth limit pre taken p)
    (hk : ∀ a, Ends depth limit anywhere taken' (k a)) : Ends depth limit pre taken' (p >>= k) :=
  hp.loosely.follow (fun _ => False.elim) fun a _ => hk a

/-- Behind a reading that takes a token, it does not matter whether another is taken. -/
theorem first {k : α → Parse β} (hp : Ends depth limit pre always p)
    (hk : ∀ a, Ends depth limit anywhere never (k a)) : Ends depth limit pre taken' (p >>= k) :=
  hp.follow (fun a _ => hk a) fun _ ha => absurd trivial ha

/-- Behind a reading that takes a token, expressions may be nested one level deeper. -/
theorem deeper {k : α → Parse β} (hp : Ends depth (limit + 1) pre always p)
    (hk : ∀ a, Ends depth limit anywhere never (k a)) :
    Ends depth (limit + 1) pre taken' (p >>= k) :=
  hp.chain (fun a _ => hk a) fun _ ha => absurd trivial ha

/-- What follows an item goes on behind a token if the item is there. -/
theorem found {item : Parse (Option α)} {k : Option α → Parse β}
    (hitem : Ends depth (limit + 1) pre isThere item)
    (hthere : ∀ a, Ends depth limit anywhere never (k (some a)))
    (hnone : Ends depth (limit + 1) anywhere taken' (k none)) :
    Ends depth (limit + 1) pre taken' (item >>= k) := by
  refine hitem.chain (fun o ho => ?_) fun o ho => ?_
  · cases o with
    | none => exact Bool.noConfusion ho
    | some a => exact hthere a
  · cases o with
    | none => exact hnone
    | some a => exact absurd rfl ho

theorem map {f : α → β} (h : Ends depth limit pre always p) :
    Ends depth limit pre taken' (f <$> p) := by
  rw [map_eq_pure_bind]
  exact h.first fun _ => pure id

/-- A value that is read if a test holds, in front of what goes on with or without it. -/
theorem optionally {b : Parse Bool} {k : Option α → Parse β} {tested : Bool → Prop}
    (hb : Ends depth limit pre tested b) (h : Ends depth limit anywhere taken p)
    (hk : ∀ o, Ends depth limit anywhere never (k o)) :
    Ends depth limit pre never
      (b >>= fun b => if b then some <$> p >>= k else Pure.pure none >>= k) := by
  refine hb.bind fun b => ?_
  cases b with
  | true =>
    rw [if_pos rfl, map_eq_pure_bind, bind_assoc]
    exact h.bind fun a => (result (some a)).bind hk
  | false =>
    rw [if_neg (by decide)]
    exact (result none).bind hk

theorem ite {b : Prop} [Decidable b] (h : b → Ends depth limit pre taken p)
    (h' : ¬ b → Ends depth limit pre taken p') :
    Ends depth limit pre taken (if b then p else p') := by
  split
  · exact h ‹_›
  · exact h' ‹_›

/-! ### Failing -/

theorem failAt {cause : SyntaxCause} (place : Position) (found : Bytes)
    (h : cause.isUnending = false) : Ends depth limit pre taken (Parse.failAt cause place found) :=
  fun c _ _ => ⟨.refl c, h, c.shows_errorAt _ _ _⟩

theorem failAtToken {cause : SyntaxCause} (t : Token) (h : cause.isUnending = false) :
    Ends depth limit pre taken (Parse.failAtToken cause t) :=
  fun c _ _ => ⟨.refl c, h, c.shows_errorAt _ _ _⟩

theorem failHere {cause : SyntaxCause} (h : cause.isUnending = false) :
    Ends depth limit pre taken (Parse.failHere cause) :=
  fun c _ _ => ⟨.refl c, h, c.shows_errorAt _ _ _⟩

theorem failAtSpan {cause : SyntaxCause} (span : Span) (h : cause.isUnending = false) :
    Ends depth limit pre taken (Parse.failAtSpan cause span) :=
  fun c _ _ => ⟨.refl c, h, c.shows_errorAt _ _ _⟩

/-! ### Looking -/

theorem of_looks (h : Looks p) : Ends depth limit pre never p := by
  intro c _ _
  obtain ⟨a, ha⟩ := h c
  rw [ha]
  exact ⟨.refl c, False.elim⟩

/-- What follows a look goes on from the same token. -/
theorem look {b : Parse β} {k : β → Parse α} (hb : Looks b)
    (hk : ∀ x, Ends depth limit pre taken (k x)) : Ends depth limit pre taken (b >>= k) := by
  intro c hc hpre
  obtain ⟨x, hx⟩ := hb c
  rw [bind_ok hx]
  exact hk x c hc hpre

/-- The choice between two readings by a look. -/
theorem test {b : Parse Bool} (hb : Looks b) (h : Ends depth limit pre taken p)
    (h' : Ends depth limit pre taken p') :
    Ends depth limit pre taken (b >>= fun b => if b then p else p') :=
  look hb fun _ => ite (fun _ => h) fun _ => h'

theorem peek {k : Token → Parse α} (h : ∀ t, pre t → Ends depth limit (· = t) taken (k t)) :
    Ends depth limit pre taken (Parse.peek >>= k) :=
  fun c hc hpre => h c.peek hpre c hc rfl

theorem kind {k : TokenKind → Parse α}
    (h : ∀ t, pre t → Ends depth limit (· = t) taken (k t.kind)) :
    Ends depth limit pre taken (Parse.kind >>= k) :=
  fun c hc hpre => h c.peek hpre c hc rfl

/-- The choice between two readings by the kind of the token at the cursor. -/
theorem ifAt (kind : TokenKind) (h : Ends depth limit (fun t => t.kind = kind) taken p)
    (h' : Ends depth limit (fun t => pre t ∧ t.kind ≠ kind) taken p') :
    Ends depth limit pre taken (at? kind >>= fun b => if b then p else p') := by
  intro c hc hpre
  rw [bind_ok (at?_peek kind c)]
  split
  · next hkind => exact h c hc (beq_iff_eq.mp hkind)
  · next hkind => exact h' c hc ⟨hpre, fun heq => hkind (beq_iff_eq.mpr heq)⟩

/-- The choice between two readings by the kinds of the token at the cursor and the next one. -/
theorem ifFollowed {first second : TokenKind}
    (h : Ends depth limit (fun t => t.kind = first) taken p) (h' : Ends depth limit pre taken p') :
    Ends depth limit pre taken
      (at? first >>= fun x => Parse.kindAt 1 >>= fun y => if x && y == second then p else p') := by
  intro c hc hpre
  change Settles c taken
    ((if c.peek.kind == first && (c.peekAt 1).kind == second then p else p') c)
  split
  · next hkinds =>
    rw [Bool.and_eq_true, beq_iff_eq] at hkinds
    exact h c hc hkinds.1
  · exact h' c hc hpre

/-! ### Moving -/

/-- A token is taken, if there is one. -/
theorem skip : Ends depth limit pre never Parse.next :=
  fun c _ _ => ⟨c.movesTo_advance, False.elim⟩

/-- A token that does not end the input is taken. -/
theorem next (hpre : ∀ t, pre t → t.kind ≠ .endOfInput) :
    Ends depth limit pre always Parse.next :=
  fun c hc ht => ⟨c.movesTo_advance, fun _ => Cursor.length_advance_lt hc.ends (hpre _ ht)⟩

/-- The token that has been looked at is taken. -/
theorem nextPeeked {t : Token} (h : t.kind ≠ .endOfInput) :
    Ends depth limit (· = t) always Parse.next :=
  next fun _ ht => ht ▸ h

/-- A token of a kind that does not end the input is taken. -/
theorem nextOf {kind : TokenKind} (hkind : kind ≠ .endOfInput) :
    Ends depth limit (fun t => t.kind = kind) always Parse.next :=
  next fun _ ht => ht.trans_ne hkind

theorem accept (kind : TokenKind) : Ends depth limit pre never (Parse.accept kind) :=
  ifAt kind (skip.bind fun _ => pure id) (pure id)

/-- The choice between two readings by whether a token can be taken. -/
theorem ifAccept {kind : TokenKind} (hkind : kind ≠ .endOfInput)
    (h : Ends depth limit anywhere never p)
    (h' : Ends depth limit (fun t => pre t ∧ t.kind ≠ kind) taken p') :
    Ends depth limit pre taken (Parse.accept kind >>= fun b => if b then p else p') := by
  rw [Mirrors.accept_bind]
  exact ifAt kind ((nextOf hkind).first fun _ => h) h'

theorem expect (what : Missing) : Ends depth limit pre always (Parse.expect what) := by
  have hkind : what.kind ≠ .endOfInput := by cases what <;> exact TokenKind.noConfusion
  exact ifAccept hkind (pure id) (failHere rfl)

theorem expectName (role : NameRole) : Ends depth limit pre always (Parse.expectName role) :=
  ifAt .identifier (nextOf (by decide)) (failHere rfl)

/-! ### Spans -/

theorem exprFrom (start : Position) (shape : Expr.Shape) :
    Ends depth limit pre never (Parse.exprFrom start shape) :=
  of_looks fun _ => ⟨_, rfl⟩

theorem patternFrom (start : Position) (shape : Pattern.Shape) :
    Ends depth limit pre never (Parse.patternFrom start shape) :=
  of_looks fun _ => ⟨_, rfl⟩

theorem stmtFrom (start : Position) (shape : Stmt.Shape) :
    Ends depth limit pre never (Parse.stmtFrom start shape) :=
  of_looks fun _ => ⟨_, rfl⟩

theorem spanFrom (start : Position) : Ends depth limit pre never (Parse.spanFrom start) :=
  of_looks fun _ => ⟨_, rfl⟩

/-! ### Repeating -/

/-- A loop that may be repeated as often as there are tokens ends if every step behind which it goes
on takes a token. -/
theorem iterateUpTo {step : σ → Parse (ForInStep σ)}
    (h : ∀ s, Ends depth limit anywhere isYield (step s)) {n : Nat} (hn : n ≤ limit) (s : σ) :
    Ends depth n anywhere never (Parse.iterateUpTo step n s) := by
  induction n generalizing s with
  | zero => exact fun c hc => absurd hc.length_lt (Nat.not_lt_zero _)
  | succ n ih =>
    refine ((h s).mono hn).chain (fun r hr => ?_) fun r hr => ?_
    · cases r with
      | done s' => exact hr.elim
      | yield s' => exact ih (Nat.le_of_succ_le hn) s'
    · cases r with
      | done s' => exact pure id
      | yield s' => exact absurd trivial hr

theorem iterate {step : σ → Parse (ForInStep σ)}
    (h : ∀ s, Ends depth limit anywhere isYield (step s)) (s : σ) :
    Ends depth limit pre never (Parse.iterate step s) :=
  fun c hc _ => iterateUpTo h hc.length_lt s c hc.self trivial

/-- A loop whose first step takes a token takes one. -/
theorem iterateFirst {step : σ → Parse (ForInStep σ)} {s : σ}
    (hfirst : Ends depth limit pre always (step s))
    (h : ∀ s, Ends depth limit anywhere isYield (step s)) :
    Ends depth limit pre always (Parse.iterate step s) := by
  intro c hc hpre
  have hloop : Ends depth (c.rest.length + 1) pre always
      (Parse.iterateUpTo step (c.rest.length + 1) s) := by
    refine (hfirst.mono hc.length_lt).deeper fun r => ?_
    cases r with
    | done s' => exact pure id
    | yield s' => exact iterateUpTo h (Nat.le_of_lt hc.length_lt) s'
  exact hloop c hc.self hpre

/-- Items are collected as often as there are tokens if each takes one. -/
theorem collectUpTo {item : Parse (Option α)} (h : Ends depth limit anywhere isThere item) {n : Nat}
    (hn : n ≤ limit) : Ends depth n anywhere never (Parse.collectUpTo item n) := by
  induction n with
  | zero => exact fun c hc => absurd hc.length_lt (Nat.not_lt_zero _)
  | succ n ih =>
    exact (h.mono hn).found (fun a => (ih (Nat.le_of_succ_le hn)).bind fun _ => pure id) (pure id)

theorem collect {item : Parse (Option α)} (h : Ends depth limit anywhere isThere item) :
    Ends depth limit pre never (Parse.collect item) :=
  fun c hc _ => collectUpTo h hc.length_lt c hc.self trivial

/-- A first item that takes a token is followed by any others. -/
theorem collectFirst {item : Parse (Option α)} (hfirst : Ends depth limit pre always item)
    (h : Ends depth limit anywhere isThere item) :
    Ends depth limit pre always (Parse.collect item) := by
  intro c hc hpre
  have hitems : Ends depth (c.rest.length + 1) pre always
      (Parse.collectUpTo item (c.rest.length + 1)) := by
    refine (hfirst.mono hc.length_lt).deeper fun o => ?_
    cases o with
    | none => exact pure id
    | some a => exact (collectUpTo h (Nat.le_of_lt hc.length_lt)).bind fun _ => pure id
  exact hitems c hc.self hpre

/-- Readings one after the other, for each item of a list. -/
theorem mapM {f : ι → Parse α} {is : List ι} (h : ∀ i, Ends depth limit anywhere never (f i)) :
    Ends depth limit pre never (is.mapM f) := by
  induction is generalizing pre with
  | nil => exact pure id
  | cons i is ih =>
    rw [List.mapM_cons]
    exact (h i).at_any.bind fun _ => ih.bind fun _ => pure id

/-! ### Trying -/

/-- A reading that is tried comes to an end, and takes a token only if it finds something. -/
theorem attempt {p : Parse (Option α)} {taken : Option α → Prop}
    (h : Ends depth limit pre taken p) (htaken : ∀ o, isThere o → taken o) :
    Ends depth limit pre isThere (Parse.attempt p) := by
  intro c hc hpre
  have hp := h { c with attempts := c.attempts + 1 } ⟨hc.ends, hc.texts, hc.length_lt⟩ hpre
  unfold Parse.attempt
  cases hrun : p { c with attempts := c.attempts + 1 } with
  | error e c' => exact ⟨.refl c, Bool.noConfusion⟩
  | ok o c' =>
    rw [hrun] at hp
    obtain ⟨hmove, hlt⟩ := hp
    cases o with
    | none => exact ⟨.refl c, Bool.noConfusion⟩
    | some a =>
      exact ⟨⟨hmove.lines, hmove.tokens, hmove.final, hmove.forward, rfl⟩, fun ha =>
        hlt (htaken _ ha)⟩

end Ends

/-- A reading is given up at a cursor. -/
def GivesUp (p : Parse α) (c : Cursor) : Prop := ∃ e c', p c = .error e c' ∧ e.cause.isUnending

theorem Ends.not_givesUp {depth limit : Nat} {taken : α → Prop} {p : Parse α}
    (h : Ends depth limit anywhere taken p) {c : Cursor} (hc : c.Within depth limit) :
    ¬ p.GivesUp c := by
  rintro ⟨e, c', hrun, hunending⟩
  have hp := h c hc trivial
  rw [hrun] at hp
  exact absurd hunending (by rw [hp.2.1]; exact Bool.false_ne_true)

/-! ## Readings within readings -/

/-- The expressions within a phrase are read to their end, and each takes a token. -/
def ReadingEnds (depth limit : Nat) (read : Reading) : Prop :=
  ∀ g {pre : Token → Prop}, Ends depth limit pre always (read g)

theorem ReadingEnds.mono {depth limit limit' : Nat} {read : Reading}
    (h : ReadingEnds depth limit' read) (hlimit : limit ≤ limit') : ReadingEnds depth limit read :=
  fun g _ => (h g).mono hlimit

/-- The fields of literals are read to their end if they are nested less than `depth` times, which
their length bounds. -/
def FieldEnds (depth : Nat) (field : FieldReading) : Prop :=
  ∀ (source : Bytes) (place : Position) {n limit : Nat} {pre : Token → Prop},
    source.length < depth → Ends n limit pre never (field.read source place)

end Parse

end SyntaxTree
