import SyntaxTree.Proofs.Build.Node
import SyntaxTree.Proofs.Rename.Mirror
import SyntaxTree.Proofs.Token.Sound

/-
# What readings build

A reading moves a cursor forward over sound tokens.  What it gives is said together with the front,
the place up to which tokens have been taken, and stays true when the front moves on.  In the same
way what is known before a reading stays known behind it, so that a node can be built in the end
from all that has been read.
-/

namespace SyntaxTree

/-! ## Sound cursors -/

namespace Cursor

variable {c c' c'' : Cursor}

/-- All tokens, those behind the cursor and those ahead. -/
def tokens (c : Cursor) : List Token := c.before.reverse ++ (c.rest ++ [c.final])

/-- A cursor over sound tokens. -/
structure IsSound (c : Cursor) : Prop where
  isSound : ∀ t ∈ c.tokens, t.IsSound
  ordered : c.tokens.Pairwise fun t u => t.stop ≤ u.start
  ends : c.final.kind = .endOfInput

/-- The place up to which tokens have been taken; in front of all places if there are none. -/
def front (c : Cursor) : Position := if c.before = [] then ⟨0, 0⟩ else c.last.stop

theorem peek_mem_rest (c : Cursor) : c.peek ∈ c.rest ++ [c.final] := by
  rw [peek]
  cases c.rest <;> simp

theorem peek_mem_tokens (c : Cursor) : c.peek ∈ c.tokens :=
  List.mem_append_right _ c.peek_mem_rest

/-- There is a token ahead of the one that ends the input. -/
theorem IsSound.exists_rest_eq (h : c.IsSound) (hkind : c.peek.kind ≠ .endOfInput) :
    ∃ rest, c.rest = c.peek :: rest := by
  rw [peek] at hkind ⊢
  cases hrest : c.rest with
  | nil =>
    rw [hrest] at hkind
    exact absurd h.ends hkind
  | cons t rest => exact ⟨rest, rfl⟩

/-! ### The last token -/

theorem lastOfReversed_mem {before : List Token} (h : before ≠ []) (first : Token) :
    lastOfReversed first before ∈ before := by
  induction before generalizing first with
  | nil => exact absurd rfl h
  | cons t before ih =>
    rw [lastOfReversed]
    split
    · cases before with
      | nil => exact List.mem_cons_self
      | cons u before => exact List.mem_cons_of_mem t (ih (List.cons_ne_nil u before) t)
    · exact List.mem_cons_self

theorem last_mem_before (h : c.before ≠ []) : c.last ∈ c.before :=
  lastOfReversed_mem h c.peek

theorem front_le {hi : Position} (hline : 1 ≤ hi.line) (h : ∀ t ∈ c.before, t.stop ≤ hi) :
    c.front ≤ hi := by
  unfold front
  split
  · exact .inl (Int.lt_of_lt_of_le Int.zero_lt_one hline)
  · next hbefore => exact h _ (last_mem_before hbefore)

theorem IsSound.front_le_peek (h : c.IsSound) : c.front ≤ c.peek.start := by
  refine front_le (h.isSound _ c.peek_mem_tokens).one_le_line fun t ht => ?_
  exact (List.pairwise_append.mp h.ordered).2.2 t (List.mem_reverse.mpr ht) _ c.peek_mem_rest

/-- The span of syntax that begins before the front ends there. -/
theorem spanFrom_eq {start : Position} (hline : 1 ≤ start.line) (h : start ≤ c.front) :
    c.spanFrom start = ⟨start, some c.front⟩ := by
  unfold front at h ⊢
  split at h
  · exact absurd (Position.line_le_of_le h) (by simp only; omega)
  · next hbefore => rw [spanFrom, if_pos h, if_neg hbefore]

/-! ### Moving forward -/

/-- The second cursor stands further on among the tokens of the first. -/
structure Precedes (c c' : Cursor) : Prop where
  tokens : c'.tokens = c.tokens
  final : c'.final = c.final
  peek_le : c.peek.start ≤ c'.peek.start
  front_le : c.front ≤ c'.front

theorem Precedes.refl (c : Cursor) : c.Precedes c :=
  ⟨rfl, rfl, Position.le_refl _, Position.le_refl _⟩

theorem Precedes.trans (h : c.Precedes c') (h' : c'.Precedes c'') : c.Precedes c'' :=
  ⟨h'.tokens.trans h.tokens, h'.final.trans h.final, Position.le_trans h.peek_le h'.peek_le,
    Position.le_trans h.front_le h'.front_le⟩

theorem IsSound.move (h : c.IsSound) (hmove : c.Precedes c') : c'.IsSound :=
  ⟨hmove.tokens ▸ h.isSound, hmove.tokens ▸ h.ordered, hmove.final ▸ h.ends⟩

theorem tokens_advance (c : Cursor) : c.advance.tokens = c.tokens := by
  obtain ⟨_, before, rest, final, _⟩ := c
  cases rest <;> simp [advance, tokens]

theorem final_advance (c : Cursor) : c.advance.final = c.final := by
  obtain ⟨_, before, rest, final, _⟩ := c
  cases rest <;> rfl

/-- Layout does not move the front once a token has been taken. -/
theorem last_of_isLayout {lines : List Bytes} {before rest : List Token} {t final : Token}
    {attempts : Nat} (hbefore : before ≠ []) (ht : t.kind.isLayout) :
    (Cursor.mk lines (t :: before) rest final attempts).last =
      (Cursor.mk lines before (t :: rest) final attempts).last := by
  obtain ⟨u, before, rfl⟩ := List.exists_cons_of_ne_nil hbefore
  simp only [last, lastOfReversed, ht, if_true]

theorem IsSound.precedes_advance (h : c.IsSound) : c.Precedes c.advance := by
  refine ⟨c.tokens_advance, c.final_advance, ?_, ?_⟩
  · obtain ⟨_, before, rest, final, _⟩ := c
    cases rest with
    | nil => exact Position.le_refl _
    | cons t rest =>
      obtain ⟨-, hordered, -⟩ := List.pairwise_append.mp h.ordered
      exact Position.le_trans (h.isSound t (by simp [tokens])).start_le_stop
        ((List.pairwise_cons.mp hordered).1 _ (peek_mem_rest _))
  · obtain ⟨lines, before, rest, final, attempts⟩ := c
    cases rest with
    | nil => exact Position.le_refl _
    | cons t rest =>
      have hfront := h.front_le_peek
      have ht := h.isSound t (by simp [tokens])
      -- Layout leaves the front where it is, and any other token ends behind the old front.
      by_cases hlayout : before ≠ [] ∧ t.kind.isLayout
      · rw [front, front, if_neg hlayout.1, advance, if_neg (List.cons_ne_nil _ _),
          last_of_isLayout hlayout.1 hlayout.2]
        exact Position.le_refl _
      · have hlast : (advance ⟨lines, before, t :: rest, final, attempts⟩).last = t := by
          simp only [last, advance, lastOfReversed]
          split
          · next hkind =>
            obtain rfl : before = [] := Classical.not_not.mp fun hne => hlayout ⟨hne, hkind⟩
            rfl
          · rfl
        have hnew : (advance ⟨lines, before, t :: rest, final, attempts⟩).front = t.stop := by
          rw [front, hlast]
          exact if_neg (List.cons_ne_nil _ _)
        rw [hnew]
        exact Position.le_trans hfront ht.start_le_stop

/-- A token that stands for a piece of the source moves the front. -/
theorem IsSound.front_advance (h : c.IsSound) (hkind : c.peek.kind.isProper) :
    c.advance.front = c.peek.stop := by
  obtain ⟨rest, hrest⟩ := h.exists_rest_eq (by rintro hend; rw [hend] at hkind; cases hkind)
  have hlayout := TokenKind.isLayout_of_isProper hkind
  generalize c.peek = t at hrest hlayout
  obtain ⟨_, before, _, final, _⟩ := c
  obtain rfl : _ = t :: rest := hrest
  rw [front, advance, if_neg (List.cons_ne_nil _ _), last, lastOfReversed,
    if_neg (by simp [hlayout])]

/-- The start of such a token is behind the front no more. -/
theorem IsSound.start_le_front_advance (h : c.IsSound) (hkind : c.peek.kind.isProper) :
    c.peek.start ≤ c.advance.front := by
  rw [h.front_advance hkind]
  exact (h.isSound _ c.peek_mem_tokens).start_le_stop

/-! ### What is known at a cursor -/

/-- A sound cursor at or behind the place `lo`, at which something is known that stays true when the
front moves on. -/
structure IsAt (known : Position → Prop) (lo : Position) (c : Cursor) : Prop where
  isSound : c.IsSound
  one_le_line : 1 ≤ lo.line
  le_peek : lo ≤ c.peek.start
  known : ∀ hi, c.front ≤ hi → known hi

variable {known known' : Position → Prop} {lo : Position}

theorem IsAt.move (h : c.IsAt known lo) (hmove : c.Precedes c') : c'.IsAt known lo :=
  ⟨h.isSound.move hmove, h.one_le_line, Position.le_trans h.le_peek hmove.peek_le,
    fun hi hhi => h.known hi (Position.le_trans hmove.front_le hhi)⟩

theorem IsAt.imp (h : c.IsAt known lo) (hknown : ∀ hi, known hi → known' hi) : c.IsAt known' lo :=
  ⟨h.isSound, h.one_le_line, h.le_peek, fun hi hhi => hknown hi (h.known hi hhi)⟩

theorem IsAt.and (h : c.IsAt known lo) (hknown : ∀ hi, c.front ≤ hi → known' hi) :
    c.IsAt (fun hi => known hi ∧ known' hi) lo :=
  ⟨h.isSound, h.one_le_line, h.le_peek, fun hi hhi => ⟨h.known hi hhi, hknown hi hhi⟩⟩

/-- What follows begins behind the token at the cursor. -/
theorem IsAt.at_peek (h : c.IsAt known lo) : c.IsAt known c.peek.start :=
  ⟨h.isSound, Int.le_trans h.one_le_line (Position.line_le_of_le h.le_peek), Position.le_refl _,
    h.known⟩

theorem IsAt.advance (h : c.IsAt known lo) : c.advance.IsAt known lo :=
  h.move h.isSound.precedes_advance

/-- Behind a token that stands for a piece of the source, all begins at that token or behind. -/
theorem IsAt.taken (h : c.IsAt known lo) (hproper : c.peek.kind.isProper) :
    c.advance.IsAt (c.peek.start ≤ ·) c.peek.start :=
  ⟨h.advance.isSound, h.at_peek.one_le_line, h.at_peek.advance.le_peek, fun _ hhi =>
    Position.le_trans (h.isSound.start_le_front_advance hproper) hhi⟩

end Cursor

/-! ## Readings that build -/

namespace Parse

variable {α β σ ι : Type}

/-- Where something is known and the token at the cursor is as `pre` says, a reading that succeeds
moves forward and gives a result as `P` says, together with every later front.  What it reads begins
at `lo` or behind. -/
def Builds (known : Position → Prop) (pre : Token → Prop) (lo : Position) (p : Parse α)
    (P : Position → α → Prop) : Prop :=
  ∀ ⦃c a c'⦄, c.IsAt known lo → pre c.peek → p c = .ok a c' →
    c.Precedes c' ∧ ∀ hi, c'.front ≤ hi → P hi a

/-- Anything that is read. -/
def whatever (_ : Position) (_ : α) : Prop := True

namespace Builds

variable {known known' : Position → Prop} {pre pre' : Token → Prop} {lo start : Position}
  {p p' : Parse α} {P P' : Position → α → Prop} {Q : Position → β → Prop}

/-! ### Weaker contracts -/

theorem imp (h : Builds known pre lo p P) (hP : ∀ hi a, P hi a → P' hi a) :
    Builds known pre lo p P' := by
  intro c a c' hc hpre hrun
  obtain ⟨hmove, ha⟩ := h hc hpre hrun
  exact ⟨hmove, fun hi hhi => hP hi a (ha hi hhi)⟩

theorem knowing (h : Builds known' pre lo p P) (hknown : ∀ hi, known hi → known' hi) :
    Builds known pre lo p P :=
  fun _ _ _ hc => h (hc.imp hknown)

theorem mono (h : Builds known pre' lo p P) (hpre : ∀ t, pre t → pre' t) :
    Builds known pre lo p P :=
  fun _ _ _ hc ht => h hc (hpre _ ht)

/-- A contract that needs no knowledge of the token at the cursor. -/
theorem at_any (h : Builds known anywhere lo p P) : Builds known pre lo p P :=
  fun _ _ _ hc _ => h hc trivial

theorem at_token {kind : TokenKind} {t : Token} (h : Builds known (fun t => t.kind = kind) lo p P)
    (ht : t.kind = kind) : Builds known (· = t) lo p P :=
  fun _ _ _ hc hpre => h hc (hpre ▸ ht)

/-- What was known in front of a reading is known behind it. -/
theorem keep (h : Builds known pre lo p P) :
    Builds known pre lo p fun hi a => known hi ∧ P hi a := by
  intro c a c' hc hpre hrun
  obtain ⟨hmove, ha⟩ := h hc hpre hrun
  exact ⟨hmove, fun hi hhi => ⟨(hc.move hmove).known hi hhi, ha hi hhi⟩⟩

/-- Lines are counted from one. -/
theorem lined (h : 1 ≤ lo.line → Builds known pre lo p P) : Builds known pre lo p P :=
  fun _ _ _ hc => h hc.one_le_line hc

/-- What is known may be used as a fact. -/
theorem given {fact : Prop} (h : ∀ hi, known hi → fact) (hp : fact → Builds known pre lo p P) :
    Builds known pre lo p P :=
  fun _ _ _ hc => hp (h _ (hc.known _ (Position.le_refl _))) hc

/-- What is read begins behind what is known to have been read. -/
theorem raise (h : ∀ hi, known hi → lo ≤ start ∧ start ≤ hi)
    (hp : lo ≤ start → Builds known pre start p P) : Builds known pre lo p P := by
  intro c a c' hc
  obtain ⟨hlo, hstart⟩ := h _ (hc.known _ (Position.le_refl _))
  exact hp hlo ⟨hc.isSound, Int.le_trans hc.one_le_line (Position.line_le_of_le hlo),
    Position.le_trans hstart hc.isSound.front_le_peek, hc.known⟩

/-! ### Sequences -/

theorem pure {a : α} (h : ∀ hi, known hi → P hi a) : Builds known pre lo (pure a) P := by
  intro c b c' hc _ hrun
  cases hrun
  exact ⟨.refl c, fun hi hhi => h hi (hc.known hi hhi)⟩

theorem bind {k : α → Parse β} (hp : Builds known pre lo p P)
    (hk : ∀ a, Builds (fun hi => known hi ∧ P hi a) anywhere lo (k a) Q) :
    Builds known pre lo (p >>= k) Q := by
  intro c b c'' hc hpre hrun
  obtain ⟨a, c', hfirst, hrest⟩ := exists_of_bind_eq_ok hrun
  obtain ⟨hmove, ha⟩ := hp hc hpre hfirst
  obtain ⟨hmove', hb⟩ := hk a ((hc.move hmove).and ha) trivial hrest
  exact ⟨hmove.trans hmove', hb⟩

/-- What the first reading gives does not matter. -/
theorem andThen {k : α → Parse β} (hp : Builds known pre lo p P)
    (hk : ∀ a, Builds known anywhere lo (k a) Q) : Builds known pre lo (p >>= k) Q :=
  hp.bind fun a => (hk a).knowing fun _ => And.left

theorem map {f : α → β} (h : Builds known pre lo p fun hi a => Q hi (f a)) :
    Builds known pre lo (f <$> p) Q := by
  rw [map_eq_pure_bind]
  exact h.bind fun a => pure fun hi ha => ha.2

/-- A value that is read and given as one that is there. -/
theorem found (h : Builds known pre lo p P) :
    Builds known pre lo (p >>= fun a => Pure.pure (some a)) fun hi o => ∀ a ∈ o, P hi a :=
  h.bind fun _ => pure fun _ ha _ hb => Option.mem_some_iff.mp hb ▸ ha.2

/-- A value that is not there. -/
theorem notFound : Builds known pre lo (Pure.pure none) fun hi o => ∀ a ∈ o, P hi a :=
  pure fun _ _ a ha => absurd ha (Option.not_mem_none a)

theorem someOf (h : Builds known pre lo p P) :
    Builds known pre lo (some <$> p) fun hi o => ∀ a ∈ o, P hi a := by
  rw [map_eq_pure_bind]
  exact h.found

/-- A value that is read, where another reading would go on without one. -/
theorem present {k : Option α → Parse β} (h : Builds known pre lo p P)
    (hk : ∀ o, Builds (fun hi => known hi ∧ ∀ a ∈ o, P hi a) anywhere lo (k o) Q) :
    Builds known pre lo (some <$> p >>= k) Q :=
  h.someOf.bind hk

theorem absent {k : Option α → Parse β}
    (hk : ∀ o, Builds (fun hi => known hi ∧ ∀ a ∈ o, P hi a) anywhere lo (k o) Q) :
    Builds known pre lo (Pure.pure none >>= k) Q :=
  notFound.bind hk

theorem ite {b : Prop} [Decidable b] (h : b → Builds known pre lo p P)
    (h' : ¬ b → Builds known pre lo p' P) : Builds known pre lo (if b then p else p') P := by
  split
  · exact h ‹_›
  · exact h' ‹_›

/-! ### Failing -/

theorem of_fails (h : Fails p) : Builds known pre lo p P := by
  intro c a c' _ _ hrun
  obtain ⟨_, _, herror⟩ := h c
  rw [herror] at hrun
  cases hrun

theorem failHere (cause : SyntaxCause) : Builds known pre lo (Parse.failHere cause) P :=
  of_fails (fails_failHere cause)

theorem failAtToken (cause : SyntaxCause) (t : Token) :
    Builds known pre lo (Parse.failAtToken cause t) P :=
  of_fails (fails_failAtToken cause t)

theorem failAtSpan (cause : SyntaxCause) (span : Span) :
    Builds known pre lo (Parse.failAtSpan cause span) P :=
  of_fails (fails_failAtSpan cause span)

/-! ### Looking -/

/-- What follows a look goes on from the same token. -/
theorem look {b : Parse β} {k : β → Parse α} (hb : Looks b)
    (hk : ∀ x, Builds known pre lo (k x) P) :
    Builds known pre lo (b >>= k) P := by
  intro c a c' hc hpre hrun
  obtain ⟨x, hx⟩ := hb c
  rw [bind_ok hx] at hrun
  exact hk x hc hpre hrun

/-- The choice between two readings by a look. -/
theorem test {b : Parse Bool} (hb : Looks b) (h : Builds known pre lo p P)
    (h' : Builds known pre lo p' P) :
    Builds known pre lo (b >>= fun b => if b then p else p') P :=
  look hb fun _ => ite (fun _ => h) fun _ => h'

theorem peek {k : Token → Parse α}
    (h : ∀ t, pre t → lo ≤ t.start → Builds known (· = t) t.start (k t) P) :
    Builds known pre lo (Parse.peek >>= k) P :=
  fun c _ _ hc hpre hrun => h c.peek hpre hc.le_peek hc.at_peek rfl hrun

theorem kind {k : TokenKind → Parse α} (h : ∀ t, pre t → Builds known (· = t) lo (k t.kind) P) :
    Builds known pre lo (Parse.kind >>= k) P :=
  fun c _ _ hc hpre hrun => h c.peek hpre hc rfl hrun

/-- The choice between two readings by the kind of the token at the cursor. -/
theorem ifAt (kind : TokenKind) (h : Builds known (fun t => t.kind = kind) lo p P)
    (h' : Builds known pre lo p' P) :
    Builds known pre lo (at? kind >>= fun b => if b then p else p') P := by
  intro c a c' hc hpre hrun
  rw [bind_ok (at?_peek kind c)] at hrun
  split at hrun
  · next hkind => exact h hc (beq_iff_eq.mp hkind) hrun
  · exact h' hc hpre hrun

/-- What is seen of the token at the cursor stays known until a token is taken. -/
theorem seen (kind : TokenKind) {k : Bool → Parse α}
    (h : ∀ b, Builds known (fun t => pre t ∧ (t.kind == kind) = b) lo (k b) P) :
    Builds known pre lo (at? kind >>= k) P := by
  intro c a c' hc hpre hrun
  rw [bind_ok (at?_peek kind c)] at hrun
  exact h _ hc ⟨hpre, rfl⟩ hrun

/-- The choice between two readings by the kinds of the token at the cursor and the one behind
it. -/
theorem ifFollowed {first second : TokenKind} (h : Builds known (fun t => t.kind = first) lo p P)
    (h' : Builds known pre lo p' P) :
    Builds known pre lo
      (at? first >>= fun x => Parse.kindAt 1 >>= fun y => if x && y == second then p else p')
      P := by
  intro c a c' hc hpre hrun
  change (if c.peek.kind == first && (c.peekAt 1).kind == second then p else p') c =
    .ok a c' at hrun
  split at hrun
  · next hkinds =>
    rw [Bool.and_eq_true, beq_iff_eq] at hkinds
    exact h hc hkinds.1 hrun
  · exact h' hc hpre hrun

/-! ### Moving -/

/-- A token that stands for a piece of the source is taken first of all. -/
theorem next {k : Token → Parse α} (hproper : ∀ t, pre t → t.kind.isProper)
    (h : ∀ t, pre t → lo ≤ t.start → Builds (t.start ≤ ·) anywhere t.start (k t) P) :
    Builds known pre lo (Parse.next >>= k) P := by
  intro c a c' hc hpre hrun
  rw [bind_ok (next_run c)] at hrun
  obtain ⟨hmove, ha⟩ := h c.peek hpre hc.le_peek (hc.taken (hproper _ hpre)) trivial hrun
  exact ⟨hc.isSound.precedes_advance.trans hmove, ha⟩

/-- The token that has been looked at is taken. -/
theorem nextPeeked {t : Token} {k : Token → Parse α} (hproper : t.kind.isProper)
    (h : Builds (t.start ≤ ·) anywhere t.start (k t) P) :
    Builds known (· = t) t.start (Parse.next >>= k) P :=
  next (by rintro _ rfl; exact hproper) (by rintro _ rfl _; exact h)

/-- A token is taken, whatever it is. -/
theorem skip {k : Token → Parse α} (h : ∀ t, pre t → Builds known anywhere lo (k t) P) :
    Builds known pre lo (Parse.next >>= k) P := by
  intro c a c' hc hpre hrun
  rw [bind_ok (next_run c)] at hrun
  obtain ⟨hmove, ha⟩ := h c.peek hpre hc.advance trivial hrun
  exact ⟨hc.isSound.precedes_advance.trans hmove, ha⟩

/-- The choice between two readings by whether a token can be taken. -/
theorem ifAccept (kind : TokenKind) (h : Builds known anywhere lo p P)
    (h' : Builds known pre lo p' P) :
    Builds known pre lo (Parse.accept kind >>= fun b => if b then p else p') P := by
  rw [Mirrors.accept_bind]
  exact ifAt kind (skip fun _ _ => h) h'

theorem accept (kind : TokenKind) : Builds known pre lo (Parse.accept kind) whatever :=
  ifAt kind (skip fun _ _ => pure fun _ _ => trivial) (pure fun _ _ => trivial)

/-- The kind of a token that stands for a piece of the source. -/
theorem proper {kind : TokenKind} (h : kind.isProper) (t : Token) (ht : t.kind = kind) :
    t.kind.isProper :=
  ht ▸ h

/-- A token that is taken, of a kind that stands for a piece of the source. -/
theorem nextSound (hproper : ∀ t, pre t → t.kind.isProper) :
    Builds known pre lo Parse.next fun hi t => pre t ∧ t.IsSound ∧ lo ≤ t.start ∧ t.stop ≤ hi := by
  intro c t c' hc hpre hrun
  cases hrun
  refine ⟨hc.isSound.precedes_advance, fun hi hhi => ?_⟩
  rw [hc.isSound.front_advance (hproper _ hpre)] at hhi
  exact ⟨hpre, hc.isSound.isSound _ c.peek_mem_tokens, hc.le_peek, hhi⟩

theorem nextToken (hproper : ∀ t, pre t → t.kind.isProper) :
    Builds known pre lo Parse.next fun hi t => pre t ∧ lo ≤ t.start ∧ t.start ≤ hi :=
  (nextSound hproper).imp fun _ _ h =>
    ⟨h.1, h.2.2.1, Position.le_trans h.2.1.start_le_stop h.2.2.2⟩

/-- What must stand at the cursor is taken, be it layout. -/
theorem expectAny (what : Missing) : Builds known pre lo (Parse.expect what) whatever := by
  rw [Parse.expect, Mirrors.accept_bind]
  exact ifAt what.kind (skip fun _ _ => pure fun _ _ => trivial) (failHere _)

/-- What must stand at the cursor and stands for a piece of the source moves the front. -/
theorem expect (what : Missing) (hproper : what.kind.isProper) :
    Builds known pre lo (Parse.expect what) fun hi _ => lo ≤ hi := by
  rw [Parse.expect, Mirrors.accept_bind]
  refine ifAt what.kind (next (fun t ht => ht ▸ hproper) fun t _ hlo => ?_) (failHere _)
  exact pure fun hi hstart => Position.le_trans hlo hstart

theorem expectName (role : NameRole) :
    Builds known pre lo (Parse.expectName role) fun hi t => lo ≤ t.start ∧ t.start ≤ hi :=
  ifAt .identifier ((nextToken fun t ht => by rw [ht]; rfl).imp fun _ _ h => h.2) (failHere _)

/-- A name with which something larger begins. -/
theorem nameFirst {role : NameRole} {k : Token → Parse α}
    (h : ∀ t, lo ≤ t.start → Builds (t.start ≤ ·) anywhere t.start (k t) P) :
    Builds known pre lo (Parse.expectName role >>= k) P :=
  (expectName role).bind fun t => raise (fun _ => And.right) fun hlo =>
    (h t hlo).knowing fun _ ht => ht.2.2

/-- Two tokens of given kinds are taken if they stand at the cursor. -/
theorem ifPair {first second : TokenKind} (hfirst : first.isProper) {k : Token → Parse α}
    (h : ∀ t, pre t → lo ≤ t.start →
      Builds (fun hi => known hi ∧ t.start ≤ hi) anywhere t.start (k t) P)
    (h' : Builds known pre lo p' P) :
    Builds known pre lo
      (at? first >>= fun x => Parse.kindAt 1 >>= fun y =>
        if x && y == second then Parse.next >>= fun t => Parse.next >>= fun _ => k t else p')
        P := by
  intro c a c' hc hpre hrun
  change (if c.peek.kind == first && (c.peekAt 1).kind == second then
    Parse.next >>= fun t => Parse.next >>= fun _ => k t else p') c = .ok a c' at hrun
  split at hrun
  · next hkinds =>
    simp only [Bool.and_eq_true, beq_iff_eq] at hkinds
    -- The first of the two moves the front, the second does not move it back.
    have hfront := hc.isSound.start_le_front_advance (hkinds.1 ▸ hfirst)
    have hfar := hc.advance.isSound.precedes_advance
    have hmove := hc.isSound.precedes_advance.trans hfar
    have hknown := (hc.at_peek.move hmove).and fun hi hhi =>
      Position.le_trans hfront (Position.le_trans hfar.front_le hhi)
    obtain ⟨hmove', ha⟩ := h c.peek hpre hc.le_peek hknown trivial hrun
    exact ⟨hmove.trans hmove', ha⟩
  · exact h' hc hpre hrun

/-- A value that is read if a test holds. -/
theorem optionally {b : Parse Bool} {k : Option α → Parse β} (hb : Builds known pre lo b whatever)
    (h : Builds known anywhere lo p P)
    (hk : ∀ o, Builds (fun hi => known hi ∧ ∀ a ∈ o, P hi a) anywhere lo (k o) Q) :
    Builds known pre lo
      (b >>= fun b => if b then some <$> p >>= k else Pure.pure none >>= k) Q :=
  hb.andThen fun _ => ite (fun _ => present h hk) fun _ => absent hk

/-! ### Spans -/

/-- The span from a place to the front fits a node that is built from all that is known. -/
theorem spanFrom (role : Context) (node : Span → Node) (hspan : ∀ span, (node span).span = span)
    (hlo : lo ≤ start)
    (h : ∀ hi, known hi → start ≤ hi ∧ (node ⟨start, some hi⟩).Fits role (some ⟨start, hi⟩)) :
    Builds known pre start (Parse.spanFrom start) fun hi span => (node span).Stands role lo hi := by
  intro c a c' hc _ hrun
  -- The span ends at the front, so what is known at the front itself is what counts.
  obtain ⟨hstart, hfits⟩ := h _ (hc.known _ (Position.le_refl _))
  have hrun : EStateM.Result.ok (c.spanFrom start) c = .ok a c' := hrun
  rw [Cursor.spanFrom_eq hc.one_le_line hstart] at hrun
  cases hrun
  exact ⟨.refl c, fun hi hhi => hfits.stands (hspan _) hstart hlo hhi⟩

/-- A node that is built from all that is known stands between its beginning and the front. -/
theorem nodeFrom (node : Span → α) (tree : α → Node)
    (hspan : ∀ span, (tree (node span)).span = span) (hlo : lo ≤ start)
    (h : ∀ hi, known hi →
      start ≤ hi ∧ (tree (node ⟨start, some hi⟩)).Fits .load (some ⟨start, hi⟩)) :
    Builds known pre start (Parse.spanFrom start >>= fun span => Pure.pure (node span))
      fun hi a => (tree a).Stands .load lo hi :=
  (spanFrom .load (fun span => tree (node span)) hspan hlo h).bind fun _ => pure fun _ => And.right

theorem exprFrom {shape : Expr.Shape} (hlo : lo ≤ start)
    (h : ∀ hi, known hi →
      start ≤ hi ∧ (Node.expr (.node ⟨start, some hi⟩ shape)).Fits .load (some ⟨start, hi⟩)) :
    Builds known pre start (Parse.exprFrom start shape) (Expr.Stands .load lo) :=
  nodeFrom (fun span => .node span shape) .expr (fun _ => rfl) hlo h

theorem patternFrom {shape : Pattern.Shape} (hlo : lo ≤ start)
    (h : ∀ hi, known hi →
      start ≤ hi ∧ (Node.pattern (.node ⟨start, some hi⟩ shape)).Fits .load (some ⟨start, hi⟩)) :
    Builds known pre start (Parse.patternFrom start shape) (Pattern.Stands lo) :=
  nodeFrom (fun span => .node span shape) .pattern (fun _ => rfl) hlo h

theorem stmtFrom {shape : Stmt.Shape} (hlo : lo ≤ start)
    (h : ∀ hi, known hi →
      start ≤ hi ∧ (Node.stmt (.node ⟨start, some hi⟩ shape)).Fits .load (some ⟨start, hi⟩)) :
    Builds known pre start (Parse.stmtFrom start shape) (Stmt.Stands lo) :=
  nodeFrom (fun span => .node span shape) .stmt (fun _ => rfl) hlo h

/-! ### Repeating -/

/-- A loop keeps what its first step begins and each further step keeps. -/
theorem iterateFirst {I : Position → σ → Prop} {step : σ → Parse (ForInStep σ)} {s : σ}
    (hfirst : Builds known pre lo (step s) fun hi r => I hi r.value)
    (hstep : ∀ s, Builds (I · s) anywhere lo (step s) fun hi r => I hi r.value) :
    Builds known pre lo (Parse.iterate step s) I := by
  have hupto :
      ∀ (limit : Nat) (s : σ), Builds (I · s) anywhere lo (iterateUpTo step limit s) I := by
    intro limit
    induction limit with
    | zero => exact fun s => failHere _
    | succ limit ih =>
      refine fun s => (hstep s).bind fun r => ?_
      cases r with
      | done s' => exact pure fun _ => And.right
      | yield s' => exact (ih s').knowing fun _ => And.right
  -- The first step is read as the last of the limit's, and what follows it as the others.
  intro c a c' hc hpre hrun
  change iterateUpTo step (c.rest.length + 1) s c = .ok a c' at hrun
  refine (hfirst.bind fun r => ?_) hc hpre hrun
  cases r with
  | done s' => exact pure fun _ => And.right
  | yield s' => exact (hupto c.rest.length s').knowing fun _ => And.right

/-- A loop keeps what each step keeps. -/
theorem iterate {I : Position → σ → Prop} {step : σ → Parse (ForInStep σ)} {s : σ}
    (hs : ∀ hi, known hi → I hi s)
    (hstep : ∀ s, Builds (I · s) anywhere lo (step s) fun hi r => I hi r.value) :
    Builds known pre lo (Parse.iterate step s) I :=
  iterateFirst ((hstep s).knowing hs).at_any hstep

/-- All collected items are as each item is. -/
theorem collect {item : Parse (Option α)}
    (h : Builds known anywhere lo item fun hi o => ∀ a ∈ o, P hi a) :
    Builds known pre lo (Parse.collect item) fun hi as => ∀ a ∈ as, P hi a := by
  have hupto : ∀ limit : Nat,
      Builds known anywhere lo (collectUpTo item limit) fun hi as => ∀ a ∈ as, P hi a := by
    intro limit
    induction limit with
    | zero => exact failHere _
    | succ limit ih =>
      refine h.bind fun o => ?_
      cases o with
      | none => exact pure fun _ _ => List.forall_mem_nil _
      | some a =>
        refine (ih.knowing fun _ => And.left).bind fun as => pure fun hi hknown => ?_
        exact List.forall_mem_cons.mpr ⟨hknown.1.2 a rfl, hknown.2⟩
  exact fun c a c' hc _ hrun => hupto (c.rest.length + 1) hc trivial hrun

/-- Where the first item is read there is one. -/
theorem collect_ne_nil {item : Parse (Option α)} {c c' : Cursor} {as : List α}
    (hsome : ∀ c', item c ≠ .ok none c') (hrun : Parse.collect item c = .ok as c') : as ≠ [] := by
  obtain ⟨o, c₁, hitem, hrest⟩ := exists_of_bind_eq_ok
    (show collectUpTo item (c.rest.length + 1) c = .ok as c' from hrun)
  cases o with
  | none => exact absurd hitem (hsome c₁)
  | some a =>
    obtain ⟨rest, c₂, -, has⟩ := exists_of_bind_eq_ok hrest
    cases has
    exact List.cons_ne_nil a rest

/-- Readings one after the other, for each item of a list. -/
theorem mapM {f : ι → Parse α} {is : List ι}
    (h : ∀ i ∈ is, Builds known anywhere lo (f i) P) :
    Builds known anywhere lo (is.mapM f) fun hi as =>
      as.length = is.length ∧ ∀ a ∈ as, P hi a := by
  induction is with
  | nil => exact pure fun _ _ => ⟨rfl, List.forall_mem_nil _⟩
  | cons i is ih =>
    rw [List.mapM_cons]
    refine (h i List.mem_cons_self).bind fun a => ?_
    have hrest := ih fun j hj => h j (List.mem_cons_of_mem i hj)
    refine (hrest.knowing fun _ => And.left).bind fun as => pure fun hi hknown => ?_
    obtain ⟨⟨-, ha⟩, hlength, has⟩ := hknown
    exact ⟨congrArg Nat.succ hlength, List.forall_mem_cons.mpr ⟨ha, has⟩⟩

/-- A reading that is tried. -/
theorem attempt {p : Parse (Option α)}
    (h : Builds known pre lo p fun hi o => ∀ a ∈ o, P hi a) :
    Builds known pre lo (Parse.attempt p) fun hi o => ∀ a ∈ o, P hi a := by
  intro c o c' hc hpre hrun
  -- Attempts are counted, which changes neither the tokens nor the front.
  have htried : Cursor.IsAt known lo { c with attempts := c.attempts + 1 } :=
    ⟨⟨hc.isSound.isSound, hc.isSound.ordered, hc.isSound.ends⟩, hc.one_le_line, hc.le_peek,
      hc.known⟩
  simp only [Parse.attempt] at hrun
  split at hrun
  · next hp =>
    obtain ⟨hmove, ha⟩ := h htried hpre hp
    cases hrun
    exact ⟨⟨hmove.tokens, hmove.final, hmove.peek_le, hmove.front_le⟩, ha⟩
  all_goals
    cases hrun
    exact ⟨.refl c, by simp⟩

end Builds

/-! ## Readings of expressions -/

/-- A reading that gives expressions, wherever it begins. -/
def BuildsExpr (p : Parse Expr) : Prop :=
  ∀ (known : Position → Prop) (pre : Token → Prop) (lo : Position),
    Builds known pre lo p (Expr.Stands .load lo)

namespace BuildsExpr

variable {known : Position → Prop} {pre : Token → Prop} {lo : Position} {p : Parse Expr}
  {Q : Position → β → Prop} {k : Expr → Parse β}

theorem builds (h : BuildsExpr p) : Builds known pre lo p (Expr.Stands .load lo) := h known pre lo

theorem bind (h : BuildsExpr p)
    (hk : ∀ e, Builds (fun hi => known hi ∧ e.Stands .load lo hi) anywhere lo (k e) Q) :
    Builds known pre lo (p >>= k) Q :=
  h.builds.bind hk

theorem within (h : BuildsExpr p) :
    Builds known pre lo p fun hi e => (Node.expr e).Within .load lo hi :=
  h.builds.imp fun _ _ he => he.within

/-- An expression with which something larger begins. -/
theorem first (h : BuildsExpr p)
    (hk : ∀ e, lo ≤ e.span.start →
      Builds (e.Stands .load e.span.start) anywhere e.span.start (k e) Q) :
    Builds known pre lo (p >>= k) Q := by
  intro c b c'' hc hpre hrun
  obtain ⟨e, c', hfirst, hrest⟩ := exists_of_bind_eq_ok hrun
  obtain ⟨hmove, he⟩ := h.builds hc hpre hfirst
  -- From here on only the expression is known, and all begins where it does.
  have hstands := he _ (Position.le_refl _)
  have hc' : c'.IsAt (e.Stands .load e.span.start) e.span.start :=
    ⟨hc.isSound.move hmove, Int.le_trans hc.one_le_line (Position.line_le_of_le hstands.le_start),
      Position.le_trans hstands.start_le (hc.isSound.move hmove).front_le_peek,
      fun hi hhi => (he hi hhi).from_start⟩
  obtain ⟨hmove', hb⟩ := hk e hstands.le_start hc' trivial hrest
  exact ⟨hmove.trans hmove', hb⟩

end BuildsExpr

/-- How expressions are read within a phrase. -/
def ReadingBuilds (read : Reading) : Prop := ∀ g, BuildsExpr (read g)

end Parse

end SyntaxTree
