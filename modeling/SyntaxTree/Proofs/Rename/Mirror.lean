import SyntaxTree.Grammar.Statement
import SyntaxTree.Proofs.Grammar.Word
import SyntaxTree.Proofs.Token.Plain
import SyntaxTree.Proofs.Tree.Rename

/-
# Readings of renamed tokens

Two readings run side by side, one over tokens and one over the same tokens with their identifiers
renamed.  The second mirrors the first if it succeeds where the first does, with a renamed result.
There is one exception: the first may give a result that only a soft keyword could begin, and there
the second fails.

A reading of an expression never takes the end of a line or of the input, a semicolon, or a colon at
the end of a line; what begins there is a barrier that stays ahead of the cursor.
-/

namespace SyntaxTree

/-! ## Cursors over renamed tokens -/

/-- Of two cursors, the second stands at the same place among the renamed tokens. -/
structure Cursor.Alike (σ : Bytes → Bytes) (c d : Cursor) : Prop where
  before : d.before = c.before.map (Token.rename σ)
  rest : d.rest = c.rest.map (Token.rename σ)
  final : d.final = c.final.rename σ
  ends : c.final.kind = .endOfInput
  plain : ∀ t ∈ c.final :: c.rest, t.IsPlain

/-- The token behind the one at the cursor. -/
theorem Cursor.peek_advance (c : Cursor) : c.advance.peek = c.peekAt 1 := by
  obtain ⟨_, _, rest, _, _⟩ := c
  rcases rest with _ | ⟨_, _ | ⟨_, _⟩⟩ <;> rfl

namespace Cursor.Alike

variable {σ : Bytes → Bytes} {c d : Cursor}

theorem peek (h : c.Alike σ d) : d.peek = c.peek.rename σ := by
  rw [Cursor.peek, Cursor.peek, h.rest, h.final]
  cases c.rest <;> rfl

theorem isPlain_peek (h : c.Alike σ d) : c.peek.IsPlain := by
  refine h.plain _ ?_
  rw [Cursor.peek]
  cases c.rest <;> simp

theorem kind_peekAt (h : c.Alike σ d) (distance : Nat) :
    (d.peekAt distance).kind = (c.peekAt distance).kind := by
  rw [peekAt, peekAt, h.rest, h.final, List.getD_eq_getElem?_getD, List.getD_eq_getElem?_getD,
    List.getElem?_map]
  cases c.rest[distance]? <;> simp

theorem advance (h : c.Alike σ d) : c.advance.Alike σ d.advance := by
  obtain ⟨_, before, rest, final, _⟩ := c
  obtain ⟨_, before', rest', final', _⟩ := d
  obtain ⟨rfl, rfl, rfl, hends, hplain⟩ := h
  cases rest with
  | nil => exact ⟨rfl, rfl, rfl, hends, hplain⟩
  | cons t rest =>
    refine ⟨rfl, rfl, rfl, hends, fun u hu => hplain u ?_⟩
    rcases List.mem_cons.mp hu with rfl | hu
    · exact List.mem_cons_self
    · exact List.mem_cons_of_mem _ (List.mem_cons_of_mem t hu)

theorem lastOfReversed (σ : Bytes → Bytes) (first : Token) (before : List Token) :
    Cursor.lastOfReversed (first.rename σ) (before.map (Token.rename σ)) =
      (Cursor.lastOfReversed first before).rename σ := by
  induction before generalizing first with
  | nil => rfl
  | cons t before ih =>
    simp only [List.map_cons, Cursor.lastOfReversed, Token.kind_rename, ih]
    split <;> rfl

theorem spanFrom (h : c.Alike σ d) (start : Position) : d.spanFrom start = c.spanFrom start := by
  rw [Cursor.spanFrom, Cursor.spanFrom, last, last, h.peek, h.before, lastOfReversed,
    Token.stop_rename]

/-- Before the end of the input there is a token ahead. -/
theorem rest_ne_nil (h : c.Alike σ d) (hkind : c.peek.kind ≠ .endOfInput) : c.rest ≠ [] := by
  intro hnil
  rw [Cursor.peek, hnil] at hkind
  exact hkind h.ends

theorem length_rest (h : c.Alike σ d) : d.rest.length = c.rest.length := by
  rw [h.rest, List.length_map]

end Cursor.Alike

/-! ## Barriers -/

/-- Tokens that begin with the end of a line or of the input, with a semicolon, or with a colon in
front of the end of a line. -/
inductive IsBarrier : List Token → Prop where
  | newline {t : Token} {ts : List Token} (h : t.kind = .newline) : IsBarrier (t :: ts)
  | semicolon {t : Token} {ts : List Token} (h : t.kind = .semicolon) : IsBarrier (t :: ts)
  | endOfInput {t : Token} {ts : List Token} (h : t.kind = .endOfInput) : IsBarrier (t :: ts)
  | colon {t u : Token} {ts : List Token} (ht : t.kind = .colon) (hu : u.kind = .newline) :
    IsBarrier (t :: u :: ts)

namespace TokenKind

/-- A token that begins no barrier, whatever stands behind it. -/
def isOpen : TokenKind → Bool
  | .newline | .semicolon | .endOfInput | .colon => false
  | _ => true

/-- A choice among tokens that leaves out those at which barriers begin. -/
theorem isOpen_of_eq_some {α : Type} {choose : TokenKind → Option α} {kind : TokenKind} {a : α}
    (h : choose kind = some a) (hnewline : choose .newline = none)
    (hsemicolon : choose .semicolon = none) (hend : choose .endOfInput = none)
    (hcolon : choose .colon = none) : kind.isOpen := by
  unfold isOpen
  split
  · rw [hnewline] at h
    cases h
  · rw [hsemicolon] at h
    cases h
  · rw [hend] at h
    cases h
  · rw [hcolon] at h
    cases h
  · rfl

theorem isOpen_of_isNumber {kind : TokenKind} (h : kind.isNumber) : kind.isOpen := by
  unfold isNumber at h
  split at h
  · rfl
  · rfl
  · rfl
  · cases h

theorem isOpen_of_isText {kind : TokenKind} (h : kind.isText) : kind.isOpen := by
  unfold isText at h
  split at h
  · rfl
  · rfl
  · rfl
  · cases h

end TokenKind

theorem IsBarrier.ne_nil {ts : List Token} (h : IsBarrier ts) : ts ≠ [] := by
  cases h <;> exact List.cons_ne_nil _ _

theorem IsBarrier.not_isOpen {t : Token} {ts : List Token} (h : IsBarrier (t :: ts)) :
    t.kind.isOpen = false := by
  cases h with
  | newline h | semicolon h | endOfInput h | colon h =>
    rw [h]
    rfl

namespace Cursor

/-- The second cursor is not behind the first, and every barrier ahead of the first is ahead of the
second. -/
structure Keeps (c c' : Cursor) : Prop where
  forward : c'.rest <:+ c.rest
  barrier : ∀ ts, IsBarrier ts → ts <:+ c.rest → ts <:+ c'.rest

theorem Keeps.refl (c : Cursor) : c.Keeps c := ⟨List.suffix_rfl, fun _ _ h => h⟩

theorem Keeps.trans {c c' c'' : Cursor} (h : c.Keeps c') (h' : c'.Keeps c'') : c.Keeps c'' :=
  ⟨h'.forward.trans h.forward, fun ts hts hsuffix => h'.barrier ts hts (h.barrier ts hts hsuffix)⟩

theorem suffix_advance_rest (c : Cursor) : c.advance.rest <:+ c.rest := by
  obtain ⟨_, _, rest, _, _⟩ := c
  cases rest with
  | nil => exact List.suffix_rfl
  | cons t rest => exact List.suffix_cons t rest

/-- What is ahead stays ahead unless it begins at the cursor. -/
theorem suffix_advance {c : Cursor} {ts : List Token} (h : ts <:+ c.rest) (hne : ts ≠ c.rest) :
    ts <:+ c.advance.rest := by
  obtain ⟨_, _, rest, _, _⟩ := c
  cases rest with
  | nil => exact h
  | cons t rest => exact (List.suffix_cons_iff.mp h).resolve_left hne

/-- No barrier begins at an open token. -/
theorem not_isBarrier {c : Cursor} (h : c.peek.kind.isOpen) : ¬ IsBarrier c.rest := by
  intro hbarrier
  obtain ⟨_, _, rest, _, _⟩ := c
  cases rest with
  | nil => cases hbarrier
  | cons t rest => exact absurd hbarrier.not_isOpen (by simpa [peek] using h)

/-- Taking a token passes no barrier unless one begins at it. -/
theorem keeps_advance_of_not {c : Cursor} (h : ¬ IsBarrier c.rest) : c.Keeps c.advance :=
  ⟨c.suffix_advance_rest, fun _ hts hsuffix => suffix_advance hsuffix fun heq => h (heq ▸ hts)⟩

theorem keeps_advance {c : Cursor} (h : c.peek.kind.isOpen) : c.Keeps c.advance :=
  keeps_advance_of_not (not_isBarrier h)

/-- A colon begins a barrier only in front of the end of a line. -/
theorem keeps_advance_colon {c : Cursor} (h : c.peek.kind = .colon)
    (hnext : c.advance.peek.kind ≠ .newline) : c.Keeps c.advance := by
  refine keeps_advance_of_not fun hbarrier => ?_
  obtain ⟨_, _, rest, _, _⟩ := c
  cases hbarrier with
  | newline hkind | semicolon hkind | endOfInput hkind =>
    exact absurd (hkind.symm.trans h) (by decide)
  | colon hkind hkind' => exact hnext hkind'

end Cursor

/-! ## Mirrored readings -/

namespace Parse

variable {α β γ δ ι κ : Type}

/-! ### Running at a cursor -/

theorem at?_peek (kind : TokenKind) (c : Cursor) : at? kind c = .ok (c.peek.kind == kind) c := rfl

theorem accept_of_eq {kind : TokenKind} {c : Cursor} (h : c.peek.kind = kind) :
    accept kind c = .ok true c.advance := by
  rw [accept, bind_ok (at?_peek kind c), if_pos (by simpa using h)]
  rfl

theorem accept_of_ne {kind : TokenKind} {c : Cursor} (h : c.peek.kind ≠ kind) :
    accept kind c = .ok false c := by
  rw [accept, bind_ok (at?_peek kind c), if_neg (by simpa using h)]
  rfl

/-! ### What two readings give -/

/-- Any token. -/
def anywhere (_ : Token) : Prop := True

/-- No result. -/
def never (_ : α) : Prop := False

/-- What two readings give from cursors that are alike, the first one from `c`: related results and
cursors that are alike again, or two errors; or a result that only soft keywords could begin, and
an error.  If `keep` is wanted, the first one passes no barrier. -/
inductive Outcome (σ : Bytes → Bytes) (keep : Prop) (c : Cursor) (R : α → β → Prop)
    (soft : α → Prop) : EStateM.Result SyntaxError Cursor α → EStateM.Result SyntaxError Cursor β →
      Prop where
  | ok {a : α} {b : β} {c' d' : Cursor} (hab : R a b) (hsoft : ¬ soft a) (halike : c'.Alike σ d')
    (hkeeps : keep → c.Keeps c') : Outcome σ keep c R soft (.ok a c') (.ok b d')
  | soft {a : α} {e : SyntaxError} {c' d' : Cursor} (ha : soft a) :
    Outcome σ keep c R soft (.ok a c') (.error e d')
  | error {e e' : SyntaxError} {c' d' : Cursor} :
    Outcome σ keep c R soft (.error e c') (.error e' d')

/-- A result becomes another one by a function. -/
abbrev Becomes (f : α → β) (a : α) (b : β) : Prop := f a = b

/-- A step that passes no barrier may come first. -/
theorem Outcome.of_keeps {σ : Bytes → Bytes} {keep : Prop} {c c₁ : Cursor} {R : α → β → Prop}
    {soft : α → Prop} {r : EStateM.Result SyntaxError Cursor α}
    {s : EStateM.Result SyntaxError Cursor β} (hkeeps : keep → c.Keeps c₁)
    (h : Outcome σ keep c₁ R soft r s) : Outcome σ keep c R soft r s := by
  cases h with
  | ok hab hsoft halike hkeeps' =>
    exact .ok hab hsoft halike fun hkeep => (hkeeps hkeep).trans (hkeeps' hkeep)
  | soft ha => exact .soft ha
  | error => exact .error

/-- Where the first reading fails, so does the second. -/
theorem Outcome.exists_error {σ : Bytes → Bytes} {keep : Prop} {c c' : Cursor} {R : α → β → Prop}
    {soft : α → Prop} {e : SyntaxError} {s : EStateM.Result SyntaxError Cursor β}
    (h : Outcome σ keep c R soft (.error e c') s) : ∃ e' d', s = .error e' d' := by
  cases h with
  | error => exact ⟨_, _, rfl⟩

/-- The second reading may fail where the first gives soft results only. -/
theorem Outcome.of_soft {σ : Bytes → Bytes} {keep : Prop} {c d' : Cursor} {R : α → β → Prop}
    {soft : α → Prop} {r : EStateM.Result SyntaxError Cursor α} {e : SyntaxError}
    (h : ∀ a c', r = .ok a c' → soft a) : Outcome σ keep c R soft r (.error e d') := by
  cases r with
  | ok a c' => exact .soft (h a c' rfl)
  | error => exact .error

/-- The second reading mirrors the first wherever the token at the cursor is as `pre` says. -/
def Mirrors (σ : Bytes → Bytes) (keep : Prop) (pre : Token → Prop) (R : α → β → Prop)
    (soft : α → Prop) (p : Parse α) (q : Parse β) : Prop :=
  ∀ ⦃c d : Cursor⦄, c.Alike σ d → pre c.peek → Outcome σ keep c R soft (p c) (q d)

/-- A reading that fails everywhere. -/
def Fails (p : Parse α) : Prop := ∀ c, ∃ e c', p c = .error e c'

theorem Fails.bind {p : Parse α} {k : α → Parse β} (h : Fails p) : Fails (p >>= k) := by
  intro c
  obtain ⟨e, c', hp⟩ := h c
  exact ⟨e, c', by simp only [Bind.bind, EStateM.bind, hp]⟩

/-- The results of a reading are as `P` says. -/
def Yields (P : α → Prop) (p : Parse α) : Prop := ∀ ⦃c a c'⦄, p c = .ok a c' → P a

/-- A reading that fails at the tokens of a kind. -/
def FailsAt (kind : TokenKind) (p : Parse α) : Prop :=
  ∀ c, c.peek.kind = kind → ∃ e c', p c = .error e c'

/-- A reading that fails at the end of a line. -/
abbrev NeedsToken (p : Parse α) : Prop := FailsAt .newline p

namespace Yields

variable {P : α → Prop} {p p' : Parse α}

theorem pure {a : α} (h : P a) : Yields P (pure a) := by
  intro c b c' hrun
  cases hrun
  exact h

/-- What comes last gives the result. -/
theorem bind {p : Parse β} {k : β → Parse α} (h : ∀ b, Yields P (k b)) : Yields P (p >>= k) := by
  intro c a c' hrun
  obtain ⟨b, c₁, -, hrest⟩ := exists_of_bind_eq_ok hrun
  exact h b hrest

/-- What comes first may matter for the result. -/
theorem andThen {Q : β → Prop} {p : Parse β} {k : β → Parse α} (hp : Yields Q p)
    (h : ∀ b, Q b → Yields P (k b)) : Yields P (p >>= k) := by
  intro c a c' hrun
  obtain ⟨b, c₁, hfirst, hrest⟩ := exists_of_bind_eq_ok hrun
  exact h b (hp hfirst) hrest

theorem ite {b : Prop} [Decidable b] (h : Yields P p) (h' : Yields P p') :
    Yields P (if b then p else p') := by
  split
  · exact h
  · exact h'

theorem of_fails (h : Fails p) : Yields P p := by
  intro c a c' hrun
  obtain ⟨_, _, herror⟩ := h c
  rw [herror] at hrun
  cases hrun

end Yields

namespace Mirrors

variable {σ : Bytes → Bytes} {keep : Prop} {pre : Token → Prop} {R : α → β → Prop}
  {S : γ → δ → Prop} {soft : α → Prop} {soft' : γ → Prop} {p : Parse α} {q : Parse β}

/-! ### Pure steps and sequences -/

theorem pure {a : α} {b : β} (hab : R a b) (hsoft : ¬ soft a) :
    Mirrors σ keep pre R soft (pure a) (pure b) :=
  fun c _ halike _ => .ok hab hsoft halike fun _ => .refl c

/-- A soft first result makes the whole result soft. -/
theorem bindSoft {k : α → Parse γ} {l : β → Parse δ} (h : Mirrors σ keep pre R soft p q)
    (hk : ∀ a b, R a b → ¬ soft a → Mirrors σ keep anywhere S soft' (k a) (l b))
    (hsoft : ∀ a, soft a → Yields soft' (k a)) :
    Mirrors σ keep pre S soft' (p >>= k) (q >>= l) := by
  intro c d halike hpre
  have hfirst := h halike hpre
  simp only [bind, EStateM.bind]
  cases hp : p c with
  | error e c' =>
    cases hq : q d with
    | error e' d' => exact .error
    | ok b d' => rw [hp, hq] at hfirst; cases hfirst
  | ok a c' =>
    cases hq : q d with
    | ok b d' =>
      rw [hp, hq] at hfirst
      cases hfirst with
      | ok hab ha halike' hkeeps =>
        exact (hk a b hab ha halike' trivial).of_keeps hkeeps
    | error e d' =>
      rw [hp, hq] at hfirst
      cases hfirst with
      | soft ha =>
        dsimp only
        cases hr : k a c' with
        | ok a' c'' => exact .soft (hsoft a ha hr)
        | error e' c'' => exact .error

theorem bind {k : α → Parse γ} {l : β → Parse δ} (h : Mirrors σ keep pre R never p q)
    (hk : ∀ a b, R a b → Mirrors σ keep anywhere S soft' (k a) (l b)) :
    Mirrors σ keep pre S soft' (p >>= k) (q >>= l) :=
  h.bindSoft (fun a b hab _ => hk a b hab) fun _ ha => ha.elim

/-- A mirrored reading is mirrored under fewer circumstances, and its results are related in more
ways. -/
theorem mono {pre' : Token → Prop} {R' : α → β → Prop} (h : Mirrors σ keep pre R soft p q)
    (hpre : ∀ t, pre' t → pre t) (hR : ∀ a b, R a b → R' a b) :
    Mirrors σ keep pre' R' soft p q := by
  intro c d halike hc
  have houtcome := h halike (hpre _ hc)
  generalize p c = r at houtcome
  generalize q d = s at houtcome
  cases houtcome with
  | ok hab hsoft halike' hkeeps => exact .ok (hR _ _ hab) hsoft halike' hkeeps
  | soft ha => exact .soft ha
  | error => exact .error

/-- What is mirrored anywhere is mirrored at any token. -/
theorem at_any (h : Mirrors σ keep anywhere R soft p q) : Mirrors σ keep pre R soft p q :=
  fun _ _ halike _ => h halike trivial

/-- What is mirrored at a kind of token is mirrored at a token of that kind. -/
theorem at_token {kind : TokenKind} {t : Token}
    (h : Mirrors σ keep (fun t => t.kind = kind) R soft p q)
    (ht : t.kind = kind) : Mirrors σ keep (· = t) R soft p q :=
  fun _ _ halike hc => h halike (hc ▸ ht)

/-- Whether barriers are kept may be left out. -/
theorem weaken (h : Mirrors σ True pre R soft p q) : Mirrors σ keep pre R soft p q := by
  intro c d halike hc
  have houtcome := h halike hc
  generalize p c = r at houtcome
  generalize q d = s at houtcome
  cases houtcome with
  | ok hab hsoft halike' hkeeps => exact .ok hab hsoft halike' fun _ => hkeeps trivial
  | soft ha => exact .soft ha
  | error => exact .error

/-- Only what the two readings give where they succeed is compared. -/
theorem congr_ok {p' : Parse α} {q' : Parse β} (h : Mirrors σ keep pre R soft p q)
    (hp : ∀ c a c', p' c = .ok a c' ↔ p c = .ok a c')
    (hq : ∀ c b c', q' c = .ok b c' ↔ q c = .ok b c') : Mirrors σ keep pre R soft p' q' := by
  intro c d halike hc
  have houtcome := h halike hc
  cases hp' : p' c with
  | ok a c' =>
    rw [(hp c a c').mp hp'] at houtcome
    cases hq' : q' d with
    | ok b d' =>
      rw [(hq d b d').mp hq'] at houtcome
      exact houtcome
    | error e' d' =>
      cases hq'' : q d with
      | ok b d'' =>
        rw [(hq d b d'').mpr hq''] at hq'
        cases hq'
      | error e'' d'' =>
        rw [hq''] at houtcome
        cases houtcome with
        | soft ha => exact .soft ha
  | error e c' =>
    cases hq' : q' d with
    | ok b d' =>
      rw [(hq d b d').mp hq'] at houtcome
      cases hp'' : p c with
      | ok a c'' =>
        rw [(hp c a c'').mpr hp''] at hp'
        cases hp'
      | error e'' c'' =>
        rw [hp''] at houtcome
        cases houtcome
    | error e' d' => exact .error

theorem ite {P Q : Prop} [Decidable P] [Decidable Q] (hPQ : P ↔ Q) {p' : Parse α} {q' : Parse β}
    (h : P → Mirrors σ keep pre R soft p q) (h' : ¬ P → Mirrors σ keep pre R soft p' q') :
    Mirrors σ keep pre R soft (if P then p else p') (if Q then q else q') := by
  by_cases hP : P
  · rw [if_pos hP, if_pos (hPQ.mp hP)]
    exact h hP
  · rw [if_neg hP, if_neg (hPQ.not.mp hP)]
    exact h' hP

theorem fail (hp : Fails p) (hq : Fails q) : Mirrors σ keep pre R soft p q := by
  intro c d _ _
  obtain ⟨_, _, hp⟩ := hp c
  obtain ⟨_, _, hq⟩ := hq d
  rw [hp, hq]
  exact .error

/-! ### Looking -/

variable {k : Token → Parse α} {l : Token → Parse β}

theorem peek (h : ∀ t, pre t → t.IsPlain →
      Mirrors σ keep (· = t) R soft (k t) (l (t.rename σ))) :
    Mirrors σ keep pre R soft (Parse.peek >>= k) (Parse.peek >>= l) := by
  intro c d halike hpre
  have hrun := h c.peek hpre halike.isPlain_peek halike rfl
  rw [← halike.peek] at hrun
  exact hrun

theorem kind {k : TokenKind → Parse α} {l : TokenKind → Parse β}
    (h : ∀ t, pre t → Mirrors σ keep (· = t) R soft (k t.kind) (l t.kind)) :
    Mirrors σ keep pre R soft (Parse.kind >>= k) (Parse.kind >>= l) := by
  intro c d halike hpre
  show Outcome σ keep c R soft (k c.peek.kind c) (l d.peek.kind d)
  rw [halike.peek, Token.kind_rename]
  exact h c.peek hpre halike rfl

theorem atKind (kind : TokenKind) :
    Mirrors σ keep pre Eq never (at? kind) (at? kind) :=
  peek fun t _ _ => by
    rw [Token.kind_rename]
    exact pure rfl id

theorem kindAt (distance : Nat) {k : TokenKind → Parse α} {l : TokenKind → Parse β}
    (h : ∀ kind, Mirrors σ keep pre R soft (k kind) (l kind)) :
    Mirrors σ keep pre R soft (Parse.kindAt distance >>= k) (Parse.kindAt distance >>= l) := by
  intro c d halike hpre
  show Outcome σ keep c R soft (k (c.peekAt distance).kind c) (l (d.peekAt distance).kind d)
  rw [halike.kind_peekAt]
  exact h _ halike hpre

/-- The choice between two readings by the kind of the token at the cursor. -/
theorem ifAt (kind : TokenKind) {p' : Parse α} {q' : Parse β}
    (h : Mirrors σ keep (fun t => t.kind = kind) R soft p q)
    (h' : Mirrors σ keep pre R soft p' q') :
    Mirrors σ keep pre R soft (at? kind >>= fun b => if b then p else p')
      (at? kind >>= fun b => if b then q else q') := by
  intro c d halike hpre
  show Outcome σ keep c R soft ((if c.peek.kind == kind then p else p') c)
    ((if d.peek.kind == kind then q else q') d)
  rw [halike.peek, Token.kind_rename]
  by_cases hkind : c.peek.kind = kind
  · rw [if_pos (beq_iff_eq.mpr hkind), if_pos (beq_iff_eq.mpr hkind)]
    exact h halike hkind
  · rw [if_neg (by simpa using hkind), if_neg (by simpa using hkind)]
    exact h' halike hpre

theorem spanFrom (start : Position) {k : Span → Parse α} {l : Span → Parse β}
    (h : ∀ span, Mirrors σ keep pre R soft (k span) (l span)) :
    Mirrors σ keep pre R soft (Parse.spanFrom start >>= k) (Parse.spanFrom start >>= l) := by
  intro c d halike hpre
  show Outcome σ keep c R soft (k (c.spanFrom start) c) (l (d.spanFrom start) d)
  rw [halike.spanFrom]
  exact h _ halike hpre

/-! ### Moving -/

theorem next (hopen : keep → ∀ t, pre t → t.kind.isOpen)
    (h : ∀ t, pre t → t.IsPlain → Mirrors σ keep anywhere R soft (k t) (l (t.rename σ))) :
    Mirrors σ keep pre R soft (Parse.next >>= k) (Parse.next >>= l) := by
  intro c d halike hpre
  show Outcome σ keep c R soft (k c.peek c.advance) (l d.peek d.advance)
  rw [halike.peek]
  exact (h c.peek hpre halike.isPlain_peek halike.advance trivial).of_keeps fun hkeep =>
    Cursor.keeps_advance (hopen hkeep _ hpre)

theorem accept (kind : TokenKind) (hopen : keep → kind.isOpen) :
    Mirrors σ keep pre Eq never (Parse.accept kind) (Parse.accept kind) := by
  refine ifAt kind (next (fun hkeep t ht => ?_) fun t _ _ => pure rfl id) (pure rfl id)
  rw [ht]
  exact hopen hkeep

/-- The choice between two readings by a test. -/
theorem test {b : Parse Bool} {p' : Parse α} {q' : Parse β}
    (hb : Mirrors σ keep pre Eq never b b) (h : Mirrors σ keep anywhere R soft p q)
    (h' : Mirrors σ keep anywhere R soft p' q') :
    Mirrors σ keep pre R soft (b >>= fun b => if b then p else p')
      (b >>= fun b => if b then q else q') := by
  refine hb.bind ?_
  rintro b _ rfl
  exact ite .rfl (fun _ => h) (fun _ => h')

/-- A token is taken if it is of a kind and another reading follows then. -/
theorem accept_bind {kind : TokenKind} {p p' : Parse α} :
    (Parse.accept kind >>= fun b => if b then p else p') =
      at? kind >>= fun b => if b then Parse.next >>= fun _ => p else p' := by
  rw [Parse.accept, bind_assoc]
  congr
  funext b
  cases b <;> simp

/-- A token of a kind may be taken if no barrier begins with it. -/
theorem taking {kind : TokenKind} (h : kind.isOpen) :
    keep → ∀ t : Token, t.kind = kind → t.kind.isOpen :=
  fun _ _ ht => ht ▸ h

/-- The choice between two readings by whether a token can be taken. -/
theorem ifAccept (kind : TokenKind) (hopen : keep → kind.isOpen) {p' : Parse α} {q' : Parse β}
    (h : Mirrors σ keep anywhere R soft p q) (h' : Mirrors σ keep pre R soft p' q') :
    Mirrors σ keep pre R soft (Parse.accept kind >>= fun b => if b then p else p')
      (Parse.accept kind >>= fun b => if b then q else q') := by
  rw [accept_bind, accept_bind]
  exact ifAt kind (next (fun hkeep t ht => ht ▸ hopen hkeep) fun _ _ _ => h) h'

/-- A colon is taken in front of a reading that fails at the end of a line. -/
theorem colon (hneeds : NeedsToken p) (h : Mirrors σ keep anywhere R soft p q) :
    Mirrors σ keep (fun t => t.kind = .colon) R soft (Parse.next >>= fun _ => p)
      (Parse.next >>= fun _ => q) := by
  intro c d halike hcolon
  have hrun := h halike.advance trivial
  show Outcome σ keep c R soft (p c.advance) (q d.advance)
  generalize hr : p c.advance = r at hrun
  generalize q d.advance = s at hrun
  cases hrun with
  | ok hab hsoft halike' hkeeps =>
    refine .ok hab hsoft halike' fun hkeep => Cursor.Keeps.trans ?_ (hkeeps hkeep)
    refine Cursor.keeps_advance_colon hcolon fun hnewline => ?_
    obtain ⟨_, _, herror⟩ := hneeds _ hnewline
    rw [herror] at hr
    cases hr
  | soft ha => exact .soft ha
  | error => exact .error

theorem ifColon {p' : Parse α} {q' : Parse β} (hneeds : NeedsToken p)
    (h : Mirrors σ keep anywhere R soft p q) (h' : Mirrors σ keep pre R soft p' q') :
    Mirrors σ keep pre R soft (Parse.accept .colon >>= fun b => if b then p else p')
      (Parse.accept .colon >>= fun b => if b then q else q') := by
  rw [accept_bind, accept_bind]
  exact ifAt .colon (colon hneeds h) h'

/-- Two tokens are taken if no barrier begins at either. -/
theorem nextTwo {c d : Cursor} (halike : c.Alike σ d) (hfirst : keep → c.peek.kind.isOpen)
    (hsecond : (c.peekAt 1).kind.isOpen)
    (h : Mirrors σ keep anywhere R soft (k c.peek) (l (c.peek.rename σ))) :
    Outcome σ keep c R soft ((Parse.next >>= fun t => Parse.next >>= fun _ => k t) c)
      ((Parse.next >>= fun t => Parse.next >>= fun _ => l t) d) := by
  rw [← c.peek_advance] at hsecond
  show Outcome σ keep c R soft (k c.peek c.advance.advance) (l d.peek d.advance.advance)
  rw [halike.peek]
  refine .of_keeps (fun hkeep => Cursor.keeps_advance (hfirst hkeep)) ?_
  refine .of_keeps (fun _ => Cursor.keeps_advance hsecond) ?_
  exact h halike.advance.advance trivial

/-- A token is taken together with one behind it if that is of a given kind. -/
theorem ifFollowed {second : TokenKind} (hopen : keep → ∀ t, pre t → t.kind.isOpen)
    (hsecond : second.isOpen) {p' : Parse α} {q' : Parse β}
    (h : ∀ t, pre t → t.IsPlain → Mirrors σ keep anywhere R soft (k t) (l (t.rename σ)))
    (h' : Mirrors σ keep pre R soft p' q') :
    Mirrors σ keep pre R soft
      (Parse.kindAt 1 >>= fun y =>
        if y == second then Parse.next >>= fun t => Parse.next >>= fun _ => k t else p')
      (Parse.kindAt 1 >>= fun y =>
        if y == second then Parse.next >>= fun t => Parse.next >>= fun _ => l t else q') := by
  intro c d halike hpre
  show Outcome σ keep c R soft ((if (c.peekAt 1).kind == second then _ else p') c)
    ((if (d.peekAt 1).kind == second then _ else q') d)
  rw [halike.kind_peekAt]
  split
  · next hkind =>
    exact nextTwo halike (fun hkeep => hopen hkeep _ hpre) (beq_iff_eq.mp hkind ▸ hsecond)
      (h _ hpre halike.isPlain_peek)
  · exact h' halike hpre

/-- Two tokens of given kinds are taken if they stand at the cursor. -/
theorem ifPair {first second : TokenKind} (hfirst : first.isOpen) (hsecond : second.isOpen)
    {p' : Parse α} {q' : Parse β}
    (h : ∀ t, pre t → t.kind = first → t.IsPlain →
      Mirrors σ keep anywhere R soft (k t) (l (t.rename σ)))
    (h' : Mirrors σ keep pre R soft p' q') :
    Mirrors σ keep pre R soft
      (at? first >>= fun x => Parse.kindAt 1 >>= fun y =>
        if x && y == second then Parse.next >>= fun t => Parse.next >>= fun _ => k t else p')
      (at? first >>= fun x => Parse.kindAt 1 >>= fun y =>
        if x && y == second then Parse.next >>= fun t => Parse.next >>= fun _ => l t else q') := by
  intro c d halike hpre
  show Outcome σ keep c R soft
    ((if c.peek.kind == first && (c.peekAt 1).kind == second then _ else p') c)
    ((if d.peek.kind == first && (d.peekAt 1).kind == second then _ else q') d)
  rw [halike.peek, Token.kind_rename, halike.kind_peekAt]
  split
  · next hkinds =>
    simp only [Bool.and_eq_true, beq_iff_eq] at hkinds
    exact nextTwo halike (fun _ => hkinds.1 ▸ hfirst) (hkinds.2 ▸ hsecond)
      (h _ hpre hkinds.1 halike.isPlain_peek)
  · exact h' halike hpre

/-! ### Failing -/

end Mirrors

theorem fails_failAt (cause : SyntaxCause) (place : Position) (found : Bytes) :
    Fails (failAt cause place found : Parse α) := fun _ => ⟨_, _, rfl⟩

theorem fails_failAtToken (cause : SyntaxCause) (t : Token) :
    Fails (failAtToken cause t : Parse α) := fun _ => ⟨_, _, rfl⟩

theorem fails_failHere (cause : SyntaxCause) : Fails (failHere cause : Parse α) :=
  fun _ => ⟨_, _, rfl⟩

theorem fails_failAtSpan (cause : SyntaxCause) (span : Span) :
    Fails (failAtSpan cause span : Parse α) := fun _ => ⟨_, _, rfl⟩

namespace Mirrors

variable {σ : Bytes → Bytes} {keep : Prop} {pre : Token → Prop} {R : α → β → Prop}
  {S : γ → δ → Prop} {soft : α → Prop} {soft' : γ → Prop} {p : Parse α} {q : Parse β}

theorem failHere (cause : SyntaxCause) :
    Mirrors σ keep pre R soft (Parse.failHere cause) (Parse.failHere cause) :=
  fail (fails_failHere cause) (fails_failHere cause)

theorem failAtToken (cause : SyntaxCause) (t u : Token) :
    Mirrors σ keep pre R soft (Parse.failAtToken cause t) (Parse.failAtToken cause u) :=
  fail (fails_failAtToken cause t) (fails_failAtToken cause u)

theorem failAtSpan (cause cause' : SyntaxCause) (span span' : Span) :
    Mirrors σ keep pre R soft (Parse.failAtSpan cause span) (Parse.failAtSpan cause' span') :=
  fail (fails_failAtSpan cause span) (fails_failAtSpan cause' span')

theorem expect (what : Missing) (hopen : keep → what.kind.isOpen) :
    Mirrors σ keep pre (fun _ _ => True) never (Parse.expect what) (Parse.expect what) :=
  ifAccept what.kind hopen (pure trivial id) (failHere _)

/-- A colon that must stand at the cursor is taken in front of a reading that fails at the end of a
line. -/
theorem expectColon {what : Missing} (hwhat : what.kind = .colon) (hneeds : NeedsToken p)
    (h : Mirrors σ keep anywhere R soft p q) :
    Mirrors σ keep pre R soft (Parse.expect what >>= fun _ => p)
      (Parse.expect what >>= fun _ => q) := by
  have hexpect : ∀ {γ : Type} (r : Parse γ), (Parse.expect what >>= fun _ => r) =
        Parse.accept .colon >>= fun b =>
          if b then r else (Parse.failHere (.missing what) : Parse Unit) >>= fun _ => r := by
    intro γ r
    rw [Parse.expect, bind_assoc, hwhat]
    congr
    funext b
    cases b <;> simp
  rw [hexpect, hexpect]
  exact ifColon hneeds h ((failHere (R := fun _ _ => True) _).bind fun _ _ _ => h)

/-- The token that is taken. -/
theorem next_token (hopen : keep → ∀ t, pre t → t.kind.isOpen) :
    Mirrors σ keep pre (fun t u => pre t ∧ t.IsPlain ∧ t.rename σ = u) never Parse.next
      Parse.next := by
  rw [← bind_pure Parse.next]
  exact next hopen fun t ht hplain => pure ⟨ht, hplain, rfl⟩ id

/-- An identifier that must stand at the cursor. -/
theorem expectName (role : NameRole) :
    Mirrors σ keep pre (fun t u => t.kind = .identifier ∧ t.IsPlain ∧ t.rename σ = u) never
      (Parse.expectName role) (Parse.expectName role) :=
  ifAt .identifier (next_token fun _ t ht => by rw [ht]; rfl) (failHere _)

theorem map {f : α → γ} {g : β → δ} (h : Mirrors σ keep pre R never p q)
    (hS : ∀ a b, R a b → S (f a) (g b)) : Mirrors σ keep pre S never (f <$> p) (g <$> q) := by
  rw [map_eq_pure_bind, map_eq_pure_bind]
  exact h.bind fun a b hab => pure (hS a b hab) id

/-- A value that is read, where another reading would go on without one. -/
theorem present {f : α → β} {k : Option α → Parse γ} {l : Option β → Parse δ}
    (h : Mirrors σ keep pre (Becomes f) never p q)
    (hk : ∀ o, Mirrors σ keep anywhere S soft' (k o) (l (o.map f))) :
    Mirrors σ keep pre S soft' (some <$> p >>= k) (some <$> q >>= l) := by
  refine (h.map (S := Becomes (Option.map f)) ?_).bind ?_
  · rintro a _ rfl
    rfl
  · rintro o _ rfl
    exact hk o

/-- A value that is read if a test holds. -/
theorem optionally {f : α → β} {b : Parse Bool} {k : Option α → Parse γ} {l : Option β → Parse δ}
    (hb : Mirrors σ keep pre Eq never b b) (h : Mirrors σ keep anywhere (Becomes f) never p q)
    (hk : ∀ o, Mirrors σ keep anywhere S soft' (k o) (l (o.map f))) :
    Mirrors σ keep pre S soft'
      (b >>= fun b => if b then some <$> p >>= k else Pure.pure none >>= k)
      (b >>= fun b => if b then some <$> q >>= l else Pure.pure none >>= l) :=
  test hb (present h hk) (hk none)

/-- An item that is read behind a word. -/
theorem behind {f : α → β} (word : TokenKind) (hopen : keep → word.isOpen)
    (h : Mirrors σ keep anywhere (Becomes f) never p q) :
    Mirrors σ keep pre (Becomes (Option.map f)) never
      (Parse.accept word >>= fun b => if b then p >>= fun a =>
      Pure.pure (some a) else Pure.pure none)
      (Parse.accept word >>= fun b =>
        if b then q >>= fun a => Pure.pure (some a) else Pure.pure none) := by
  refine ifAccept word hopen (h.bind ?_) (pure rfl id)
  rintro a _ rfl
  exact pure rfl id

/-! ### Spans -/

theorem exprFrom {start start' : Position} {shape shape' : Expr.Shape} (hstart : start' = start)
    (hshape : shape.rename σ = shape') :
    Mirrors σ keep pre (Becomes (Expr.rename σ)) never (Parse.exprFrom start shape)
      (Parse.exprFrom start' shape') := by
  subst hstart hshape
  exact spanFrom start' fun span => pure rfl id

/-! ### Repeating -/

/-- The result of a step of a loop, renamed. -/
def mapStep {ι κ : Type} (f : ι → κ) : ForInStep ι → ForInStep κ
  | .done s => .done (f s)
  | .yield s => .yield (f s)

/-- A loop is mirrored if each step is, and if a soft value stays soft. -/
theorem iterateSoft {f : ι → κ} {soft : ι → Prop} {step : ι → Parse (ForInStep ι)}
    {step' : κ → Parse (ForInStep κ)}
    (h : ∀ s, ¬ soft s → Mirrors σ keep anywhere (Becomes (mapStep f)) (fun r => soft r.value)
      (step s) (step' (f s)))
    (hsoft : ∀ s, soft s → Yields (fun r => soft r.value) (step s)) {s : ι} (hs : ¬ soft s) :
    Mirrors σ keep pre (Becomes f) soft (Parse.iterate step s)
      (Parse.iterate step' (f s)) := by
  -- Once soft, the first loop may run differently from the second: only softness is kept.
  have hkeep : ∀ (limit : Nat) (s : ι), soft s → Yields soft (iterateUpTo step limit s) := by
    intro limit
    induction limit with
    | zero =>
      intro s hs c a c' hrun
      cases hrun
    | succ limit ih =>
      intro s hs c a c' hrun
      obtain ⟨r, c₁, hstep, hrest⟩ := exists_of_bind_eq_ok hrun
      have hr := hsoft s hs hstep
      cases r with
      | done s' =>
        cases hrest
        exact hr
      | yield s' => exact ih s' hr hrest
  -- Until then the loops run in step, with the same limit.
  have hupto : ∀ (limit : Nat) (s : ι), ¬ soft s →
      Mirrors σ keep anywhere (Becomes f) soft (iterateUpTo step limit s)
        (iterateUpTo step' limit (f s)) := by
    intro limit
    induction limit with
    | zero => exact fun s hs => failHere .unending
    | succ limit ih =>
      intro s hs
      refine (h s hs).bindSoft ?_ fun r hr => ?_
      · rintro r _ rfl hr
        cases r with
        | done s' => exact pure rfl hr
        | yield s' => exact ih s' hr
      · cases r with
        | done s' =>
          intro c a c' hrun
          cases hrun
          exact hr
        | yield s' => exact hkeep limit s' hr
  intro c d halike _
  show Outcome σ keep c _ _ (iterateUpTo step (c.rest.length + 1) s c)
    (iterateUpTo step' (d.rest.length + 1) (f s) d)
  rw [halike.length_rest]
  exact hupto _ s hs halike trivial

theorem iterate {f : ι → κ} {step : ι → Parse (ForInStep ι)} {step' : κ → Parse (ForInStep κ)}
    (h : ∀ s, Mirrors σ keep anywhere (Becomes (mapStep f)) never (step s) (step' (f s)))
    (s : ι) :
    Mirrors σ keep pre (Becomes f) never (Parse.iterate step s)
      (Parse.iterate step' (f s)) :=
  iterateSoft (fun s _ => h s) (fun _ hs => hs.elim) id

theorem map_eq_of_forall₂ {f : α → β} {l : List α} {l' : List β}
    (h : List.Forall₂ (Becomes f) l l') : l.map f = l' := by
  rw [← List.forall₂_eq_eq_eq, List.forall₂_map_left_iff]
  exact h

/-- Collected items are mirrored if each item is. -/
theorem collectRel {item : Parse (Option α)} {item' : Parse (Option β)}
    (h : Mirrors σ keep anywhere (Option.Rel R) (fun o => ∃ a ∈ o, soft a) item item') :
    Mirrors σ keep pre (List.Forall₂ R) (fun l => ∃ a ∈ l, soft a) (Parse.collect item)
      (Parse.collect item') := by
  have hupto : ∀ limit : Nat,
      Mirrors σ keep anywhere (List.Forall₂ R) (fun l => ∃ a ∈ l, soft a)
        (collectUpTo item limit) (collectUpTo item' limit) := by
    intro limit
    induction limit with
    | zero => exact failHere .unending
    | succ limit ih =>
      refine h.bindSoft ?_ ?_
      · rintro _ _ (hab | _) ha
        · refine ih.bindSoft ?_ ?_
          · intro l l' hl hsoft
            exact pure (.cons hab hl) (by simpa using ⟨by simpa using ha, by simpa using hsoft⟩)
          · intro l hl c l' c' hrun
            cases hrun
            obtain ⟨b, hb, hsoft⟩ := hl
            exact ⟨b, List.mem_cons_of_mem _ hb, hsoft⟩
        · exact pure .nil (by simp)
      · rintro (_ | a) ⟨b, hb, hsoft⟩ c l c' hrun
        · cases hb
        · obtain ⟨rest, c₁, -, hrest⟩ := exists_of_bind_eq_ok hrun
          cases hrest
          obtain rfl : a = b := Option.some.inj hb
          exact ⟨a, List.mem_cons_self, hsoft⟩
  intro c d halike _
  show Outcome σ keep c _ _ (collectUpTo item (c.rest.length + 1) c)
    (collectUpTo item' (d.rest.length + 1) d)
  rw [halike.length_rest]
  exact hupto _ halike trivial

theorem collectSoft {f : α → β} {item : Parse (Option α)} {item' : Parse (Option β)}
    (h : Mirrors σ keep anywhere (Becomes (Option.map f)) (fun o => ∃ a ∈ o, soft a) item item') :
    Mirrors σ keep pre (Becomes (List.map f)) (fun l => ∃ a ∈ l, soft a) (Parse.collect item)
      (Parse.collect item') := by
  have hitem : Mirrors σ keep anywhere (Option.Rel (Becomes f)) (fun o => ∃ a ∈ o, soft a) item
      item' := by
    refine h.mono (fun _ => id) ?_
    rintro (_ | a) _ rfl
    · exact .none
    · exact .some rfl
  exact (collectRel hitem).mono (fun _ => id) fun _ _ => map_eq_of_forall₂

/-- Results that are soft in one sense are so in another that means the same. -/
theorem congr_soft {soft₁ soft₂ : α → Prop} (h : Mirrors σ keep pre R soft₁ p q)
    (hsoft : ∀ a, soft₁ a ↔ soft₂ a) : Mirrors σ keep pre R soft₂ p q :=
  (funext fun a => propext (hsoft a) : soft₁ = soft₂) ▸ h

theorem collect {f : α → β} {item : Parse (Option α)} {item' : Parse (Option β)}
    (h : Mirrors σ keep anywhere (Becomes (Option.map f)) never item item') :
    Mirrors σ keep pre (Becomes (List.map f)) never (Parse.collect item)
      (Parse.collect item') := by
  have hitem : Mirrors σ keep anywhere (Becomes (Option.map f)) (fun o => ∃ a ∈ o, never a) item
      item' := h.congr_soft (by simp [never])
  exact (collectSoft hitem).congr_soft (by simp [never])

/-- A list of readings is mirrored one by one. -/
theorem mapM {f : ι → κ} {g : α → β} {read : ι → Parse α} {read' : κ → Parse β}
    (h : ∀ i, Mirrors σ keep anywhere (Becomes g) never (read i) (read' (f i)))
    (is : List ι) :
    Mirrors σ keep anywhere (Becomes (List.map g)) never (is.mapM read)
      ((is.map f).mapM read') := by
  induction is with
  | nil => exact pure rfl id
  | cons i is ih =>
    rw [List.map_cons, List.mapM_cons, List.mapM_cons]
    refine (h i).bind ?_
    rintro a _ rfl
    refine ih.bind ?_
    rintro l _ rfl
    exact pure rfl id

/-! ### Trying -/

/-- A reading that is tried is mirrored if it is mirrored where it is tried. -/
theorem attempt {f : α → β} {p : Parse (Option α)} {q : Parse (Option β)}
    (h : Mirrors σ keep pre (Becomes (Option.map f)) never p q) :
    Mirrors σ keep pre (Becomes (Option.map f)) never (Parse.attempt p) (Parse.attempt q) := by
  intro c d halike hpre
  have hrun := @h { c with attempts := c.attempts + 1 } { d with attempts := d.attempts + 1 }
    ⟨halike.before, halike.rest, halike.final, halike.ends, halike.plain⟩ hpre
  simp only [Parse.attempt]
  generalize p { c with attempts := c.attempts + 1 } = r at hrun
  generalize q { d with attempts := d.attempts + 1 } = s at hrun
  cases hrun with
  | @ok o _ c' d' hab _ halike' hkeeps =>
    subst hab
    cases o with
    | none => exact .ok rfl id halike fun _ => .refl c
    | some a =>
      exact .ok rfl id
        ⟨halike'.before, halike'.rest, halike'.final, halike'.ends, halike'.plain⟩ fun hkeep =>
        ⟨(hkeeps hkeep).forward, (hkeeps hkeep).barrier⟩
  | soft ha => exact ha.elim
  | error => exact .ok rfl id halike fun _ => .refl c

end Mirrors

/-! ## Readings that fail at the tokens of a kind -/

namespace FailsAt

variable {kind : TokenKind} {p p' : Parse α} {k : α → Parse β}

theorem of_fails (h : Fails p) : FailsAt kind p := fun c _ => h c

theorem bind (h : FailsAt kind p) : FailsAt kind (p >>= k) := by
  intro c hc
  obtain ⟨e, c', hp⟩ := h c hc
  exact ⟨e, c', by simp only [Bind.bind, EStateM.bind, hp]⟩

theorem map {f : α → β} (h : FailsAt kind p) : FailsAt kind (f <$> p) := by
  rw [map_eq_pure_bind]
  exact h.bind

theorem atKind {other : TokenKind} {k : Bool → Parse α} (hother : other ≠ kind)
    (h : FailsAt kind (k false)) : FailsAt kind (at? other >>= k) := by
  intro c hc
  show ∃ e c', k (c.peek.kind == other) c = .error e c'
  rw [beq_eq_false_iff_ne.mpr (by rw [hc]; exact hother.symm)]
  exact h c hc

theorem ifAt {other : TokenKind} (hother : other ≠ kind) (h : FailsAt kind p') :
    FailsAt kind (at? other >>= fun b => if b then p else p') :=
  atKind hother h

theorem peek {k : Token → Parse α} (h : ∀ t, t.kind = kind → FailsAt kind (k t)) :
    FailsAt kind (Parse.peek >>= k) :=
  fun c hc => h c.peek hc c hc

theorem ofKind {k : TokenKind → Parse α} (h : FailsAt kind (k kind)) :
    FailsAt kind (Parse.kind >>= k) := by
  intro c hc
  show ∃ e c', k c.peek.kind c = .error e c'
  rw [hc]
  exact h c hc

end FailsAt

end Parse

end SyntaxTree
