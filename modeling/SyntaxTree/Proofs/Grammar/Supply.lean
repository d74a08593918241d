import SyntaxTree.Proofs.Ending.Expression
import SyntaxTree.Proofs.Render.Demand

/-
# Tokens supply what expressions demand

A reading takes tokens, and what these supply covers what its result demands.  The count is kept as
an account: something has been paid before a reading, and what the reading takes is added to it.
Only the readings that lead to operators have results that demand anything; of all others it counts
that they move forward.
-/

namespace SyntaxTree

/-! ## Tokens ahead -/

namespace Cursor

variable {w : Weight} {c c' : Cursor}

/-- What the tokens ahead supply. -/
def ahead (w : Weight) (c : Cursor) : Nat := w.supply (c.rest.map Token.kind)

theorem MovesTo.ahead_le (h : c.MovesTo c') : c'.ahead w ≤ c.ahead w :=
  w.supply_le_of_suffix (h.forward.map Token.kind)

/-- A token that is taken no longer counts among those ahead. -/
theorem ahead_advance (hends : c.final.kind = .endOfInput) (h : c.peek.kind ≠ .endOfInput) :
    c.ahead w = w.ofNext c.peek.kind (c.advance.rest.map Token.kind) + c.advance.ahead w := by
  obtain ⟨_, before, rest, final, _⟩ := c
  cases rest with
  | nil => exact absurd hends h
  | cons t rest => rfl

/-- Only the tokens ahead of the end of the input are points. -/
theorem head?_rest_of_dot (hends : c.final.kind = .endOfInput) (h : c.peek.kind = .dot) :
    (c.rest.map Token.kind).head? = some .dot := by
  obtain ⟨_, before, rest, final, _⟩ := c
  cases rest with
  | nil =>
    change final.kind = .dot at h
    rw [hends] at h
    cases h
  | cons t rest => exact congrArg some h

end Cursor

/-- The strength of the expressions that are read within others. -/
def Goal.precedence : Goal → Precedence
  | .expression => .test
  | .disjunction => .or
  | .inversion => .not
  | .operand => .bitOr
  | .factor => .factor

namespace Parse

variable {α β σ : Type}

/-- Within bounds, and where the token at the cursor is as `pre` says, the tokens that a reading
takes cover what its result costs, together with what has been paid. -/
def Pays (w : Weight) (depth limit : Nat) (pre : Token → Prop) (paid : Nat) (p : Parse α)
    (cost : α → Nat) : Prop :=
  ∀ ⦃c a c'⦄, c.Within depth limit → pre c.peek → p c = .ok a c' →
    cost a + c'.ahead w ≤ paid + c.ahead w

/-- The expressions within a phrase are paid for. -/
def ReadingPays (w : Weight) (depth limit : Nat) (read : Reading) : Prop :=
  ∀ (g : Goal) {pre : Token → Prop} (paid : Nat),
    Pays w depth limit pre paid (read g) fun e => paid + e.demand w g.precedence

/-- A cursor behind a reading that ends is within the same bounds. -/
theorem Ends.move {depth limit : Nat} {pre : Token → Prop} {taken : α → Prop} {p : Parse α}
    {c c' : Cursor} {a : α} (h : Ends depth limit pre taken p) (hc : c.Within depth limit)
    (hpre : pre c.peek) (hrun : p c = .ok a c') :
    c.MovesTo c' ∧ (taken a → c'.rest.length < c.rest.length) := by
  have hsettles := h c hc hpre
  rwa [hrun] at hsettles

namespace Pays

variable {w : Weight} {depth limit paid : Nat} {pre : Token → Prop} {p p' : Parse α}
  {cost : α → Nat} {cost' : β → Nat} {f : α → Nat} {taken : α → Prop}

/-! ## Sequences -/

/-- A reading whose results cost no more than has been paid only has to move forward. -/
theorem of_ends (h : Ends depth limit pre taken p) (hcost : Yields (fun a => cost a ≤ paid) p) :
    Pays w depth limit pre paid p cost := by
  intro c a c' hc hpre hrun
  obtain ⟨hmove, -⟩ := h.move hc hpre hrun
  exact Nat.add_le_add (hcost hrun) hmove.ahead_le

theorem moves (h : Ends depth limit pre taken p) : Pays w depth limit pre paid p fun _ => paid :=
  of_ends h fun _ _ _ _ => Nat.le_refl paid

theorem mono (h : Pays w depth limit pre paid p f) (hcost : ∀ a, cost a ≤ f a) :
    Pays w depth limit pre paid p cost := by
  intro c a c' hc hpre hrun
  have hpays := h hc hpre hrun
  have hle := hcost a
  omega

/-- What is paid for at a place is paid for where less strength is demanded. -/
theorem looser {p : Parse Expr} {q q' : Precedence} (hle : q ≤ q')
    (h : Pays w depth limit pre paid p fun e => paid + e.demand w q') :
    Pays w depth limit pre paid p fun e => paid + e.demand w q :=
  h.mono fun e => Nat.add_le_add_left (e.demand_mono w hle) paid

/-- What has been paid may be more than is needed. -/
theorem more {paid' : Nat} (h : Pays w depth limit pre paid p cost) (hpaid : paid ≤ paid') :
    Pays w depth limit pre paid' p cost :=
  fun _ _ _ hc hpre hrun => Nat.le_trans (h hc hpre hrun) (Nat.add_le_add_right hpaid _)

theorem at_token {t : Token} (h : Pays w depth limit pre paid p cost) (ht : pre t) :
    Pays w depth limit (· = t) paid p cost :=
  fun _ _ _ hc hpeek => h hc (hpeek ▸ ht)

theorem pure {a : α} (h : cost a ≤ paid) : Pays w depth limit pre paid (pure a) cost := by
  intro c b c' _ _ hrun
  cases hrun
  exact Nat.add_le_add_right h _

theorem bind {k : α → Parse β} (he : Ends depth limit pre taken p)
    (hp : Pays w depth limit pre paid p f)
    (hk : ∀ a, Pays w depth limit anywhere (f a) (k a) cost') :
    Pays w depth limit pre paid (p >>= k) cost' := by
  intro c b c'' hc hpre hrun
  obtain ⟨a, c', hfirst, hrest⟩ := exists_of_bind_eq_ok hrun
  obtain ⟨hmove, -⟩ := he.move hc hpre hfirst
  exact Nat.le_trans (hk a (hc.move hmove) trivial hrest) (hp hc hpre hfirst)

/-- Behind a reading that takes a token, expressions may be nested one level deeper. -/
theorem deeper {k : α → Parse β} (he : Ends depth (limit + 1) pre always p)
    (hp : Pays w depth (limit + 1) pre paid p f)
    (hk : ∀ a, Pays w depth limit anywhere (f a) (k a) cost') :
    Pays w depth (limit + 1) pre paid (p >>= k) cost' := by
  intro c b c'' hc hpre hrun
  obtain ⟨a, c', hfirst, hrest⟩ := exists_of_bind_eq_ok hrun
  obtain ⟨hmove, hlt⟩ := he.move hc hpre hfirst
  exact Nat.le_trans (hk a (hc.taken hmove (hlt trivial)) trivial hrest) (hp hc hpre hfirst)

/-- What comes first need not be paid for. -/
theorem after {k : α → Parse β} (he : Ends depth limit pre taken p)
    (hk : ∀ a, Pays w depth limit anywhere paid (k a) cost') :
    Pays w depth limit pre paid (p >>= k) cost' :=
  bind he (moves he) hk

theorem ite {b : Prop} [Decidable b] (h : b → Pays w depth limit pre paid p cost)
    (h' : ¬ b → Pays w depth limit pre paid p' cost) :
    Pays w depth limit pre paid (if b then p else p') cost := by
  split
  · exact h ‹_›
  · exact h' ‹_›

theorem of_fails (h : Fails p) : Pays w depth limit pre paid p cost := by
  intro c a c' _ _ hrun
  obtain ⟨_, _, herror⟩ := h c
  rw [herror] at hrun
  cases hrun

/-! ## Looking and taking -/

/-- What follows a look goes on from the same token. -/
theorem look {b : Parse β} {k : β → Parse α} (hb : Looks b)
    (hk : ∀ x, Pays w depth limit pre paid (k x) cost) :
    Pays w depth limit pre paid (b >>= k) cost := by
  intro c a c' hc hpre hrun
  obtain ⟨x, hx⟩ := hb c
  rw [bind_ok hx] at hrun
  exact hk x hc hpre hrun

theorem peek {k : Token → Parse α}
    (h : ∀ t, pre t → Pays w depth limit (· = t) paid (k t) cost) :
    Pays w depth limit pre paid (Parse.peek >>= k) cost :=
  fun c _ _ hc hpre hrun => h c.peek hpre hc rfl hrun

theorem kind {k : TokenKind → Parse α}
    (h : ∀ t, pre t → Pays w depth limit (· = t) paid (k t.kind) cost) :
    Pays w depth limit pre paid (Parse.kind >>= k) cost :=
  fun c _ _ hc hpre hrun => h c.peek hpre hc rfl hrun

/-- The choice between two readings by the kind of the token at the cursor. -/
theorem ifAt (kind : TokenKind) (h : Pays w depth limit (fun t => t.kind = kind) paid p cost)
    (h' : Pays w depth limit pre paid p' cost) :
    Pays w depth limit pre paid (at? kind >>= fun b => if b then p else p') cost := by
  intro c a c' hc hpre hrun
  rw [bind_ok (at?_peek kind c)] at hrun
  split at hrun
  · next hkind => exact h hc (beq_iff_eq.mp hkind) hrun
  · exact h' hc hpre hrun

/-- The choice between two readings by the kinds of the token at the cursor and the next one. -/
theorem ifFollowed {first second : TokenKind}
    (h : Pays w depth limit (fun t => t.kind = first) paid p cost)
    (h' : Pays w depth limit pre paid p' cost) :
    Pays w depth limit pre paid
      (at? first >>= fun x => Parse.kindAt 1 >>= fun y => if x && y == second then p else p')
      cost := by
  intro c a c' hc hpre hrun
  change (if c.peek.kind == first && (c.peekAt 1).kind == second then p else p') c = .ok a c'
    at hrun
  split at hrun
  · next hkinds =>
    rw [Bool.and_eq_true, beq_iff_eq] at hkinds
    exact h hc hkinds.1 hrun
  · exact h' hc hpre hrun

/-- A token that is taken pays for what it counts. -/
theorem next {kind : TokenKind} (hkind : kind ≠ .endOfInput) :
    Pays w depth limit (fun t => t.kind = kind) paid Parse.next fun _ => paid + w.ofKind kind := by
  intro c t c' hc hpre hrun
  cases hrun
  have hahead := c.ahead_advance (w := w) hc.ends (by rw [hpre]; exact hkind)
  have hcounts := w.ofKind_le_ofNext c.peek.kind (c.advance.rest.map Token.kind)
  rw [hpre] at hahead hcounts
  show paid + w.ofKind kind + c.advance.ahead w ≤ paid + c.ahead w
  omega

/-- The choice between two readings by whether a token can be taken. -/
theorem ifAccept {kind : TokenKind} (hkind : kind ≠ .endOfInput)
    (h : Pays w depth limit anywhere (paid + w.ofKind kind) p cost)
    (h' : Pays w depth limit pre paid p' cost) :
    Pays w depth limit pre paid (Parse.accept kind >>= fun b => if b then p else p') cost := by
  rw [Mirrors.accept_bind]
  exact ifAt kind (bind (Ends.nextOf hkind) (next hkind) fun _ => h) h'

/-- The same where the kind of the token at the cursor is known. -/
theorem ifAcceptAt {kind kind' : TokenKind} (hkind : kind ≠ .endOfInput)
    (h : kind' = kind → Pays w depth limit anywhere (paid + w.ofKind kind) p cost)
    (h' : Pays w depth limit (fun t => t.kind = kind') paid p' cost) :
    Pays w depth limit (fun t => t.kind = kind') paid
      (Parse.accept kind >>= fun b => if b then p else p') cost := by
  by_cases heq : kind' = kind
  · exact ifAccept hkind (h heq) h'
  · intro c a c' hc hpre hrun
    have hother : c.peek.kind ≠ kind := by rwa [hpre]
    rw [Mirrors.accept_bind, bind_ok (at?_peek kind c), if_neg (by simpa using hother)] at hrun
    exact h' hc hpre hrun

theorem exprFrom {start : Position} {shape : Expr.Shape} {cost : Expr → Nat}
    (h : ∀ span, cost (.node span shape) ≤ paid) :
    Pays w depth limit pre paid (Parse.exprFrom start shape) cost := by
  intro c e c' _ _ hrun
  cases hrun
  exact Nat.add_le_add_right (h _) _

/-! ## Repeating -/

/-- A loop is paid for if each step is. -/
theorem iterate {step : σ → Parse (ForInStep σ)} {cost : σ → Nat}
    (he : ∀ s, Ends depth limit anywhere isYield (step s))
    (hstep : ∀ s, Pays w depth limit anywhere (cost s) (step s) fun r => cost r.value) (s : σ) :
    Pays w depth limit pre (cost s) (Parse.iterate step s) cost := by
  have hupto : ∀ (n : Nat) (s : σ),
      Pays w depth limit anywhere (cost s) (iterateUpTo step n s) cost := by
    intro n
    induction n with
    | zero => exact fun s => of_fails (fails_failHere _)
    | succ n ih =>
      refine fun s => bind (he s) (hstep s) fun r => ?_
      cases r with
      | done s' => exact pure (Nat.le_refl _)
      | yield s' => exact ih s'
  exact fun c a c' hc _ hrun => hupto (c.rest.length + 1) s hc trivial hrun

/-- Collected items are paid for if each one is. -/
theorem collect {item : Parse (Option α)} {cost : α → Nat} {total : List α → Nat}
    (hnil : total [] = 0) (hcons : ∀ a as, total (a :: as) = cost a + total as)
    (he : Ends depth limit anywhere isThere item)
    (hitem : ∀ paid, Pays w depth limit anywhere paid item fun o => paid + o.elim 0 cost)
    (paid : Nat) :
    Pays w depth limit pre paid (Parse.collect item) fun as => paid + total as := by
  have hupto : ∀ n paid : Nat,
      Pays w depth limit anywhere paid (collectUpTo item n) fun as => paid + total as := by
    intro n
    induction n with
    | zero => exact fun paid => of_fails (fails_failHere _)
    | succ n ih =>
      refine fun paid => bind he (hitem paid) fun o => ?_
      cases o with
      | none => exact pure (Nat.le_of_eq (by rw [hnil]; rfl))
      | some a =>
        intro c as c' hc _ hrun
        obtain ⟨rest, c₁, hrest, hrun⟩ := exists_of_bind_eq_ok hrun
        cases hrun
        have hpays := ih (paid + cost a) hc trivial hrest
        simp only [hcons, Option.elim] at hpays ⊢
        omega
  exact fun c a c' hc _ hrun => hupto (c.rest.length + 1) paid hc trivial hrun

end Pays

end Parse

end SyntaxTree
