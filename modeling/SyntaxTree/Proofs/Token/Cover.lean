import Mathlib.Data.List.Chain
import Mathlib.Data.List.TakeWhile
import SyntaxTree.Proofs.Token.Run

/-
# Tokens cover their source

The tokens of a source stand for disjoint parts of it, in the order of the source, and what lies
between these parts is blanks, line ends, comments and joins.  Each part is a lexeme of the source,
and lexemes follow one another without a gap.
-/

namespace SyntaxTree

/-! ## Parts of a source -/

/-- A part of a source, from the offset of its first byte to that behind its last byte. -/
structure Extent where
  start : Nat
  stop : Nat
  deriving DecidableEq, Repr

namespace Extent

/-- The bytes of a part. -/
def slice (source : Bytes) (e : Extent) : Bytes := (source.drop e.start).take (e.stop - e.start)

/-- The part of a source behind `front`. -/
def behind (front s : Bytes) : Extent := ⟨front.length, front.length + s.length⟩

/-- The byte at an offset lies in a part. -/
def Has (e : Extent) (k : Nat) : Prop := e.start ≤ k ∧ k < e.stop

/-- No byte lies in both parts. -/
def Apart (e e' : Extent) : Prop := e.stop ≤ e'.start ∨ e'.stop ≤ e.start

theorem slice_behind (front s rest : Bytes) :
    slice (front ++ (s ++ rest)) (behind front s) = s := by
  simp [slice, behind]

theorem drop_behind (front s rest : Bytes) :
    (front ++ (s ++ rest)).drop (behind front s).stop = rest := by
  rw [← List.append_assoc, show (behind front s).stop = (front ++ s).length by simp [behind]]
  exact List.drop_left

end Extent

/-- A piece of a source that stands for no token, in front of the rest of the source. -/
inductive IsFiller : (piece rest : Bytes) → Prop where
  | blank {piece rest : Bytes} (h : ∀ b ∈ piece, b.isBlank) : IsFiller piece rest
  | lineEnd {piece rest : Bytes} (h : ∀ b ∈ piece, b.isLineEnd) : IsFiller piece rest
  /-- A comment goes on to the end of its line or of the source. -/
  | comment {t rest : Bytes} (ht : ∀ b ∈ t, b.isLineEnd = false)
    (hrest : ∀ b ∈ rest.head?, b.isLineEnd) : IsFiller (ascii '#' :: t) rest
  /-- A backslash stands directly in front of a line end. -/
  | join {t rest : Bytes} (hne : t ≠ []) (ht : ∀ b ∈ t, b.isLineEnd) :
    IsFiller (Byte.backslash :: t) rest

namespace Lexeme

/-- What is passed over are the bytes of a class, and the rest begins with none of it. -/
theorem forall_mem_of_dropWhile {p : Byte → Bool} {t rest : Bytes}
    (h : (t ++ rest).dropWhile p = rest) :
    (∀ b ∈ t, p b) ∧ ∀ b ∈ rest.head?, p b = false := by
  have ht : (t ++ rest).takeWhile p = t := by
    have hsplit := List.takeWhile_append_dropWhile (p := p) (l := t ++ rest)
    rw [h] at hsplit
    exact List.append_cancel_right hsplit
  refine ⟨fun b hb => ?_, fun b hb => ?_⟩
  · rw [← ht] at hb
    exact List.mem_takeWhile_imp hb
  · have := List.head?_dropWhile_not p (t ++ rest)
    rw [h, Option.mem_def.mp hb] at this
    simpa using this

theorem forall_mem_of_afterLineEnd {b : Byte} {t rest : Bytes}
    (h : afterLineEnd b (t ++ rest) = rest) : ∀ c ∈ t, c.isLineEnd := by
  unfold afterLineEnd at h
  split at h
  · next hpair =>
    cases t with
    | nil => simp
    | cons c t =>
      obtain rfl : t = [] := by simpa using h
      obtain rfl : c = Byte.lineFeed := by simpa using hpair.2
      simp [Byte.isLineEnd]
  · obtain rfl : t = [] := by simpa using h
    simp

/-- A line end is made of bytes that end lines. -/
theorem isLineEnd_of_next {b : Byte} {t rest : Bytes}
    (h : next b (t ++ rest) = .ok (.lineEnd, rest)) :
    b :: t ≠ [] ∧ ∀ c ∈ b :: t, c.isLineEnd := by
  unfold next at h
  split at h
  · simp at h
  split at h
  · next hend =>
    obtain ⟨-, hrest⟩ := Prod.mk.inj (Except.ok.inj h)
    exact ⟨List.cons_ne_nil b t, List.forall_mem_cons.mpr ⟨hend, forall_mem_of_afterLineEnd hrest⟩⟩
  split at h
  · simp at h
  split at h
  · obtain ⟨rest', -, hrest⟩ := exists_of_map_eq_ok h
    simp at hrest
  · obtain ⟨⟨kind', rest'⟩, -, hrest⟩ := exists_of_map_eq_ok h
    simp at hrest

/-- A lexeme that is no token is a filler. -/
theorem isFiller_of_next {b : Byte} {t rest : Bytes} {kind : LexemeKind}
    (h : next b (t ++ rest) = .ok (kind, rest)) (hkind : ∀ k, kind ≠ .token k) :
    IsFiller (b :: t) rest := by
  unfold next at h
  split at h
  · next hblank =>
    obtain ⟨-, hrest⟩ := Prod.mk.inj (Except.ok.inj h)
    exact .blank (List.forall_mem_cons.mpr ⟨hblank, (forall_mem_of_dropWhile hrest).1⟩)
  split at h
  · next hend =>
    obtain ⟨-, hrest⟩ := Prod.mk.inj (Except.ok.inj h)
    exact .lineEnd (List.forall_mem_cons.mpr ⟨hend, forall_mem_of_afterLineEnd hrest⟩)
  split at h
  · next hmark =>
    obtain ⟨-, hrest⟩ := Prod.mk.inj (Except.ok.inj h)
    obtain ⟨ht, hhead⟩ := forall_mem_of_dropWhile hrest
    rw [hmark]
    exact .comment (fun c hc => by simpa using ht c hc) (fun c hc => by simpa using hhead c hc)
  split at h
  · next hbackslash =>
    obtain ⟨rest', hjoin, hrest⟩ := exists_of_map_eq_ok h
    obtain rfl : rest' = rest := (Prod.mk.inj hrest).2
    rw [hbackslash]
    unfold afterJoin at hjoin
    split at hjoin
    · simp at hjoin
    · next c s hs =>
      split at hjoin
      · next hend =>
        split at hjoin
        · simp at hjoin
        · have hafter : afterLineEnd c s = rest' := Except.ok.inj hjoin
          cases t with
          | nil =>
            -- The line end is not part of the rest, which is no longer than what stands behind it.
            have hlength := (suffix_afterLineEnd c s).length_le
            have hrest : rest'.length = s.length + 1 := congrArg List.length hs
            rw [hafter] at hlength
            omega
          | cons c' t =>
            obtain ⟨rfl, rfl⟩ := List.cons.inj hs
            exact .join (List.cons_ne_nil _ _)
              (List.forall_mem_cons.mpr ⟨hend, forall_mem_of_afterLineEnd hafter⟩)
      · simp at hjoin
  · obtain ⟨⟨kind', rest'⟩, -, hrest⟩ := exists_of_map_eq_ok h
    exact absurd (Prod.mk.inj hrest).1.symm (hkind kind')

end Lexeme

/-! ## The parts of the tokens -/

/-- A token that stands for a part of the source. -/
def Token.isPlaced (t : Token) : Bool := !t.kind.isLayout && t.kind != .endOfInput

/-- The tokens stand, in order, for the given parts of the source behind an offset, and fillers make
up what is left of it. -/
structure Covers (source : Bytes) (low : Nat) (tokens : List Token) (extents : List Extent) :
    Prop where
  text : List.Forall₂ (fun t e => t.text = Layout.tokenText t.kind (e.slice source)) tokens extents
  nonempty : ∀ e ∈ extents, e.start < e.stop ∧ e.stop ≤ source.length
  low_le : ∀ e ∈ extents, low ≤ e.start
  ordered : extents.Pairwise fun e e' => e.stop ≤ e'.start
  rest : ∀ k, low ≤ k → k < source.length → (∀ e ∈ extents, ¬ e.Has k) →
    ∃ piece : Extent, piece.Has k ∧ low ≤ piece.start ∧ (∀ e ∈ extents, e.Apart piece) ∧
      IsFiller (piece.slice source) (source.drop piece.stop)

namespace Covers

/-- A filler in front of a part of the source that is covered. -/
theorem filler {front s rest : Bytes} {tokens : List Token} {extents : List Extent}
    (hs : IsFiller s rest)
    (h : Covers (front ++ (s ++ rest)) (front ++ s).length tokens extents) :
    Covers (front ++ (s ++ rest)) front.length tokens extents := by
  have hlow : front.length ≤ (front ++ s).length := by simp
  refine ⟨h.text, h.nonempty, fun e he => Nat.le_trans hlow (h.low_le e he), h.ordered, ?_⟩
  intro k hk hlength hout
  by_cases hbehind : (front ++ s).length ≤ k
  · obtain ⟨piece, hhas, hpiece, hrest⟩ := h.rest k hbehind hlength hout
    exact ⟨piece, hhas, Nat.le_trans hlow hpiece, hrest⟩
  · rw [List.length_append] at hbehind
    refine ⟨.behind front s, ⟨hk, by simpa [Extent.behind] using hbehind⟩, Nat.le.refl,
      fun e he => .inr ?_, ?_⟩
    · simpa [Extent.behind] using h.low_le e he
    · rwa [Extent.slice_behind, Extent.drop_behind]

/-- A token in front of a part of the source that is covered. -/
theorem token {front s rest : Bytes} {tokens : List Token} {extents : List Extent} {t : Token}
    (hs : s ≠ []) (ht : t.text = Layout.tokenText t.kind s)
    (h : Covers (front ++ (s ++ rest)) (front ++ s).length tokens extents) :
    Covers (front ++ (s ++ rest)) front.length (t :: tokens) (.behind front s :: extents) := by
  have hlow : front.length ≤ (front ++ s).length := by simp
  have hstop : (Extent.behind front s).stop = (front ++ s).length := by simp [Extent.behind]
  have hpos := List.length_pos_of_ne_nil hs
  constructor
  case text => exact .cons (by rw [Extent.slice_behind, ht]) h.text
  case nonempty =>
    refine List.forall_mem_cons.mpr ⟨⟨?_, ?_⟩, h.nonempty⟩
    · simpa [Extent.behind] using hpos
    · simp [Extent.behind]
  case low_le =>
    exact List.forall_mem_cons.mpr ⟨Nat.le.refl, fun e he => Nat.le_trans hlow (h.low_le e he)⟩
  case ordered =>
    exact List.pairwise_cons.mpr ⟨fun e he => hstop ▸ h.low_le e he, h.ordered⟩
  case rest =>
    intro k hk hlength hout
    obtain ⟨hfirst, hout⟩ := List.forall_mem_cons.mp hout
    have hbehind : (front ++ s).length ≤ k := by
      rw [← hstop]
      exact Nat.le_of_not_lt fun hlt => hfirst ⟨hk, hlt⟩
    obtain ⟨piece, hhas, hpiece, hapart, hrest⟩ := h.rest k hbehind hlength hout
    refine ⟨piece, hhas, Nat.le_trans hlow hpiece, List.forall_mem_cons.mpr ⟨.inl ?_, hapart⟩,
      hrest⟩
    rwa [hstop]

end Covers

namespace Layout

theorem Opens.isPlaced_eq_false {layout opened : Layout} {emitted : List Token}
    (h : layout.Opens emitted opened) : emitted.filter Token.isPlaced = [] := by
  refine List.filter_eq_nil_iff.mpr fun t ht => ?_
  rcases h.kind_of_mem t ht with hkind | hkind <;>
    simp [Token.isPlaced, hkind, TokenKind.isLayout]

theorem isPlaced_token {layout : Layout} {kind : TokenKind} {s : Bytes} (h : kind.isProper) :
    (layout.token kind s).isPlaced = true := by
  simp only [TokenKind.isProper, Bool.and_eq_true] at h
  simp only [Token.isPlaced, Layout.token, Bool.and_eq_true]
  exact ⟨h.1.1, h.2⟩

/-- The tokens of the end of a source stand for no part of it. -/
theorem finish_isPlaced_eq_false (layout : Layout) : layout.finish.filter Token.isPlaced = [] := by
  refine List.filter_eq_nil_iff.mpr fun t ht => ?_
  rcases kind_of_mem_finish ht with hkind | hkind | hkind <;>
    simp [Token.isPlaced, hkind, TokenKind.isLayout]

/-- The tokens of a run stand for parts of what is read, whatever stands in front of it. -/
theorem Run.exists_covers {s : Bytes} {layout final : Layout} {body : List Token}
    (h : Run false s layout body final) (front : Bytes) :
    ∃ extents, Covers (front ++ s) front.length (body.filter Token.isPlaced) extents := by
  induction h generalizing front with
  | nil =>
    refine ⟨[], .nil, by simp, by simp, .nil, fun k hk hlength _ => ?_⟩
    rw [List.append_nil] at hlength
    omega
  | @cons b t rest kind layout layout' final emitted more hnext hadds _ ih =>
    obtain ⟨extents, hcovers⟩ := ih (front ++ b :: t)
    rw [List.append_assoc] at hcovers
    have hfiller : (∀ k, kind ≠ .token k) → emitted.filter Token.isPlaced = [] →
        ∃ extents, Covers (front ++ (b :: t ++ rest)) front.length
          ((emitted ++ more).filter Token.isPlaced) extents := by
      intro hkind hemitted
      rw [List.filter_append, hemitted]
      exact ⟨extents, hcovers.filler (Lexeme.isFiller_of_next hnext hkind)⟩
    cases hadds with
    | blank => exact hfiller (by simp) rfl
    | comment => exact hfiller (by simp) rfl
    | lineEnd => exact hfiller (by simp) (by split <;> rfl)
    | innerEnd => exact hfiller (by simp) rfl
    | join _ hopens => exact hfiller (by simp) hopens.isPlaced_eq_false
    | token _ hkind hopens =>
      rw [List.filter_append, List.filter_append, hopens.isPlaced_eq_false, List.nil_append,
        List.filter_cons_of_pos (isPlaced_token hkind), List.filter_nil, List.singleton_append]
      exact ⟨_, hcovers.token (List.cons_ne_nil b t) rfl⟩

end Layout

/-! ## Places -/

namespace Position

theorem le_refl (p : Position) : p ≤ p := .inr ⟨rfl, Int.le_refl _⟩

theorem le_trans {p q r : Position} (hpq : p ≤ q) (hqr : q ≤ r) : p ≤ r := by
  rcases hpq with hpq | ⟨hline, hcolumn⟩
  · rcases hqr with hqr | ⟨hline', -⟩
    · exact .inl (Int.lt_trans hpq hqr)
    · exact .inl (hline' ▸ hpq)
  · rcases hqr with hqr | ⟨hline', hcolumn'⟩
    · exact .inl (hline ▸ hqr)
    · exact .inr ⟨hline.trans hline', Int.le_trans hcolumn hcolumn'⟩

theorem le_nextLine (p : Position) : p ≤ p.nextLine := .inl (Int.lt_succ p.line)

theorem le_nextColumn (p : Position) : p ≤ p.nextColumn :=
  .inr ⟨rfl, Int.le_of_lt (Int.lt_succ p.column)⟩

/-- Walking over a text leads on. -/
theorem le_advance (p : Position) (s : Bytes) : p ≤ p.advance s := by
  fun_induction advance p s with
  | case1 p => exact le_refl p
  | case2 p b s hpair ih => exact ih
  | case3 p b s hpair hend ih => exact le_trans (le_nextLine p) ih
  | case4 p b s hpair hend hcontinuation ih => exact ih
  | case5 p b s hpair hend hcontinuation ih => exact le_trans (le_nextColumn p) ih

/-- Columns count from one. -/
theorem column_pos_advance {p : Position} (hp : 1 ≤ p.column) (s : Bytes) :
    1 ≤ (p.advance s).column := by
  fun_induction advance p s with
  | case1 p => exact hp
  | case2 p b s hpair ih => exact ih hp
  | case3 p b s hpair hend ih => exact ih (Int.le_refl 1)
  | case4 p b s hpair hend hcontinuation ih => exact ih hp
  | case5 p b s hpair hend hcontinuation ih => exact ih (Int.le_add_one hp)

/-- An earlier place is on no later line. -/
theorem line_le_of_le {p q : Position} (h : p ≤ q) : p.line ≤ q.line := by
  rcases h with h | ⟨h, -⟩ <;> omega

/-- Line ends lead to a later line. -/
theorem line_lt_advance {p : Position} {s : Bytes} (hne : s ≠ []) (hs : ∀ b ∈ s, b.isLineEnd) :
    p.line < (p.advance s).line := by
  fun_induction advance p s with
  | case1 p => exact absurd rfl hne
  | case2 p b s hpair ih =>
    refine ih ?_ (List.forall_mem_cons.mp hs).2
    rintro rfl
    simp at hpair
  | case3 p b s hpair hend ih =>
    have := line_le_of_le (le_advance p.nextLine s)
    simp only [nextLine] at this ⊢
    omega
  | case4 p b s hpair hend hcontinuation ih => exact absurd (hs b List.mem_cons_self) hend
  | case5 p b s hpair hend hcontinuation ih => exact absurd (hs b List.mem_cons_self) hend

end Position

/-- Tokens that follow one another from a place on. -/
def Follows : Position → List Token → Prop
  | _, [] => True
  | p, t :: ts => p ≤ t.start ∧ t.start ≤ t.stop ∧ Follows t.stop ts

/-- The place where the last token stops. -/
def stopBehind (p : Position) (ts : List Token) : Position := ts.foldl (fun _ t => t.stop) p

theorem stopBehind_append (p : Position) (ts us : List Token) :
    stopBehind p (ts ++ us) = stopBehind (stopBehind p ts) us :=
  List.foldl_append

theorem follows_append {p : Position} {ts us : List Token} :
    Follows p (ts ++ us) ↔ Follows p ts ∧ Follows (stopBehind p ts) us := by
  induction ts generalizing p with
  | nil => simp [Follows, stopBehind]
  | cons t ts ih => simp [Follows, stopBehind, ih, and_assoc]

/-- Tokens of no width at one place follow one another. -/
theorem follows_of_forall_empty {p q : Position} {ts : List Token}
    (h : ∀ t ∈ ts, t.start = q ∧ t.stop = q) (hp : p ≤ q) :
    Follows p ts ∧ stopBehind p ts ≤ q := by
  induction ts generalizing p with
  | nil => exact ⟨trivial, hp⟩
  | cons t ts ih =>
    obtain ⟨⟨hstart, hstop⟩, hts⟩ := List.forall_mem_cons.mp h
    obtain ⟨hfollows, hbehind⟩ := ih hts (p := t.stop) (hstop ▸ Position.le_refl q)
    exact ⟨⟨hstart ▸ hp, hstart ▸ hstop ▸ Position.le_refl q, hfollows⟩, hbehind⟩

/-- Each of two tokens that follow one another starts where the first stops, or later. -/
theorem Follows.isChain {p : Position} {ts : List Token} (h : Follows p ts) :
    (∀ t ∈ ts, t.start ≤ t.stop) ∧ ts.IsChain fun t t' =>
    t.start ≤ t'.start ∧ t.stop ≤ t'.start := by
  induction ts generalizing p with
  | nil => simp
  | cons t ts ih =>
    obtain ⟨-, ht, hts⟩ := h
    obtain ⟨hall, hchain⟩ := ih hts
    refine ⟨List.forall_mem_cons.mpr ⟨ht, hall⟩, List.isChain_cons.mpr ⟨fun t' ht' => ?_, hchain⟩⟩
    cases ts with
    | nil => simp at ht'
    | cons t'' ts =>
      obtain rfl : t'' = t' := by simpa using ht'
      exact ⟨Position.le_trans ht hts.1, hts.1⟩

namespace Layout

/-- The tokens of the end of a source stand at its end. -/
theorem forall_mem_finish (layout : Layout) :
    ∀ t ∈ layout.finish, t.start = layout.place ∧ t.stop = layout.place := by
  intro t ht
  rcases List.mem_append.mp ht with ht | hend
  · rcases List.mem_append.mp ht with hnewline | hdedent
    · split at hnewline
      · rw [List.mem_singleton.mp hnewline]
        exact ⟨rfl, rfl⟩
      · simp at hnewline
    · obtain ⟨_, -, rfl⟩ := List.mem_map.mp hdedent
      exact ⟨rfl, rfl⟩
  · rw [List.mem_singleton.mp hend]
    exact ⟨rfl, rfl⟩

/-- All tokens so far stop at a place or before it, and a line that has not begun is behind them as
a whole. -/
structure IsBehind (layout : Layout) (p : Position) : Prop where
  le_place : p ≤ layout.place
  le_line : layout.margin.isSome → p ≤ ⟨layout.place.line, 1⟩
  column_pos : 1 ≤ layout.place.column

/-- A layout whose line has begun. -/
theorem isBehind_of_margin_eq_none {layout : Layout} {p : Position} (hmargin : layout.margin = none)
    (hp : p ≤ layout.place) (hcolumn : 1 ≤ layout.place.column) : layout.IsBehind p :=
  ⟨hp, fun hsome => absurd hsome (by simp [hmargin]), hcolumn⟩

theorem IsBehind.advance {layout : Layout} {p : Position} (h : layout.IsBehind p) (s : Bytes) :
    (layout.advance s).IsBehind p := by
  refine ⟨Position.le_trans h.le_place (Position.le_advance _ s), fun hsome => ?_,
    Position.column_pos_advance h.column_pos s⟩
  have hline := Position.line_le_of_le (Position.le_advance layout.place s)
  refine Position.le_trans (h.le_line hsome) ?_
  rcases Int.lt_or_eq_of_le hline with hlt | heq
  · exact .inl hlt
  · exact .inr ⟨heq, Int.le_refl 1⟩

theorem Opens.follows {layout opened : Layout} {emitted : List Token} {p : Position}
    (h : layout.Opens emitted opened) (hp : layout.IsBehind p) :
    Follows p emitted ∧ stopBehind p emitted ≤ opened.place := by
  cases h with
  | begun hmargin => exact ⟨trivial, hp.le_place⟩
  | deeper hmargin =>
    exact ⟨⟨hp.le_line (by simp [hmargin]), .inr ⟨rfl, hp.column_pos⟩, trivial⟩,
      Position.le_refl _⟩
  | shallower closed kept hmargin hlevels =>
    refine follows_of_forall_empty (fun t ht => ?_) hp.le_place
    obtain ⟨_, -, rfl⟩ := List.mem_map.mp ht
    exact ⟨rfl, rfl⟩

theorem Opens.place_eq {layout opened : Layout} {emitted : List Token}
    (h : layout.Opens emitted opened) : opened.place = layout.place := by
  cases h <;> rfl

/-- The tokens of a lexeme follow those in front of it. -/
theorem Adds.follows {layout layout' : Layout} {lexeme : Lexeme} {emitted : List Token}
    {p : Position} (h : Adds false layout lexeme emitted layout')
    (hends : lexeme.kind = .lineEnd → lexeme.text ≠ [] ∧ ∀ b ∈ lexeme.text, b.isLineEnd)
    (hp : layout.IsBehind p) : Follows p emitted ∧ layout'.IsBehind (stopBehind p emitted) := by
  cases h with
  | blank s =>
    have hblank : ({ layout with margin := layout.margin.map fun _ => s } : Layout).IsBehind p :=
      ⟨hp.le_place, fun hsome => hp.le_line ((Option.isSome_map ..).symm.trans hsome),
        hp.column_pos⟩
    exact ⟨trivial, hblank.advance s⟩
  | comment s => exact ⟨trivial, hp.advance s⟩
  | innerEnd s hdepth => exact ⟨trivial, hp.advance s⟩
  | lineEnd s hdepth =>
    obtain ⟨hne, hs⟩ := hends rfl
    have hline : layout.place.line < (layout.place.advance s).line :=
      Position.line_lt_advance hne hs
    -- Whatever stops on the old line stops before the new one.
    have hbehind : ∀ {q : Position}, q.line ≤ layout.place.line →
        ({ layout with margin := some [], lineOpen := false }.advance s).IsBehind q :=
      fun hq => ⟨.inl (Int.lt_of_le_of_lt hq hline), fun _ => .inl (Int.lt_of_le_of_lt hq hline),
        Position.column_pos_advance hp.column_pos s⟩
    split
    · exact ⟨⟨hp.le_place, Position.le_nextColumn _, trivial⟩, hbehind (Int.le_refl _)⟩
    · exact ⟨trivial, hbehind (Position.line_le_of_le hp.le_place)⟩
  | join s hopens =>
    obtain ⟨hfollows, hstop⟩ := hopens.follows hp
    have hbehind := isBehind_of_margin_eq_none hopens.margin_eq_none hstop
      (hopens.place_eq ▸ hp.column_pos)
    exact ⟨hfollows, hbehind.advance s⟩
  | token s hkind hopens =>
    obtain ⟨hfollows, hstop⟩ := hopens.follows hp
    rw [follows_append, stopBehind_append]
    exact ⟨⟨hfollows, hstop, Position.le_advance _ s, trivial⟩,
      isBehind_of_margin_eq_none hopens.margin_eq_none (Position.le_refl _)
        (Position.column_pos_advance (hopens.place_eq ▸ hp.column_pos) s)⟩

/-- The tokens of a run follow one another from the place where it begins. -/
theorem Run.follows {s : Bytes} {layout final : Layout} {body : List Token} {p : Position}
    (h : Run false s layout body final) (hp : layout.IsBehind p) :
    Follows p body ∧ final.IsBehind (stopBehind p body) := by
  induction h generalizing p with
  | nil => exact ⟨trivial, hp⟩
  | cons hnext hadds _ ih =>
    obtain ⟨hemitted, hbehind⟩ := hadds.follows (p := p) (fun hkind => by
      obtain rfl : _ = LexemeKind.lineEnd := hkind
      exact Lexeme.isLineEnd_of_next hnext) hp
    obtain ⟨hmore, hfinal⟩ := ih hbehind
    rw [follows_append, stopBehind_append]
    exact ⟨⟨hemitted, hmore⟩, hfinal⟩

end Layout

/-! ## The tokens of a source -/

/-- The mark that a source may begin with. -/
def byteOrderMark : Bytes := [0xEF, 0xBB, 0xBF]

/-- A source may begin with a mark, and what stands behind it is divided. -/
theorem exists_append_dropMark (source : Bytes) :
    ∃ mark, source = mark ++ dropMark source ∧ (mark = [] ∨ mark = byteOrderMark) := by
  cases hmark : Bytes.dropPrefix? [0xEF, 0xBB, 0xBF] source with
  | none => exact ⟨[], by rw [dropMark, hmark]; rfl, .inl rfl⟩
  | some rest =>
    refine ⟨byteOrderMark, ?_, .inr rfl⟩
    rw [dropMark, hmark]
    exact Bytes.eq_append_of_dropPrefix? hmark

/-- The tokens of a source that is read without its comments stand, in order, for disjoint parts of
it; what lies outside of these parts is the mark of its encoding and fillers; and each token begins
where the one in front of it ends, or later. -/
theorem exists_extents_of_tokenize {source : Bytes} {tokens : List Token}
    (h : tokenize false source = .ok tokens) :
    (∃ extents : List Extent,
      List.Forall₂ (fun t e => t.text = Layout.tokenText t.kind (e.slice source))
        (tokens.filter fun t => !t.kind.isLayout && t.kind != .endOfInput) extents ∧
      (∀ e ∈ extents, e.start < e.stop ∧ e.stop ≤ source.length) ∧
      extents.Pairwise (fun e e' => e.stop ≤ e'.start) ∧
      ∀ k < source.length, (∀ e ∈ extents, ¬ e.Has k) →
        byteOrderMark <+: source ∧ k < byteOrderMark.length ∨
          ∃ piece : Extent, piece.Has k ∧ (∀ e ∈ extents, e.Apart piece) ∧
            IsFiller (piece.slice source) (source.drop piece.stop)) ∧
      (∀ t ∈ tokens, t.start ≤ t.stop) ∧
      tokens.IsChain fun t t' => t.start ≤ t'.start ∧ t.stop ≤ t'.start := by
  obtain ⟨body, final, rfl, hrun⟩ := exists_run_of_tokenize h
  constructor
  · obtain ⟨mark, hsource, hmark⟩ := exists_append_dropMark source
    obtain ⟨extents, hcovers⟩ := hrun.exists_covers mark
    rw [← hsource] at hcovers
    have hbody : (body ++ final.finish).filter Token.isPlaced = body.filter Token.isPlaced := by
      rw [List.filter_append, final.finish_isPlaced_eq_false, List.append_nil]
    refine ⟨extents, hbody ▸ hcovers.text, hcovers.nonempty, hcovers.ordered, ?_⟩
    intro k hk hout
    by_cases hlow : mark.length ≤ k
    · obtain ⟨piece, hhas, -, hapart, hfiller⟩ := hcovers.rest k hlow hk hout
      exact .inr ⟨piece, hhas, hapart, hfiller⟩
    · rcases hmark with rfl | rfl
      · exact absurd (Nat.zero_le k) hlow
      · exact .inl ⟨⟨dropMark source, hsource.symm⟩, Nat.lt_of_not_le hlow⟩
  · have hstart : Layout.start.IsBehind .origin :=
      ⟨Position.le_refl _, fun _ => Position.le_refl _, Int.le_refl 1⟩
    obtain ⟨hfollows, hfinal⟩ := hrun.follows hstart
    have hempty : ∀ t ∈ final.finish, t.start = final.place ∧ t.stop = final.place :=
      final.forall_mem_finish
    exact (follows_append.mpr
      ⟨hfollows, (follows_of_forall_empty hempty hfinal.le_place).1⟩).isChain

/-- A source with a mark, a ligature in a name, a joined line and a comment. -/
theorem exists_extents_of_tokenize_ligature :
    ∃ tokens, tokenize false (byteOrderMark ++ [0xEF, 0xAC, 0x81] ++ text " \\\n= 'a' # c") =
        .ok tokens ∧
      tokens.map Token.text = [text "fi", text "=", text "'a'", text "\n", []] ∧
      tokens.IsChain fun t t' => t.start ≤ t'.start ∧ t.stop ≤ t'.start := by
  obtain ⟨tokens, htokens, htexts⟩ := exists_of_map_eq_ok (f := List.map Token.text)
    (show (tokenize false (byteOrderMark ++ [0xEF, 0xAC, 0x81] ++ text " \\\n= 'a' # c")).map
      (List.map Token.text) = .ok [text "fi", text "=", text "'a'", text "\n", []] by
        decide +kernel)
  exact ⟨tokens, htokens, htexts, (exists_extents_of_tokenize htokens).2.2⟩

end SyntaxTree
