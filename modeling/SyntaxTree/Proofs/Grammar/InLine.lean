import SyntaxTree.Proofs.Build.Phrase
import SyntaxTree.Proofs.Grammar.Concatenation

/-
# Expressions lie within a line

A reading of an expression takes no layout: no line end, indentation or dedentation stands between
its first and its last token.  So wherever an expression has been read, the line ends, the indented
blocks and the rest of their tokens are still ahead.
-/

namespace SyntaxTree

/-- A choice among tokens that leaves out layout. -/
theorem TokenKind.isLayout_of_eq_some {α : Type} {choose : TokenKind → Option α}
    {kind : TokenKind} {a : α} (h : choose kind = some a) (hnewline : choose .newline = none)
    (hindent : choose .indent = none) (hdedent : choose .dedent = none) :
    kind.isLayout = false := by
  unfold isLayout
  split
  · exact absurd (hnewline.symm.trans h) nofun
  · exact absurd (hindent.symm.trans h) nofun
  · exact absurd (hdedent.symm.trans h) nofun
  · rfl

/-! ## Moves within a line -/

namespace Cursor

variable {c c' c'' : Cursor}

/-- The second cursor stands at the first or further on, with no layout between them. -/
structure WithinLine (c c' : Cursor) : Prop where
  final : c'.final = c.final
  taken : ∃ ts, c.rest = ts ++ c'.rest ∧ ∀ t ∈ ts, t.kind.isLayout = false

theorem WithinLine.refl (c : Cursor) : c.WithinLine c := ⟨rfl, [], rfl, List.forall_mem_nil _⟩

theorem WithinLine.trans (h : c.WithinLine c') (h' : c'.WithinLine c'') : c.WithinLine c'' := by
  obtain ⟨ts, hts, hlayout⟩ := h.taken
  obtain ⟨ts', hts', hlayout'⟩ := h'.taken
  refine ⟨h'.final.trans h.final, ts ++ ts', ?_, List.forall_mem_append.mpr ⟨hlayout, hlayout'⟩⟩
  rw [hts, hts', List.append_assoc]

/-- Taking a token that is no layout. -/
theorem withinLine_advance (h : c.peek.kind.isLayout = false) : c.WithinLine c.advance := by
  refine ⟨c.final_advance, ?_⟩
  obtain ⟨_, _, rest, _, _⟩ := c
  cases rest with
  | nil => exact ⟨[], rfl, List.forall_mem_nil _⟩
  | cons t rest => exact ⟨[t], rfl, List.forall_mem_singleton.mpr h⟩

/-- Layout ahead of the first cursor is ahead of the second. -/
theorem WithinLine.mem_rest (h : c.WithinLine c') {t : Token} (ht : t ∈ c.rest)
    (hlayout : t.kind.isLayout) : t ∈ c'.rest := by
  obtain ⟨ts, hts, hnone⟩ := h.taken
  rw [hts] at ht
  refine (List.mem_append.mp ht).resolve_left fun hmem => ?_
  rw [hnone t hmem] at hlayout
  cases hlayout

theorem WithinLine.suffix (h : c.WithinLine c') : c'.rest <:+ c.rest := by
  obtain ⟨ts, hts, -⟩ := h.taken
  exact ⟨ts, hts.symm⟩

end Cursor

/-! ## Readings within a line -/

namespace Parse

variable {α β σ : Type}

/-- Where the token at the cursor is as `pre` says, a reading that succeeds takes no layout. -/
def InLine (pre : Token → Prop) (p : Parse α) : Prop :=
  ∀ c a c', pre c.peek → p c = .ok a c' → c.WithinLine c'

namespace InLine

variable {pre pre' : Token → Prop} {p p' : Parse α}

/-! ### Weaker contracts -/

theorem at_token {t : Token} (h : InLine pre p) (ht : pre t) : InLine (· = t) p :=
  fun c a c' hpeek => h c a c' (hpeek ▸ ht)

/-! ### Sequences -/

theorem of_fails (h : Fails p) : InLine pre p := by
  intro c a c' _ hrun
  obtain ⟨e, c'', herror⟩ := h c
  rw [herror] at hrun
  cases hrun

theorem of_looks (h : Looks p) : InLine pre p := by
  intro c a c' _ hrun
  obtain ⟨b, hb⟩ := h c
  rw [hb] at hrun
  cases hrun
  exact .refl c

theorem pure (a : α) : InLine pre (pure a) := of_looks fun _ => ⟨a, rfl⟩

theorem bind {k : α → Parse β} (hp : InLine pre p) (hk : ∀ a, InLine anywhere (k a)) :
    InLine pre (p >>= k) := by
  intro c b c'' hpre hrun
  obtain ⟨a, c', hfirst, hrest⟩ := exists_of_bind_eq_ok hrun
  exact (hp _ _ _ hpre hfirst).trans (hk a _ _ _ trivial hrest)

theorem map {f : α → β} (h : InLine pre p) : InLine pre (f <$> p) := by
  rw [map_eq_pure_bind]
  exact h.bind fun _ => pure _

theorem ite {b : Prop} [Decidable b] (h : b → InLine pre p) (h' : ¬ b → InLine pre p') :
    InLine pre (if b then p else p') := by
  split
  · exact h ‹_›
  · exact h' ‹_›

/-! ### Looking -/

/-- What follows a look goes on from the same token. -/
theorem look {b : Parse β} {k : β → Parse α} (hb : Looks b) (hk : ∀ x, InLine pre (k x)) :
    InLine pre (b >>= k) := by
  intro c a c' hpre hrun
  obtain ⟨x, hx⟩ := hb c
  rw [bind_ok hx] at hrun
  exact hk x _ _ _ hpre hrun

/-- The choice between two readings by a look. -/
theorem test {b : Parse Bool} (hb : Looks b) (h : InLine pre p) (h' : InLine pre p') :
    InLine pre (b >>= fun b => if b then p else p') :=
  look hb fun _ => ite (fun _ => h) fun _ => h'

theorem peek {k : Token → Parse α} (h : ∀ t, pre t → InLine (· = t) (k t)) :
    InLine pre (Parse.peek >>= k) :=
  fun c a c' hpre => h c.peek hpre c a c' rfl

theorem kind {k : TokenKind → Parse α} (h : ∀ t, pre t → InLine (· = t) (k t.kind)) :
    InLine pre (Parse.kind >>= k) :=
  fun c a c' hpre => h c.peek hpre c a c' rfl

/-- The choice between two readings by the kind of the token at the cursor. -/
theorem ifAt (kind : TokenKind) (h : InLine (fun t => t.kind = kind) p) (h' : InLine pre p') :
    InLine pre (at? kind >>= fun b => if b then p else p') := by
  intro c a c' hpre hrun
  rw [bind_ok (at?_peek kind c)] at hrun
  split at hrun
  · next hkind => exact h _ _ _ (beq_iff_eq.mp hkind) hrun
  · exact h' _ _ _ hpre hrun

/-! ### Moving -/

theorem next (hpre : ∀ t, pre t → t.kind.isLayout = false) : InLine pre Parse.next := by
  intro c t c' ht hrun
  cases hrun
  exact Cursor.withinLine_advance (hpre _ ht)

theorem nextPeeked {t : Token} (h : t.kind.isLayout = false) : InLine (· = t) Parse.next :=
  next fun _ ht => ht ▸ h

theorem nextOf {kind : TokenKind} (hkind : kind.isLayout = false) :
    InLine (fun t => t.kind = kind) Parse.next :=
  next fun _ ht => ht ▸ hkind

/-- Two tokens are taken if their kinds are as they should be. -/
theorem ifPair {first second : TokenKind} {k : Token → Parse α} (hfirst : first.isLayout = false)
    (hsecond : second.isLayout = false) (h : ∀ t, InLine anywhere (k t)) (h' : InLine pre p') :
    InLine pre (at? first >>= fun x => Parse.kindAt 1 >>= fun y =>
      if x && y == second then Parse.next >>= fun t => Parse.next >>= fun _ => k t else p') := by
  intro c a c' hpre hrun
  change (if c.peek.kind == first && (c.peekAt 1).kind == second then
    Parse.next >>= fun t => Parse.next >>= fun _ => k t else p') c = .ok a c' at hrun
  split at hrun
  · next hkinds =>
    simp only [Bool.and_eq_true, beq_iff_eq] at hkinds
    have htwo := Cursor.withinLine_advance (c := c) (by rw [hkinds.1, hfirst])
    have hrest := Cursor.withinLine_advance (c := c.advance)
      (by rw [Cursor.peek_advance, hkinds.2, hsecond])
    rw [bind_ok (next_run c), bind_ok (next_run c.advance)] at hrun
    exact (htwo.trans hrest).trans (h _ _ _ _ trivial hrun)
  · exact h' _ _ _ hpre hrun

/-- The choice between two readings by whether a token can be taken. -/
theorem ifAccept {kind : TokenKind} (hkind : kind.isLayout = false) (h : InLine anywhere p)
    (h' : InLine pre p') : InLine pre (Parse.accept kind >>= fun b => if b then p else p') := by
  rw [Mirrors.accept_bind]
  exact ifAt kind ((nextOf hkind).bind fun _ => h) h'

theorem accept {kind : TokenKind} (hkind : kind.isLayout = false) :
    InLine pre (Parse.accept kind) :=
  ifAt kind ((nextOf hkind).bind fun _ => pure _) (pure _)

theorem expect (what : Missing) (hkind : what.kind.isLayout = false) :
    InLine pre (Parse.expect what) :=
  ifAccept hkind (pure _) (of_fails (fails_failHere _))

theorem expectName (role : NameRole) : InLine pre (Parse.expectName role) :=
  ifAt .identifier (nextOf rfl) (of_fails (fails_failHere _))

/-! ### Spans and failures -/

theorem exprFrom (start : Position) (shape : Expr.Shape) :
    InLine pre (Parse.exprFrom start shape) :=
  of_looks fun _ => ⟨_, rfl⟩

theorem spanFrom (start : Position) : InLine pre (Parse.spanFrom start) :=
  of_looks fun _ => ⟨_, rfl⟩

theorem failHere (cause : SyntaxCause) : InLine pre (Parse.failHere cause : Parse α) :=
  of_fails (fails_failHere cause)

theorem failAtToken (cause : SyntaxCause) (t : Token) :
    InLine pre (Parse.failAtToken cause t : Parse α) :=
  of_fails (fails_failAtToken cause t)

theorem failAtSpan (cause : SyntaxCause) (span : Span) :
    InLine pre (Parse.failAtSpan cause span : Parse α) :=
  of_fails (fails_failAtSpan cause span)

/-! ### Repeating -/

theorem iterateUpTo {step : σ → Parse (ForInStep σ)} (h : ∀ s, InLine anywhere (step s))
    (limit : Nat) (s : σ) : InLine anywhere (Parse.iterateUpTo step limit s) := by
  induction limit generalizing s with
  | zero => exact failHere _
  | succ limit ih =>
    refine (h s).bind fun r => ?_
    cases r with
    | done s => exact pure s
    | yield s => exact ih s

theorem iterate {step : σ → Parse (ForInStep σ)} (h : ∀ s, InLine anywhere (step s)) (s : σ) :
    InLine pre (Parse.iterate step s) :=
  fun c a c' _ => iterateUpTo h _ s c a c' trivial

theorem collectUpTo {item : Parse (Option α)} (h : InLine anywhere item) (limit : Nat) :
    InLine anywhere (Parse.collectUpTo item limit) := by
  induction limit with
  | zero => exact failHere _
  | succ limit ih =>
    refine h.bind fun o => ?_
    cases o with
    | none => exact pure _
    | some a => exact ih.bind fun _ => pure _

theorem collect {item : Parse (Option α)} (h : InLine anywhere item) :
    InLine pre (Parse.collect item) :=
  fun c a c' _ => collectUpTo h _ c a c' trivial

/-- An item that is read behind a word. -/
theorem behind {word : TokenKind} (hword : word.isLayout = false) (h : InLine anywhere p) :
    InLine pre (Parse.accept word >>= fun b =>
      if b then p >>= fun a => Pure.pure (some a) else Pure.pure none) :=
  ifAccept hword (h.bind fun _ => pure _) (pure _)

/-- A value that is read if a test holds, in front of what goes on with or without it. -/
theorem optionally {b : Parse Bool} {k : Option α → Parse β} (hb : InLine pre b)
    (h : InLine anywhere p) (hk : ∀ o, InLine anywhere (k o)) :
    InLine pre (b >>= fun b => if b then some <$> p >>= k else Pure.pure none >>= k) :=
  hb.bind fun _ => ite (fun _ => h.map.bind hk) fun _ => (pure none).bind hk

/-! ## Phrases -/

section Items

variable {stops : Parse Bool} {item : Parse α}

theorem moreItems (hstops : Looks stops) (h : InLine anywhere item) :
    InLine pre (Parse.moreItems stops item) :=
  collect (ifAccept rfl (test hstops (pure _) (h.bind fun _ => pure _)) (pure _))

theorem tupleOf {item : Parse Expr} (hstops : Looks stops)
    (h : ∀ {pre : Token → Prop}, InLine pre item) : InLine pre (Parse.tupleOf stops item) :=
  h.bind fun first => ifAt .comma ((moreItems hstops h).bind fun _ => exprFrom _ _) (pure first)

/-- The items behind the first one of a display, up to what closes it. -/
theorem closedItems {close : TokenKind} {what : Missing} {k : List α → Parse β}
    (hwhat : what.kind.isLayout = false) (hitem : InLine anywhere item)
    (hk : ∀ items, InLine anywhere (k items)) :
    InLine pre
      (Parse.moreItems (at? close) item >>= fun items => Parse.expect what >>= fun _ => k items) :=
  (moreItems (Looks.at? close) hitem).bind fun items => (expect what hwhat).bind fun _ => hk items

end Items

section Phrases

variable {read : Reading} (h : ∀ (g : Goal) {pre : Token → Prop}, InLine pre (read g))

include h

/-! ### Stars, names and yields -/

theorem starredOr {plain : Parse Expr} (hplain : ∀ {pre : Token → Prop}, InLine pre plain) :
    InLine pre (Parse.starredOr read plain) :=
  ifAt .star ((nextOf rfl).bind fun _ => (h .operand).bind fun _ => exprFrom _ _) hplain

theorem namedExpression : InLine pre (Parse.namedExpression read) :=
  ifPair rfl rfl (fun _ => (exprFrom _ _).bind fun _ => (h .expression).bind fun _ => exprFrom _ _)
    (h .expression)

theorem starExpression : InLine pre (Parse.starExpression read) := starredOr h (h .expression)

theorem starNamed : InLine pre (Parse.starNamed read) := starredOr h (namedExpression h)

theorem starExpressions : InLine pre (Parse.starExpressions read) :=
  tupleOf Looks.startsNoItem (starExpression h)

theorem starTargets : InLine pre (Parse.starTargets read) := by
  refine (tupleOf Looks.startsNoItem (starredOr h (h .operand))).bind fun e => ?_
  unfold Parse.storeTarget
  split
  · exact failAtSpan _ _
  · exact pure _

theorem yieldExpr : InLine (fun t => t.kind = .kwYield) (Parse.yieldExpr read) := by
  refine (nextOf rfl).bind fun start => ?_
  refine ifAccept rfl ?_ (test Looks.startsStarred ?_ (exprFrom _ _))
  · exact (h .expression).bind fun value => exprFrom _ _
  · exact (starExpressions h).bind fun value => exprFrom _ _

/-! ### Comprehensions -/

theorem clauseBehind (start : Position) (isAsync : Bool) :
    InLine pre (Parse.clauseBehind read start isAsync) := by
  refine (starTargets h).bind fun target => (expect _ rfl).bind fun _ => ?_
  refine (h .disjunction).bind fun iterable => ?_
  refine (collect (behind rfl (h .disjunction))).bind fun conditions => ?_
  exact (spanFrom _).bind fun span => pure _

theorem clauses : InLine pre (Parse.clauses read) := by
  refine collect ?_
  rw [furtherClause_eq]
  refine ifAt .kwFor ((nextOf rfl).bind fun t => (clauseBehind h _ _).map) ?_
  exact ifPair rfl rfl (fun t => (clauseBehind h _ _).map) (pure _)

/-- Clauses are read where one begins. -/
theorem ifClauses {k : List Comprehension → Parse β} {p' : Parse β}
    (hk : ∀ cs, InLine anywhere (k cs)) (h' : InLine pre p') :
    InLine pre (startsClause >>= fun b => if b then Parse.clauses read >>= k else p') :=
  test Looks.startsClause ((clauses h).bind hk) h'

/-! ### Parameters -/

theorem parameter (annotated starHint : Bool) :
    InLine pre (Parse.parameter read annotated starHint) := by
  have hvalue : InLine anywhere
      (if starHint then Parse.starExpression read else read .expression) :=
    ite (fun _ => starExpression h) fun _ => h .expression
  have hhint : InLine anywhere (Parse.parameterHint annotated
      (if starHint then Parse.starExpression read else read .expression)) :=
    ite (fun _ => behind rfl hvalue) fun _ => pure _
  exact (expectName .parameter).bind fun token => hhint.bind fun hint =>
    (spanFrom _).bind fun span => pure _

omit h in
theorem slashParameter (draft : ParameterDraft) :
    InLine (fun t => t.kind = .slash) (Parse.slashParameter draft) := by
  refine (nextOf rfl).bind fun slash => ite (fun _ => failAtToken _ _) fun _ => ?_
  exact ite (fun _ => failAtToken _ _) fun _ => ite (fun _ => failAtToken _ _) fun _ => pure _

theorem starParameter (annotated : Bool) (draft : ParameterDraft) :
    InLine (fun t => t.kind = .star) (Parse.starParameter read annotated draft) := by
  refine (nextOf rfl).bind fun star => ite (fun _ => failAtToken _ _) fun _ => ?_
  refine ifAt .identifier ?_ (pure _)
  exact (parameter h annotated true).bind fun variadic => ifAt .equal (failHere _) (pure _)

theorem keywordsParameter (annotated : Bool) (draft : ParameterDraft) :
    InLine (fun t => t.kind = .doubleStar) (Parse.keywordsParameter read annotated draft) :=
  (nextOf rfl).bind fun _ => (parameter h annotated false).bind fun _ =>
    ifAt .equal (failHere _) (pure _)

theorem plainParameter (annotated : Bool) (draft : ParameterDraft) :
    InLine pre (Parse.plainParameter read annotated draft) := by
  refine (parameter h annotated false).bind fun p => ?_
  obtain ⟨span, name, hint⟩ := p
  refine optionally (accept rfl) (h .expression) fun default => ?_
  refine ite (fun _ => pure _) fun _ => ?_
  cases default with
  | some value => exact pure _
  | none => exact ite (fun _ => failAtSpan _ _) fun _ => pure _

theorem addParameter (annotated : Bool) (draft : ParameterDraft) :
    InLine pre (Parse.addParameter read annotated draft) := by
  refine ite (fun _ => failHere _) fun _ => kind fun t _ => ?_
  split
  · next hkind => exact (slashParameter draft).at_token hkind
  · next hkind => exact (keywordsParameter h annotated draft).at_token hkind
  · next hkind => exact (starParameter h annotated draft).at_token hkind
  · exact plainParameter h annotated draft

theorem parameters (close : TokenKind) (annotated : Bool) :
    InLine pre (Parse.parameters read close annotated) := by
  have hstep (draft : ParameterDraft) :
      InLine anywhere (Parse.parameterStep read close annotated draft) :=
    ifAt close (pure _) ((addParameter h annotated draft).bind fun _ =>
      ifAccept rfl (pure _) (pure _))
  refine (iterate hstep _).bind fun draft => ?_
  split
  · exact ite (fun _ => failAtToken _ _) fun _ => pure _
  · exact pure _

theorem lambda : InLine (fun t => t.kind = .kwLambda) (Parse.lambda read) :=
  (nextOf rfl).bind fun _ => (parameters h .colon false).bind fun _ => (expect _ rfl).bind fun _ =>
    (h .expression).bind fun _ => exprFrom _ _

/-! ### Arguments -/

theorem plainArgument : InLine pre (Parse.plainArgument read) :=
  (namedExpression h).bind fun value => ifClauses h (fun _ => exprFrom _ _) (pure value)

theorem addArgument (draft : ArgumentDraft) : InLine pre (Parse.addArgument read draft) := by
  refine peek fun start _ => ?_
  refine ifAccept rfl ?starred (ifAccept rfl ?unpacked (ifPair rfl rfl (fun _ => ?named) ?plain))
  case starred =>
    refine ite (fun _ => failAtToken _ _) fun _ => (h .expression).bind fun value => ?_
    exact (exprFrom _ _).bind fun value => pure _
  case unpacked | named =>
    exact (h .expression).bind fun value => (spanFrom _).bind fun span => pure _
  case plain =>
    refine (plainArgument h).bind fun value => ite (fun _ => failAtSpan _ _) fun _ => ?_
    exact ite (fun _ => failAtSpan _ _) fun _ => pure _

theorem arguments : InLine pre (Parse.arguments read) := by
  have hstep (draft : ArgumentDraft) : InLine anywhere (Parse.argumentStep read draft) :=
    ifAt .closeParen (pure _) ((addArgument h draft).bind fun _ => ifAccept rfl (pure _) (pure _))
  exact (iterate hstep _).bind fun draft => (expect _ rfl).bind fun _ => pure draft

/-! ### Subscripts -/

theorem sliceFrom (start : Position) (lower : Option Expr) :
    InLine (fun t => t.kind = .colon) (Parse.sliceFrom read start lower) := by
  have hbehind (upper : Option Expr) :
      InLine anywhere (Parse.sliceBehind read start lower upper) := by
    refine ifAccept rfl (look (Looks.at? _) fun _ => look (Looks.at? _) fun _ =>
      ite (fun _ => ?_) fun _ => ?_) ?_
    · exact (pure none).bind fun step => exprFrom _ _
    · exact (h .expression).map.bind fun step => exprFrom _ _
    · exact (pure none).bind fun step => exprFrom _ _
  refine (nextOf rfl).bind fun _ => test Looks.endsSlicePart ?_ ?_
  · exact (pure none).bind hbehind
  · exact (h .expression).map.bind hbehind

theorem sliceOrIndex : InLine pre (Parse.sliceOrIndex read) := by
  refine peek fun start _ => ite (fun _ => starExpression h) fun _ =>
    ite (fun hcolon => ?_) fun _ => ?_
  · exact (sliceFrom h start.start none).at_token hcolon
  · exact (namedExpression h).bind fun lower => ifAt .colon (sliceFrom h _ _) (pure lower)

theorem slices : InLine pre (Parse.slices read) := tupleOf (Looks.at? _) (sliceOrIndex h)

/-! ### Displays -/

theorem parenthesized (start : Position) : InLine pre (Parse.parenthesized read start) := by
  refine ifAccept rfl (exprFrom _ _) (ifAt .kwYield ?_ ((starNamed h).bind fun first => ?_))
  · exact (yieldExpr h).bind fun value => (expect _ rfl).bind fun _ => pure value
  refine ifClauses h (fun clauses => (expect _ rfl).bind fun _ => exprFrom _ _) ?_
  refine ifAccept rfl (ite (fun _ => failAtSpan _ _) fun _ => pure first) ?_
  exact closedItems rfl (starNamed h) fun rest => exprFrom _ _

theorem listDisplay (start : Position) : InLine pre (Parse.listDisplay read start) := by
  refine ifAccept rfl (exprFrom _ _) ((starNamed h).bind fun first => ?_)
  refine ifClauses h (fun clauses => (expect _ rfl).bind fun _ => exprFrom _ _) ?_
  exact closedItems rfl (starNamed h) fun rest => exprFrom _ _

theorem addDictItem (draft : DictDraft) : InLine pre (Parse.addDictItem read draft) := by
  refine ifAccept rfl ((h .operand).bind fun value => pure _) ?_
  refine (h .expression).bind fun key => (expect _ rfl).bind fun _ => ?_
  exact (h .expression).bind fun value => pure _

theorem dictStep (draft : DictDraft) : InLine pre (Parse.dictStep read draft) :=
  ifAccept rfl (ifAt .closeBrace (pure _) ((addDictItem h draft).bind fun _ => pure _)) (pure _)

theorem dictRest (start : Position) (first : DictDraft) :
    InLine pre (Parse.dictRest read start first) :=
  (iterate (fun draft => dictStep h draft) first).bind fun _ => (expect _ rfl).bind fun _ =>
    exprFrom _ _

theorem braceDisplay (start : Position) : InLine pre (Parse.braceDisplay read start) := by
  refine ifAccept rfl (exprFrom _ _) (ifAt .doubleStar ?_ ((starNamed h).bind fun first => ?_))
  · exact (addDictItem h .empty).bind fun first => dictRest h start first
  refine ifAccept rfl ((h .expression).bind fun value => ?_) ?_
  · exact ifClauses h (fun clauses => (expect _ rfl).bind fun _ => exprFrom _ _)
      (dictRest h start _)
  refine ifClauses h (fun clauses => (expect _ rfl).bind fun _ => exprFrom _ _) ?_
  exact closedItems rfl (starNamed h) fun rest => exprFrom _ _

end Phrases

/-! ## Levels -/

section Levels

variable {read : Reading} {field : FieldReading}
  (h : ∀ (g : Goal) {pre : Token → Prop}, InLine pre (read g)) (hfield : FieldSteady field)

/-- The fields of a literal are read from its text, so the cursor stays where it is. -/
theorem addToken (hfield : FieldSteady field) (isBytes : Bool) (draft : Draft) (t : Token) :
    InLine pre (Parse.addToken field isBytes draft t) := by
  intro c draft' c' _ hadd
  obtain ⟨-, parts, hparts, -⟩ := exists_parts_addToken hfield hadd
  obtain ⟨-, rfl⟩ := EStateM.Result.ok.inj ((hparts c draft rfl).symm.trans hadd)
  exact .refl c

theorem strings (hfield : FieldSteady field) : InLine pre (Parse.strings field) := by
  have hliterals (isBytes : Bool) (run : Draft × Bool) :
      InLine anywhere (Parse.iterate (literalStep field isBytes) run) := by
    refine iterate (fun run => kind fun t _ => ite (fun htext => ?_) fun _ => pure _) run
    have hkind : t.kind.isLayout = false := by
      generalize t.kind = kind at htext
      cases kind <;> first | rfl | cases htext
    exact (nextPeeked hkind).bind fun t => (addToken hfield _ _ t).bind fun _ => pure _
  intro c e c' _ hstrings
  rw [strings_eq] at hstrings
  obtain ⟨run, c₁, hrun, hlast⟩ := exists_of_bind_eq_ok hstrings
  cases hlast
  exact hliterals _ _ c run c' trivial hrun

theorem atomOf {t : Token} (ht : t.kind.isLayout = false) (value : Constant) :
    InLine (· = t) (Parse.atomOf t value) :=
  (nextPeeked ht).bind fun _ => exprFrom _ _

theorem nextNumber {t : Token} (ht : t.kind.isLayout = false) :
    InLine (· = t) (Parse.next >>= Parse.numberOf) :=
  (nextPeeked ht).bind fun _ => exprFrom _ _

include h hfield

theorem atom : InLine pre (Parse.atom read field) := by
  refine peek fun t _ => ?_
  split
  · next hkind => exact (nextPeeked (by rw [hkind]; rfl)).bind fun _ => exprFrom _ _
  · next hkind => exact atomOf (by rw [hkind]; rfl) _
  · next hkind => exact atomOf (by rw [hkind]; rfl) _
  · next hkind => exact atomOf (by rw [hkind]; rfl) _
  · next hkind => exact nextNumber (by rw [hkind]; rfl)
  · next hkind => exact nextNumber (by rw [hkind]; rfl)
  · next hkind => exact nextNumber (by rw [hkind]; rfl)
  · exact strings hfield
  · exact strings hfield
  · exact strings hfield
  · next hkind => exact (nextPeeked (by rw [hkind]; rfl)).bind fun t => parenthesized h t.start
  · next hkind => exact (nextPeeked (by rw [hkind]; rfl)).bind fun t => listDisplay h t.start
  · next hkind => exact (nextPeeked (by rw [hkind]; rfl)).bind fun t => braceDisplay h t.start
  all_goals exact failAtToken _ _

/-! ### Operators that stand behind or in front -/

omit hfield in
theorem trailer (value : Expr) : InLine pre (Parse.trailer read value) := by
  have hfrom (shape : Expr.Shape) : InLine anywhere
      (Parse.exprFrom value.span.start shape >>= fun e => Pure.pure (ForInStep.yield e)) :=
    (exprFrom _ _).bind fun e => pure _
  refine ifAccept rfl ?_ (ifAccept rfl ?_ (ifAccept rfl ?_ (pure _)))
  · exact (expectName .attributeName).bind fun name => hfrom _
  · exact (arguments h).bind fun draft => hfrom _
  · exact (slices h).bind fun index => (expect _ rfl).bind fun _ => hfrom _

theorem primary : InLine pre (Parse.primary read field) :=
  (atom h hfield).bind fun value => iterate (trailer h) value

theorem awaited : InLine pre (Parse.awaited read field) :=
  ifAt .kwAwait ((nextOf rfl).bind fun _ => (primary h hfield).bind fun _ => exprFrom _ _)
    (primary h hfield)

theorem power : InLine pre (Parse.power read field) := by
  refine (awaited h hfield).bind fun base => ifAccept rfl ?_ (pure base)
  exact (h .factor).bind fun exponent => exprFrom _ _

theorem factor : InLine pre (Parse.factor read field) := by
  refine kind fun t _ => ?_
  cases hop : signOf? t.kind with
  | none => exact power h hfield
  | some op =>
    have hkind := TokenKind.isLayout_of_eq_some hop rfl rfl rfl
    exact (nextPeeked hkind).bind fun _ => (h .factor).bind fun _ => exprFrom _ _

/-! ### Operators between operands -/

omit h hfield in
theorem leftAssociative {op? : TokenKind → Option BinaryOperator} {operand : Parse Expr}
    (hnewline : op? .newline = none) (hindent : op? .indent = none) (hdedent : op? .dedent = none)
    (hoperand : ∀ {pre : Token → Prop}, InLine pre operand) :
    InLine pre (Parse.leftAssociative op? operand) := by
  refine hoperand.bind fun left => iterate (fun left => kind fun t _ => ?_) left
  split
  · next op hop =>
    have hkind := TokenKind.isLayout_of_eq_some hop hnewline hindent hdedent
    exact (nextPeeked hkind).bind fun _ => hoperand.bind fun _ => (exprFrom _ _).bind fun _ =>
      pure _
  · exact pure _

theorem bitOr : InLine pre (Parse.bitOr read field) :=
  leftAssociative rfl rfl rfl <| leftAssociative rfl rfl rfl <| leftAssociative rfl rfl rfl <|
    leftAssociative rfl rfl rfl <| leftAssociative rfl rfl rfl <| leftAssociative rfl rfl rfl <|
      factor h hfield

/-! ### Conditions -/

omit h hfield in
/-- The operator of a comparison is one token or two. -/
theorem compareOperator : InLine pre Parse.compareOperator := by
  have htake {t : Token} (ht : t.kind.isLayout = false) (op : CompareOperator) :
      InLine (· = t) (compareOperator.take op) :=
    (nextPeeked ht).bind fun _ => pure _
  refine kind fun t _ => ?_
  split
  · next hkind =>
    rintro c a c' rfl hrun
    rw [bind_ok (show kindAt 1 c = .ok (c.peekAt 1).kind c from rfl)] at hrun
    split at hrun
    · next hin =>
      cases hrun
      refine (Cursor.withinLine_advance (by rw [hkind]; rfl)).trans (Cursor.withinLine_advance ?_)
      rw [Cursor.peek_advance, beq_iff_eq.mp hin]
      rfl
    · cases hrun
      exact .refl c
  · next hkind =>
    exact (nextPeeked (by rw [hkind]; rfl)).bind fun _ => (accept rfl).bind fun _ => pure _
  · next hkind => exact htake (by rw [hkind]; rfl) _
  · next hkind => exact htake (by rw [hkind]; rfl) _
  · next hkind => exact htake (by rw [hkind]; rfl) _
  · next hkind => exact htake (by rw [hkind]; rfl) _
  · next hkind => exact htake (by rw [hkind]; rfl) _
  · next hkind => exact htake (by rw [hkind]; rfl) _
  · next hkind => exact htake (by rw [hkind]; rfl) _
  · exact pure _

theorem comparison : InLine pre (Parse.comparison read field) := by
  have hfurther : InLine anywhere (Parse.furtherComparison (Parse.bitOr read field)) := by
    refine compareOperator.bind fun o => ?_
    cases o with
    | none => exact pure _
    | some op => exact (bitOr h hfield).bind fun _ => pure _
  rw [comparison_eq]
  refine (bitOr h hfield).bind fun left => (collect hfurther).bind fun rest => ?_
  exact ite (fun _ => pure left) fun _ => exprFrom _ _

theorem inversion : InLine pre (Parse.inversion read field) :=
  ifAt .kwNot ((nextOf rfl).bind fun _ => (h .inversion).bind fun _ => exprFrom _ _)
    (comparison h hfield)

omit h hfield in
theorem joined (op : BoolOperator) {word : TokenKind} (hword : word.isLayout = false)
    {operand : Parse Expr} (hoperand : ∀ {pre : Token → Prop}, InLine pre operand) :
    InLine pre (Parse.joined op word operand) := by
  refine hoperand.bind fun first => (collect (behind hword hoperand)).bind fun rest => ?_
  exact ite (fun _ => pure first) fun _ => exprFrom _ _

theorem disjunction : InLine pre (Parse.disjunction read field) :=
  joined .or rfl (joined .and rfl (inversion h hfield))

theorem expression : InLine pre (Parse.expression read field) := by
  refine ifAt .kwLambda (lambda h) ((disjunction h hfield).bind fun body => ?_)
  refine ifAccept rfl ((h .disjunction).bind fun test => ?_) (pure body)
  exact (expect _ rfl).bind fun _ => (h .expression).bind fun orelse => exprFrom _ _

theorem goal : ∀ (g : Goal) {pre : Token → Prop}, InLine pre (Parse.goal read field g)
  | .expression, _ => expression h hfield
  | .disjunction, _ => disjunction h hfield
  | .inversion, _ => inversion h hfield
  | .operand, _ => bitOr h hfield
  | .factor, _ => factor h hfield

end Levels

end InLine

/-- No reading of an expression takes layout. -/
theorem inLine_readUpTo {field : FieldReading} (hfield : FieldSteady field) :
    ∀ (limit : Nat) (g : Goal) {pre : Token → Prop}, InLine pre (readUpTo field limit g)
  | 0, _, _ => .failHere _
  | limit + 1, g, _ => .goal (inLine_readUpTo hfield limit) hfield g

section Lists

variable {field : FieldReading} (hfield : FieldSteady field) {limit : Nat} {c c' : Cursor}
    {e : Expr}

include hfield

theorem withinLine_of_starExpressions (h : starExpressions (readUpTo field limit) c = .ok e c') :
    c.WithinLine c' :=
  InLine.starExpressions (fun g _ => inLine_readUpTo hfield limit g) c e c'
    (show anywhere c.peek from trivial) h

/-- The same holds of the items of a subject, which may be named. -/
theorem withinLine_of_starNamed
    (h : tupleOf startsNoItem (starNamed (readUpTo field limit)) c = .ok e c') :
    c.WithinLine c' :=
  InLine.tupleOf Looks.startsNoItem
    (InLine.starNamed fun g _ => inLine_readUpTo hfield limit g) c e c'
    (show anywhere c.peek from trivial) h

end Lists

end Parse

end SyntaxTree
