import SyntaxTree.Proofs.Grammar.Columns
import SyntaxTree.Proofs.Grammar.Reads

/-
# From level to level

What reads as an expression at a level does so at every looser one, and each level has a way to put
such expressions together: signs, operators between operands, chains, and conditions.
-/

namespace SyntaxTree

open Parse

/-! ## Operators -/

/-- The kinds of the words that spell a comparison. -/
def CompareOperator.kinds : CompareOperator → List TokenKind
  | equal => [.equalEqual]
  | notEqual => [.notEqual]
  | less => [.less]
  | lessEqual => [.lessEqual]
  | greater => [.greater]
  | greaterEqual => [.greaterEqual]
  | is => [.kwIs]
  | isNot => [.kwIs, .kwNot]
  | member => [.kwIn]
  | notMember => [.kwNot, .kwIn]

/-- The kind of the word that joins conditions. -/
def BoolOperator.kind : BoolOperator → TokenKind
  | and => .kwAnd
  | or => .kwOr

/-- The level of the conditions that a word joins. -/
def BoolOperator.level : BoolOperator → Level
  | and => .conjunction
  | or => .disjunction

/-- The level of each of the conditions that a word joins. -/
def BoolOperator.operandLevel : BoolOperator → Level
  | and => .inversion
  | or => .conjunction

/-- An operator behind an operand and the next operand, with their words. -/
structure Further (α : Type) where
  sign : List Word
  op : α
  words : List Word
  value : Expr

/-- The words of an operator and of the operand behind it. -/
def Further.all {α : Type} (x : Further α) : List Word := x.sign ++ x.words

/-- A word that ends the chains of comparisons is no comparison. -/
theorem Parse.compareOperator_none {c : Cursor} {f : Word} {more : List Word}
    (hc : c.words = f :: more) (hf : f.kind.Ends .comparison) :
    compareOperator c = .ok none c := by
  rw [compareOperator, bind_ok (kind_run hc)]
  generalize f.kind = kind at hf
  cases kind <;> first | rfl | exact absurd hf (by decide)

/-- The words of a comparison are taken, whatever operand follows. -/
theorem Parse.compareOperator_some {op : CompareOperator} {sign : List Word}
    (hsign : sign.map Word.kind = op.kinds) {c : Cursor} {f : Word} {more : List Word}
    (hc : c.words = sign ++ f :: more) (hf : f.kind ≠ .kwNot) :
    ∃ c', compareOperator c = .ok (some op) c' ∧ c'.words = f :: more := by
  cases op with
  | isNot =>
    obtain ⟨w, _, rfl, hw, hsign⟩ := List.map_eq_cons_iff.mp hsign
    obtain ⟨w', _, rfl, hw', hsign⟩ := List.map_eq_cons_iff.mp hsign
    obtain rfl := List.map_eq_nil_iff.mp hsign
    have hadvance := Cursor.words_advance hc (by simp)
    refine ⟨c.advance.advance, ?_, Cursor.words_advance hadvance (by simp)⟩
    rw [compareOperator, bind_ok (kind_run hc), hw]
    dsimp only
    rw [bind_ok (next_run c), bind_ok (accept_true hadvance hw')]
    rfl
  | notMember =>
    obtain ⟨w, _, rfl, hw, hsign⟩ := List.map_eq_cons_iff.mp hsign
    obtain ⟨w', _, rfl, hw', hsign⟩ := List.map_eq_cons_iff.mp hsign
    obtain rfl := List.map_eq_nil_iff.mp hsign
    have hadvance := Cursor.words_advance hc (by simp)
    refine ⟨c.advance.advance, ?_, Cursor.words_advance hadvance (by simp)⟩
    rw [compareOperator, bind_ok (kind_run hc), hw]
    dsimp only
    rw [bind_ok (kindAt_run hc), hw']
    rfl
  | is =>
    obtain ⟨w, _, rfl, hw, hsign⟩ := List.map_eq_cons_iff.mp hsign
    obtain rfl := List.map_eq_nil_iff.mp hsign
    have hadvance := Cursor.words_advance hc (by simp)
    refine ⟨c.advance, ?_, hadvance⟩
    rw [compareOperator, bind_ok (kind_run hc), hw]
    dsimp only
    rw [bind_ok (next_run c), bind_ok (accept_false hadvance hf)]
    rfl
  | _ =>
    obtain ⟨w, _, rfl, hw, hsign⟩ := List.map_eq_cons_iff.mp hsign
    obtain rfl := List.map_eq_nil_iff.mp hsign
    refine ⟨c.advance, ?_, Cursor.words_advance hc (by simp)⟩
    rw [compareOperator, bind_ok (kind_run hc), hw]
    rfl

/-! ## Looser levels -/

/-- The next tighter level. -/
def Level.tighter? : Level → Option Level
  | expression => some disjunction
  | disjunction => some conjunction
  | conjunction => some inversion
  | inversion => some comparison
  | comparison => some bitOr
  | bitOr => some bitXor
  | bitXor => some bitAnd
  | bitAnd => some shift
  | shift => some sum
  | sum => some product
  | product => some factor
  | factor => some power
  | power => some awaited
  | awaited => some atom
  | atom => none

theorem Level.rank_tighter {level next : Level} (h : level.tighter? = some next) :
    next.rank = level.rank + 1 := by
  cases level with
  | atom => exact nomatch h
  | _ =>
    obtain rfl := Option.some.inj h
    rfl

/-- A level whose sign or operator stands neither in front nor behind reads as the next tighter
one. -/
theorem Level.parse_looser {level next : Level} (h : level.tighter? = some next) {read : Reading}
    {field : FieldReading} {c c₁ : Cursor} {w f : Word} {tail more : List Word} {v : Expr}
    (hc : c.words = w :: tail) (hw : w.kind.Begins next)
    (hrun : next.parse read field c = .ok v c₁) (hc₁ : c₁.words = f :: more)
    (hf : f.kind.Ends level) : level.parse read field c = .ok v c₁ := by
  have hopens : ∀ {kind : TokenKind}, ¬ kind.Begins next → w.kind ≠ kind :=
    fun hkind => hw.ne hkind
  have hends : ∀ {kind : TokenKind}, ¬ kind.Ends level → f.kind ≠ kind := by
    rintro _ hkind rfl
    exact hkind hf
  -- Each level asks for its own sign or operator only, which the two word kinds rule out: in front
  -- where it is a prefix, behind the operand where it is an infix.
  cases level with
  | atom => exact nomatch h
  | awaited =>
    obtain rfl := Option.some.inj h
    have hawait : (w.kind == .kwAwait) = false := by simpa using hopens (by decide)
    show Parse.awaited _ _ c = _
    rw [Parse.awaited, bind_ok (at?_run hc _), hawait]
    exact hrun
  | power =>
    obtain rfl := Option.some.inj h
    replace hrun : Parse.awaited read field c = .ok v c₁ := hrun
    show Parse.power _ _ c = _
    rw [Parse.power, bind_ok hrun, bind_ok (accept_false hc₁ (hends (by decide)))]
    rfl
  | factor =>
    obtain rfl := Option.some.inj h
    have hsign : signOf? w.kind = none := by
      cases hkind : w.kind <;> first | rfl | exact absurd hkind (hopens (by decide))
    show Parse.factor _ _ c = _
    rw [Parse.factor, bind_ok (kind_run hc), hsign]
    exact hrun
  | comparison =>
    obtain rfl := Option.some.inj h
    replace hrun : Parse.bitOr read field c = .ok v c₁ := hrun
    have hnone : furtherComparison (Parse.bitOr read field) c₁ = .ok none c₁ := by
      rw [furtherComparison, bind_ok (compareOperator_none hc₁ hf)]
      rfl
    show Parse.comparison _ _ c = _
    rw [Parse.comparison_eq, bind_ok hrun,
      bind_ok ((collect_run _ hc₁).trans (collectUpTo_none hnone _))]
    rfl
  | inversion =>
    obtain rfl := Option.some.inj h
    have hnot : (w.kind == .kwNot) = false := by simpa using hopens (by decide)
    show Parse.inversion _ _ c = _
    rw [Parse.inversion, bind_ok (at?_run hc _), hnot]
    exact hrun
  | conjunction =>
    obtain rfl := Option.some.inj h
    replace hrun : Parse.inversion read field c = .ok v c₁ := hrun
    have hnone : furtherCondition .kwAnd (Parse.inversion read field) c₁ =
        .ok none c₁ := by
      rw [furtherCondition, bind_ok (accept_false hc₁ (hends (by decide)))]
      rfl
    show Parse.joined _ _ _ c = _
    rw [Parse.joined, bind_ok hrun, bind_ok ((collect_run _ hc₁).trans (collectUpTo_none hnone _))]
    rfl
  | disjunction =>
    obtain rfl := Option.some.inj h
    replace hrun : Parse.conjunction read field c = .ok v c₁ := hrun
    have hnone : furtherCondition .kwOr (Parse.conjunction read field) c₁ =
        .ok none c₁ := by
      rw [furtherCondition, bind_ok (accept_false hc₁ (hends (by decide)))]
      rfl
    show Parse.joined _ _ _ c = _
    rw [Parse.joined, bind_ok hrun, bind_ok ((collect_run _ hc₁).trans (collectUpTo_none hnone _))]
    rfl
  | expression =>
    obtain rfl := Option.some.inj h
    replace hrun : Parse.disjunction read field c = .ok v c₁ := hrun
    have hlambda : (w.kind == .kwLambda) = false := by simpa using hopens (by decide)
    show Parse.expression _ _ c = _
    rw [Parse.expression, bind_ok (at?_run hc _), hlambda]
    simp only [Bool.false_eq_true, if_false]
    rw [bind_ok hrun, bind_ok (accept_false hc₁ (hends (by decide)))]
    rfl
  | bitOr | bitXor | bitAnd | shift | sum | product =>
    obtain rfl := Option.some.inj h
    rw [Level.parse_eq_leftAssociative rfl, leftAssociative, bind_ok hrun, iterate_run _ _ hc₁]
    refine iterateUpTo_done ?_ _
    rw [operation, bind_ok (kind_run hc₁), hf.operator?_eq_none]
    rfl

theorem Level.rank_injective : Function.Injective Level.rank := by
  intro a b h
  cases a <;> cases b <;> first | rfl | exact absurd h (by decide)

/-- A level that is not the tightest has a next tighter one. -/
theorem Level.exists_tighter {level next : Level} (h : level.rank < next.rank) :
    ∃ l, level.tighter? = some l := by
  cases level with
  | atom => cases next <;> exact absurd h (by decide)
  | _ => exact ⟨_, rfl⟩

/-- What is read at a level is read at every looser one that the word behind does not carry on. -/
theorem Level.parse_mono {level next : Level} (h : level.rank ≤ next.rank) {read : Reading}
    {field : FieldReading} {c c₁ : Cursor} {w f : Word} {tail more : List Word} {v : Expr}
    (hc : c.words = w :: tail) (hw : w.kind.Begins next)
    (hrun : next.parse read field c = .ok v c₁) (hc₁ : c₁.words = f :: more)
    (hf : f.kind.Ends level) : level.parse read field c = .ok v c₁ := by
  obtain ⟨d, hd⟩ := Nat.exists_eq_add_of_le h
  induction d generalizing level with
  | zero =>
    obtain rfl := Level.rank_injective hd
    exact hrun
  | succ d ih =>
    have hlt : level.rank < next.rank := by omega
    obtain ⟨l, hl⟩ := Level.exists_tighter hlt
    have hrank := Level.rank_tighter hl
    have hparse : l.parse read field c = .ok v c₁ :=
      ih (by omega) (hf.mono (by omega)) (by omega)
    exact parse_looser hl hc (hw.mono (by omega)) hparse hc₁ hf

/-- What a level reads begins with what the next tighter one reads, unless a word of its own stands
in front. -/
theorem Level.exists_of_parse_looser {level next : Level} (h : level.tighter? = some next)
    {read : Reading} {field : FieldReading} {c c' : Cursor} {w : Word} {tail : List Word} {v : Expr}
    (hc : c.words = w :: tail) (hw : w.kind.Begins next)
    (hrun : level.parse read field c = .ok v c') : ∃ u c₁, next.parse read field c = .ok u c₁ := by
  have hopens : ∀ {kind : TokenKind}, ¬ kind.Begins next → (w.kind == kind) = false :=
    fun hkind => by simpa using hw.ne hkind
  cases level with
  | atom => cases h
  | awaited =>
    obtain rfl := Option.some.inj h
    replace hrun : Parse.awaited read field c = .ok v c' := hrun
    rw [Parse.awaited, bind_ok (at?_run hc _), hopens (by decide)] at hrun
    exact ⟨v, c', hrun⟩
  | factor =>
    obtain rfl := Option.some.inj h
    have hsign : signOf? w.kind = none := by
      cases hkind : w.kind <;>
        first | rfl | exact absurd hkind (hw.ne (by decide))
    replace hrun : Parse.factor read field c = .ok v c' := hrun
    rw [Parse.factor, bind_ok (kind_run hc), hsign] at hrun
    exact ⟨v, c', hrun⟩
  | inversion =>
    obtain rfl := Option.some.inj h
    replace hrun : Parse.inversion read field c = .ok v c' := hrun
    rw [Parse.inversion, bind_ok (at?_run hc _), hopens (by decide)] at hrun
    exact ⟨v, c', hrun⟩
  | expression =>
    obtain rfl := Option.some.inj h
    replace hrun : Parse.expression read field c = .ok v c' := hrun
    rw [Parse.expression, bind_ok (at?_run hc _), hopens (by decide)] at hrun
    obtain ⟨u, c₁, hfirst, -⟩ := Parse.exists_of_bind_eq_ok hrun
    exact ⟨u, c₁, hfirst⟩
  | power | comparison | conjunction | disjunction =>
    obtain rfl := Option.some.inj h
    obtain ⟨u, c₁, hfirst, -⟩ := Parse.exists_of_bind_eq_ok hrun
    exact ⟨u, c₁, hfirst⟩
  | bitOr | bitXor | bitAnd | shift | sum | product =>
    obtain rfl := Option.some.inj h
    rw [Level.parse_eq_leftAssociative rfl] at hrun
    obtain ⟨u, c₁, hfirst, -⟩ := Parse.exists_of_bind_eq_ok hrun
    exact ⟨u, c₁, hfirst⟩

/-- What a level reads begins with what a tighter one reads that the first word begins. -/
theorem Level.exists_of_parse_mono {level next : Level} (h : level.rank ≤ next.rank)
    {read : Reading} {field : FieldReading} {c c' : Cursor} {w : Word} {tail : List Word} {v : Expr}
    (hc : c.words = w :: tail) (hw : w.kind.Begins next)
    (hrun : level.parse read field c = .ok v c') : ∃ u c₁, next.parse read field c = .ok u c₁ := by
  obtain ⟨d, hd⟩ := Nat.exists_eq_add_of_le h
  induction d generalizing level v c' with
  | zero =>
    obtain rfl := Level.rank_injective hd
    exact ⟨v, c', hrun⟩
  | succ d ih =>
    have hlt : level.rank < next.rank := by omega
    obtain ⟨l, hl⟩ := Level.exists_tighter hlt
    have hrank := Level.rank_tighter hl
    obtain ⟨u, c₁, htighter⟩ := Level.exists_of_parse_looser hl hc (hw.mono (by omega)) hrun
    exact ih (by omega) htighter (by omega)

/-- What reads at a level reads at every looser one. -/
theorem Reads.mono {level next : Level} (h : level.rank ≤ next.rank) {ws : List Word} {e : Expr}
    (hr : Reads next ws e) : Reads level ws e where
  toOpens := hr.toOpens.mono h
  run := by
    intro field n c f more hn hc hf
    obtain ⟨v, c₁, hrun, hc₁, hv⟩ := hr.run field n c f more hn hc (hf.mono h)
    obtain ⟨w, tail, rfl, hw⟩ := hr.begins
    exact ⟨v, c₁, Level.parse_mono h hc hw hrun hc₁ hf, hc₁, hv⟩

/-- A level that repeats a step: operations, or attributes, calls and subscripts. -/
def Level.Repeats (level : Level) : Prop := level.operand?.isSome ∨ level = .atom

instance (level : Level) : Decidable level.Repeats := inferInstanceAs (Decidable (_ ∨ _))

/-- Words that hold together as an expression at a level, so that a step of the level may follow. -/
structure Fits (level : Level) (ws : List Word) (e : Expr) : Prop where
  reads : Reads level ws e
  leads : level.Repeats → Leads level ws e

/-- What leads to an expression holds together. -/
theorem Leads.fits {level : Level} {ws : List Word} {e : Expr} (h : Leads level ws e)
    (hlevel : level.Repeats) : Fits level ws e :=
  ⟨h.reads hlevel, fun _ => h⟩

/-- What reads as an expression holds together where no step may follow. -/
theorem Reads.fits {level : Level} {ws : List Word} {e : Expr} (h : Reads level ws e)
    (hlevel : ¬ level.Repeats) : Fits level ws e :=
  ⟨h, fun hrepeats => absurd hrepeats hlevel⟩

/-- What holds together at a level does so at every looser one. -/
theorem Fits.mono {level next : Level} (h : level.rank ≤ next.rank) {ws : List Word} {e : Expr}
    (hfits : Fits next ws e) : Fits level ws e where
  reads := hfits.reads.mono h
  leads := by
    intro hlevel
    by_cases hsame : level = next
    · subst hsame
      exact hfits.leads hlevel
    have hlt : level.rank < next.rank :=
      Nat.lt_of_le_of_ne h fun hrank => hsame (Level.rank_injective hrank)
    obtain hoperand | rfl := hlevel
    · obtain ⟨operand, hoperand⟩ := Option.isSome_iff_exists.mp hoperand
      have hrank := Level.rank_operand hoperand
      have hreads : Reads operand ws e := hfits.reads.mono (by omega)
      exact hreads.leads hoperand
    · cases next <;> exact absurd hlt (by decide)

/-! ## Signs -/

/-- An awaited atom. -/
theorem Reads.await {w : Word} {ws : List Word} {e : Expr} (hw : w.kind = .kwAwait)
    (h : Reads .atom ws e) : Reads .awaited (w :: ws) (.new (.await e)) where
  toOpens := by
    simpa using h.toOpens.cons rfl (by rw [hw]; decide) []
  run := by
    intro field n c f more hn hc hf
    rw [List.length_cons] at hn
    obtain ⟨v, c', hrun, hc', hv⟩ := h.run field n c.advance f more (by omega)
      (Cursor.words_advance hc (by simp)) (hf.mono (by decide))
    refine ⟨.node (c'.spanFrom c.peek.start) (.await v), c', ?_, hc', ?_⟩
    · replace hrun : Parse.primary (readUpTo field n) field c.advance = .ok v c' := hrun
      show Parse.awaited _ _ c = _
      rw [Parse.awaited, bind_ok (at?_run hc _), hw]
      simp only [beq_self_eq_true, if_true]
      rw [bind_ok (next_run c), bind_ok hrun]
      rfl
    · rw [Expr.bare, Expr.Shape.bare, hv]
      rfl

/-- A power. -/
theorem Reads.pow {ws ws' : List Word} {w : Word} {l r : Expr} (hw : w.kind = .doubleStar)
    (hl : Reads .awaited ws l) (hr : Reads .factor ws' r) :
    Reads .power (ws ++ w :: ws') (.new (.binary .pow l r)) where
  toOpens := (hl.toOpens.mono (by decide)).append rfl (by rw [hw]; decide) ws'
  run := by
    intro field n c f more hn hc hf
    rw [List.length_append, List.length_cons] at hn
    rw [List.append_assoc, List.cons_append] at hc
    obtain ⟨v, c₁, hrun, hc₁, hv⟩ := hl.run field n c w (ws' ++ f :: more) (by omega) hc
      (by rw [hw]; decide)
    obtain ⟨v', c₂, hrun', hc₂, hv'⟩ := hr.read (g := .factor) field (n := n) (by omega)
      (Cursor.words_advance hc₁ (by simp)) (hf.ends_factor)
    refine ⟨.node (c₂.spanFrom v.span.start) (.binary .pow v v'), c₂, ?_, hc₂, ?_⟩
    · show Parse.power _ _ c = _
      replace hrun : Parse.awaited (readUpTo field n) field c = .ok v c₁ := hrun
      rw [Parse.power, bind_ok hrun, bind_ok (accept_true hc₁ hw)]
      simp only [if_true]
      rw [bind_ok hrun']
      rfl
    · rw [Expr.bare, Expr.Shape.bare, hv, hv']
      rfl

/-- A sign in front of an operand. -/
theorem Reads.sign {w : Word} {ws : List Word} {op : UnaryOperator} {e : Expr}
    (hw : signOf? w.kind = some op) (h : Reads .factor ws e) :
    Reads .factor (w :: ws) (.new (.unary op e)) where
  toOpens := by
    have hbegins : w.kind.Begins .factor := by
      cases hkind : w.kind <;> rw [hkind] at hw <;> first | decide | exact nomatch hw
    simpa using h.toOpens.cons rfl hbegins []
  run := by
    intro field n c f more hn hc hf
    obtain ⟨v, c', hrun, hc', hv⟩ := h.read (g := .factor) field hn
      (Cursor.words_advance hc (by simp)) hf
    refine ⟨.node (c'.spanFrom c.peek.start) (.unary op v), c', ?_, hc', ?_⟩
    · show Parse.factor _ _ c = _
      rw [Parse.factor, bind_ok (kind_run hc), hw]
      dsimp only
      rw [bind_ok (next_run c), bind_ok hrun]
      rfl
    · rw [Expr.bare, Expr.Shape.bare, hv]
      rfl

/-- A negation. -/
theorem Reads.not {w : Word} {ws : List Word} {e : Expr} (hw : w.kind = .kwNot)
    (h : Reads .inversion ws e) : Reads .inversion (w :: ws) (.new (.unary .not e)) where
  toOpens := by
    simpa using h.toOpens.cons rfl (by rw [hw]; decide) []
  run := by
    intro field n c f more hn hc hf
    obtain ⟨v, c', hrun, hc', hv⟩ := h.read (g := .inversion) field hn
      (Cursor.words_advance hc (by simp)) hf
    refine ⟨.node (c'.spanFrom c.peek.start) (.unary .not v), c', ?_, hc', ?_⟩
    · show Parse.inversion _ _ c = _
      rw [Parse.inversion, bind_ok (at?_run hc _), hw]
      simp only [beq_self_eq_true, if_true]
      rw [bind_ok (next_run c), bind_ok hrun]
      rfl
    · rw [Expr.bare, Expr.Shape.bare, hv]
      rfl

/-! ## Chains -/

/-- A comparison that is the given one apart from positions. -/
def Further.IsComparison (a : Comparison) (x : Further CompareOperator) : Prop :=
  ∃ v, a = .mk x.op v ∧ v.bare = x.value

/-- A further comparison is read where the chain goes on or ends behind it. -/
theorem Parse.furtherComparison_reads {x : Further CompareOperator}
    (hsign : x.sign.map Word.kind = x.op.kinds) (hx : Reads .bitOr x.words x.value)
    (field : FieldReading) {n : Nat} (hn : x.words.length ≤ n) :
    ReadsItem (furtherComparison (Parse.bitOr (readUpTo field n) field)) (·.Ends .bitOr) x.all
      (Further.IsComparison · x) where
  begins := by
    obtain ⟨sign, op, words, value⟩ := x
    cases op <;> (
      obtain ⟨w, sign, rfl, hw, -⟩ := List.map_eq_cons_iff.mp hsign
      exact ⟨w, sign ++ words, rfl, by rw [hw]; decide⟩)
  run := by
    intro c f more hc hf
    rw [Further.all, List.append_assoc] at hc
    obtain ⟨w, tail, hws, hw⟩ := hx.begins
    have hwords : c.words = x.sign ++ w :: (tail ++ f :: more) := by rw [hc, hws]; rfl
    obtain ⟨c₁, hop, hc₁⟩ := compareOperator_some hsign hwords (hw.ne (by decide))
    obtain ⟨v, c₂, hrun, hc₂, hv⟩ := hx.run field n c₁ f more hn (by rw [hc₁, hws]; rfl) hf
    replace hrun : Parse.bitOr (readUpTo field n) field c₁ = .ok v c₂ := hrun
    refine ⟨.mk x.op v, c₂, ?_, hc₂, v, rfl, hv⟩
    rw [furtherComparison, bind_ok hop]
    dsimp only
    rw [bind_ok hrun]
    rfl

/-- A part of the words of a list is shorter than all of them. -/
theorem Further.length_words_le {α : Type} {x : Further α} {rest : List (Further α)}
    (hx : x ∈ rest) : x.words.length ≤ (rest.flatMap Further.all).length := by
  obtain ⟨before, after, rfl⟩ := List.append_of_mem hx
  rw [List.flatMap_append, List.flatMap_cons, Further.all]
  simp only [List.length_append]
  omega

/-- Words in front of the first of several operators open the same levels. -/
theorem Opens.append_further {α : Type} {level : Level} {ws : List Word} {e e' : Expr}
    {rest : List (Further α)} (h : Opens level ws e) (he' : e'.isStarred = false)
    (hrest : rest ≠ [])
    (hsigns : ∀ x ∈ rest, ∃ w tail, x.sign = w :: tail ∧ w.kind ≠ .colonEqual ∧ w.kind ≠ .equal) :
    Opens level (ws ++ rest.flatMap Further.all) e' := by
  obtain ⟨x, more, rfl⟩ := List.exists_cons_of_ne_nil hrest
  obtain ⟨w, tail, hsign, hw⟩ := hsigns x (by simp)
  have hwords : (x :: more).flatMap Further.all =
      w :: (tail ++ x.words ++ more.flatMap Further.all) := by
    rw [List.flatMap_cons, Further.all, hsign]
    rfl
  rw [hwords]
  exact h.append he' hw _

/-- The words of a comparison begin with none of the signs of assignments. -/
theorem CompareOperator.exists_sign {op : CompareOperator} {sign : List Word}
    (h : sign.map Word.kind = op.kinds) :
    ∃ w tail, sign = w :: tail ∧ w.kind ≠ .colonEqual ∧ w.kind ≠ .equal := by
  cases op <;> (
    obtain ⟨w, tail, rfl, hw, -⟩ := List.map_eq_cons_iff.mp h
    exact ⟨w, tail, rfl, by rw [hw]; decide⟩)

/-- Comparisons that are the given ones apart from positions. -/
theorem Comparison.bareAll_eq {as : List Comparison} {rest : List (Further CompareOperator)}
    (h : List.Forall₂ Further.IsComparison as rest) :
    Comparison.bareAll as = rest.map fun x => .mk x.op x.value := by
  induction h with
  | nil => rfl
  | cons ha _ ih =>
    obtain ⟨v, rfl, hv⟩ := ha
    rw [Comparison.bareAll, hv, ih]
    rfl

/-- An operand is read, and then what stands behind it item by item. -/
theorem Reads.run_further {α β : Type} {next : Level} {ws : List Word} {e : Expr}
    {rest : List (Further α)} {item : Parse (Option β)} (result : β → Further α → Prop)
    (h : Reads next ws e) {field : FieldReading} {n : Nat} (hn : ws.length ≤ n)
    (hitems : ∀ x ∈ rest, ReadsItem item (·.Ends next) x.all (result · x)) {c : Cursor} {f : Word}
    {more : List Word} (hc : c.words = ws ++ (rest.flatMap Further.all ++ f :: more))
    (hf : f.kind.Ends next) (hstop : ∀ c : Cursor, c.words = f :: more → item c = .ok none c) :
    ∃ v c₁ as c₂, next.parse (readUpTo field n) field c = .ok v c₁ ∧ v.bare = e ∧
      collect item c₁ = .ok as c₂ ∧ c₂.words = f :: more ∧ List.Forall₂ result as rest := by
  obtain ⟨f', more', hnext, hf'⟩ := exists_next_item more hitems hf
  obtain ⟨v, c₁, hrun, hc₁, hv⟩ := h.run field n c f' more' hn (by rw [hc, hnext]) hf'
  obtain ⟨as, c₂, hcollect, hc₂, has⟩ := collect_items hitems hf
    (fun c' hc' => ⟨c', hstop c' hc', hc'⟩) (by rw [hc₁, ← hnext])
  exact ⟨v, c₁, as, c₂, hrun, hv, hcollect, hc₂, has⟩

/-- A chain of comparisons. -/
theorem Reads.chain {ws : List Word} {e : Expr} {rest : List (Further CompareOperator)}
    (h : Reads .bitOr ws e) (hrest : rest ≠ [])
    (hsigns : ∀ x ∈ rest, x.sign.map Word.kind = x.op.kinds)
    (hoperands : ∀ x ∈ rest, Reads .bitOr x.words x.value) :
    Reads .comparison (ws ++ rest.flatMap Further.all)
      (.new (.compare e (rest.map fun x => .mk x.op x.value))) where
  toOpens := (h.toOpens.mono (by decide)).append_further rfl hrest
    fun x hx => CompareOperator.exists_sign (hsigns x hx)
  run := by
    intro field n c f more hn hc hf
    rw [List.length_append] at hn
    rw [List.append_assoc] at hc
    have hitems : ∀ x ∈ rest, ReadsItem
        (furtherComparison (Parse.bitOr (readUpTo field n) field)) (·.Ends .bitOr) x.all
        (Further.IsComparison · x) := by
      intro x hx
      have := Further.length_words_le hx
      exact furtherComparison_reads (hsigns x hx) (hoperands x hx) field (by omega)
    have hstop : ∀ c : Cursor, c.words = f :: more →
        furtherComparison (Parse.bitOr (readUpTo field n) field) c = .ok none c := by
      intro c hc
      rw [furtherComparison, bind_ok (compareOperator_none hc hf)]
      rfl
    obtain ⟨v, c₁, as, c₂, hrun, hv, hcollect, hc₂, has⟩ :=
      h.run_further Further.IsComparison (n := n) (by omega) hitems hc (hf.mono (by decide)) hstop
    replace hrun : Parse.bitOr (readUpTo field n) field c = .ok v c₁ := hrun
    have hlength : as.length ≠ 0 := by
      rw [has.length_eq]
      exact mt List.length_eq_zero_iff.mp hrest
    refine ⟨.node (c₂.spanFrom v.span.start) (.compare v as), c₂, ?_, hc₂, ?_⟩
    · show Parse.comparison _ _ c = _
      rw [Parse.comparison_eq, bind_ok hrun, bind_ok hcollect, if_neg hlength]
      rfl
    · rw [Expr.bare, Expr.Shape.bare, hv, Comparison.bareAll_eq has]
      rfl

/-! ## Conditions -/

/-- Expressions that are the given ones apart from positions. -/
theorem Expr.bareAll_eq {α : Type} {as : List Expr} {rest : List α} {value : α → Expr}
    (h : List.Forall₂ (fun a x => a.bare = value x) as rest) :
    Expr.bareAll as = rest.map value := by
  induction h with
  | nil => rfl
  | cons ha _ ih =>
    rw [Expr.bareAll, ha, ih]
    rfl

/-- A level of joined conditions reads its conditions one after the other. -/
theorem BoolOperator.parse_level (op : BoolOperator) (read : Reading) (field : FieldReading) :
    op.level.parse read field = joined op op.kind (op.operandLevel.parse read field) := by
  cases op <;> rfl

/-- A further condition is read where the conditions go on or end behind it. -/
theorem Parse.furtherCondition_reads {op : BoolOperator} {x : Further BoolOperator} {w : Word}
    (hsign : x.sign = [w]) (hw : w.kind = op.kind) (hx : Reads op.operandLevel x.words x.value)
    (field : FieldReading) {n : Nat} (hn : x.words.length ≤ n) :
    ReadsItem (furtherCondition op.kind (op.operandLevel.parse (readUpTo field n) field))
      (·.Ends op.operandLevel) x.all (·.bare = x.value) where
  begins := ⟨w, x.words, by rw [Further.all, hsign]; rfl, by rw [hw]; cases op <;> decide⟩
  run := by
    intro c f more hc hf
    rw [Further.all, hsign] at hc
    obtain ⟨v, c', hrun, hc', hv⟩ := hx.run field n c.advance f more hn
      (Cursor.words_advance hc (by simp)) hf
    refine ⟨v, c', ?_, hc', hv⟩
    rw [furtherCondition, bind_ok (accept_true hc hw)]
    simp only [if_true]
    rw [bind_ok hrun]
    rfl

/-- Conditions joined by one operator. -/
theorem Reads.joined {op : BoolOperator} {ws : List Word} {e : Expr}
    {rest : List (Further BoolOperator)} (h : Reads op.operandLevel ws e) (hrest : rest ≠ [])
    (hsigns : ∀ x ∈ rest, ∃ w, x.sign = [w] ∧ w.kind = op.kind)
    (hoperands : ∀ x ∈ rest, Reads op.operandLevel x.words x.value) :
    Reads op.level (ws ++ rest.flatMap Further.all)
      (.new (.boolean op (e :: rest.map Further.value))) where
  toOpens := by
    refine (h.toOpens.mono (by cases op <;> decide)).append_further rfl hrest fun x hx => ?_
    obtain ⟨w, hsign, hw⟩ := hsigns x hx
    exact ⟨w, [], hsign, by rw [hw]; cases op <;> decide⟩
  run := by
    intro field n c f more hn hc hf
    rw [List.length_append] at hn
    rw [List.append_assoc] at hc
    have hitems : ∀ x ∈ rest, ReadsItem
        (furtherCondition op.kind (op.operandLevel.parse (readUpTo field n) field))
        (·.Ends op.operandLevel) x.all (·.bare = x.value) := by
      intro x hx
      have := Further.length_words_le hx
      obtain ⟨w, hsign, hw⟩ := hsigns x hx
      exact furtherCondition_reads hsign hw (hoperands x hx) field (by omega)
    have hkind : f.kind ≠ op.kind := by
      rintro hkind
      rw [hkind] at hf
      cases op <;> exact absurd hf (by decide)
    have hstop : ∀ c : Cursor, c.words = f :: more →
        furtherCondition op.kind (op.operandLevel.parse (readUpTo field n) field) c =
          .ok none c := by
      intro c hc
      rw [furtherCondition, bind_ok (accept_false hc hkind)]
      rfl
    obtain ⟨v, c₁, as, c₂, hrun, hv, hcollect, hc₂, has⟩ :=
      h.run_further (fun a x => a.bare = x.value) (n := n) (by omega) hitems hc
        (hf.mono (by cases op <;> decide)) hstop
    have hlength : as.length ≠ 0 := by
      rw [has.length_eq]
      exact mt List.length_eq_zero_iff.mp hrest
    refine ⟨.node (c₂.spanFrom v.span.start) (.boolean op (v :: as)), c₂, ?_, hc₂, ?_⟩
    · rw [BoolOperator.parse_level, Parse.joined, bind_ok hrun, bind_ok hcollect, if_neg hlength]
      rfl
    · rw [Expr.bare, Expr.Shape.bare, Expr.bareAll, hv, Expr.bareAll_eq has]
      rfl

/-- A conditional expression. -/
theorem Reads.conditional {ws ws₁ ws₂ : List Word} {wIf wElse : Word} {body test orelse : Expr}
    (hbody : Reads .disjunction ws body) (hif : wIf.kind = .kwIf)
    (htest : Reads .disjunction ws₁ test) (helse : wElse.kind = .kwElse)
    (horelse : Reads .expression ws₂ orelse) :
    Reads .expression (ws ++ wIf :: (ws₁ ++ wElse :: ws₂))
      (.new (.conditional test body orelse)) where
  toOpens := (hbody.toOpens.mono (by decide)).append rfl (by rw [hif]; decide) _
  run := by
    intro field n c f more hn hc hf
    simp only [List.length_append, List.length_cons] at hn
    simp only [List.append_assoc, List.cons_append] at hc
    obtain ⟨v, c₁, hrun, hc₁, hv⟩ := hbody.run field n c wIf _ (by omega) hc (by rw [hif]; decide)
    obtain ⟨v₁, c₂, hrun₁, hc₂, hv₁⟩ := htest.read (g := .disjunction) field (n := n) (by omega)
      (Cursor.words_advance hc₁ (by simp)) (by rw [helse]; decide)
    obtain ⟨v₂, c₃, hrun₂, hc₃, hv₂⟩ := horelse.read (g := .expression) field (n := n) (by omega)
      (Cursor.words_advance hc₂ (by simp)) hf
    obtain ⟨w, tail, hws, hw⟩ := hbody.begins
    have hlambda : (w.kind == .kwLambda) = false := by simpa using hw.ne (by decide)
    replace hrun : Parse.disjunction (readUpTo field n) field c = .ok v c₁ := hrun
    refine ⟨.node (c₃.spanFrom v.span.start) (.conditional v₁ v v₂), c₃, ?_, hc₃, ?_⟩
    · show Parse.expression _ _ c = _
      rw [Parse.expression, bind_ok (at?_run (by rw [hc, hws]; rfl) _), hlambda]
      simp only [Bool.false_eq_true, if_false]
      rw [bind_ok hrun, bind_ok (accept_true hc₁ hif)]
      simp only [if_true]
      rw [bind_ok hrun₁, bind_ok (expect_run .conditionalElse hc₂ helse), bind_ok hrun₂]
      rfl
    · rw [Expr.bare, Expr.Shape.bare, hv, hv₁, hv₂]
      rfl

end SyntaxTree
