import SyntaxTree.Proofs.Grammar.Climb
import SyntaxTree.Proofs.Number.Value

/-
# The grammar of operators

The grammar of names, integers, parentheses and operators as a relation between words and trees, and
its completeness: words that it derives read as the tree of their derivation.
-/

namespace SyntaxTree

open Parse

/-! ## The grammar -/

/-- The operand behind further operators that associate to the left. -/
def Further.applied (first : Expr) (rest : List (Further BinaryOperator)) : Expr :=
  rest.foldl (fun left x => .new (.binary x.op left x.value)) first

/-- The signs in front of an operand, each with its word. -/
def UnaryOperator.signs : List (TokenKind × UnaryOperator) :=
  [(.plus, .plus), (.minus, .minus), (.tilde, .invert)]

/-- The reading of an operand finds its signs. -/
theorem UnaryOperator.mem_signs_iff {kind : TokenKind} {op : UnaryOperator} :
    (kind, op) ∈ signs ↔ signOf? kind = some op := by
  constructor
  · have hfound : ∀ x ∈ signs, signOf? x.1 = some x.2 := by decide
    exact hfound (kind, op)
  · intro h
    cases kind <;> first | (obtain rfl := Option.some.inj h; decide) | exact nomatch h

/-- The words that form an expression at a level, and its tree. -/
inductive Derives : Level → List Word → Expr → Prop where
  | name {w : Word} (hw : w.kind = .identifier) : Derives .atom [w] (.new (.name w.text .load))
  | integer {w : Word} {numeral : Bytes} (hw : w.kind = .integer)
    (hnumeral : Number.HasNumeral w.text numeral) :
    Derives .atom [w] (.new (.constant (.integer numeral)))
  | group {o close : Word} {ws : List Word} {e : Expr} (ho : o.kind = .openParen)
    (hclose : close.kind = .closeParen) (h : Derives .expression ws e) :
    Derives .atom (o :: (ws ++ [close])) e
  | await {w : Word} {ws : List Word} {e : Expr} (hw : w.kind = .kwAwait)
    (h : Derives .atom ws e) : Derives .awaited (w :: ws) (.new (.await e))
  | pow {w : Word} {ws ws' : List Word} {l r : Expr} (hl : Derives .awaited ws l)
    (hw : w.kind = .doubleStar) (hr : Derives .factor ws' r) :
    Derives .power (ws ++ w :: ws') (.new (.binary .pow l r))
  | sign {w : Word} {ws : List Word} {op : UnaryOperator} {e : Expr}
    (hw : (w.kind, op) ∈ UnaryOperator.signs) (h : Derives .factor ws e) :
    Derives .factor (w :: ws) (.new (.unary op e))
  /-- Products, sums, shifts and the bitwise operations, which associate to the left. -/
  | operations {level next : Level} {ws : List Word} {e : Expr}
    {rest : List (Further BinaryOperator)} (hnext : level.operand? = some next)
    (h : Derives next ws e)
    (hsigns : ∀ x ∈ rest, ∃ w, x.sign = [w] ∧ (w.kind, x.op) ∈ level.operators)
    (hoperands : ∀ x ∈ rest, Derives next x.words x.value) :
    Derives level (ws ++ rest.flatMap Further.all) (Further.applied e rest)
  | chain {ws : List Word} {e : Expr} {rest : List (Further CompareOperator)}
    (h : Derives .bitOr ws e) (hrest : rest ≠ [])
    (hsigns : ∀ x ∈ rest, x.sign.map Word.kind = x.op.kinds)
    (hoperands : ∀ x ∈ rest, Derives .bitOr x.words x.value) :
    Derives .comparison (ws ++ rest.flatMap Further.all)
      (.new (.compare e (rest.map fun x => .mk x.op x.value)))
  | not {w : Word} {ws : List Word} {e : Expr} (hw : w.kind = .kwNot)
    (h : Derives .inversion ws e) : Derives .inversion (w :: ws) (.new (.unary .not e))
  | joined {op : BoolOperator} {ws : List Word} {e : Expr} {rest : List (Further BoolOperator)}
    (h : Derives op.operandLevel ws e) (hrest : rest ≠ [])
    (hsigns : ∀ x ∈ rest, ∃ w, x.sign = [w] ∧ w.kind = op.kind)
    (hoperands : ∀ x ∈ rest, Derives op.operandLevel x.words x.value) :
    Derives op.level (ws ++ rest.flatMap Further.all)
      (.new (.boolean op (e :: rest.map Further.value)))
  | conditional {ws ws₁ ws₂ : List Word} {wIf wElse : Word} {body test orelse : Expr}
    (hbody : Derives .disjunction ws body) (hif : wIf.kind = .kwIf)
    (htest : Derives .disjunction ws₁ test) (helse : wElse.kind = .kwElse)
    (horelse : Derives .expression ws₂ orelse) :
    Derives .expression (ws ++ wIf :: (ws₁ ++ wElse :: ws₂))
      (.new (.conditional test body orelse))
  /-- A level includes the tighter ones. -/
  | looser {level next : Level} {ws : List Word} {e : Expr} (hrank : level.rank ≤ next.rank)
    (h : Derives next ws e) : Derives level ws e

/-! ## Completeness -/

/-- Operations lead to the tree that associates to the left. -/
theorem Leads.operations {level next : Level} (hnext : level.operand? = some next) :
    ∀ {rest : List (Further BinaryOperator)} {ws : List Word} {e : Expr}, Leads level ws e →
      (∀ x ∈ rest, ∃ w, x.sign = [w] ∧ (w.kind, x.op) ∈ level.operators) →
      (∀ x ∈ rest, Reads next x.words x.value) →
      Leads level (ws ++ rest.flatMap Further.all) (Further.applied e rest) := by
  intro rest
  induction rest with
  | nil =>
    intro ws e h _ _
    simpa [Further.applied] using h
  | cons x rest ih =>
    intro ws e h hsigns hoperands
    obtain ⟨w, hsign, hop⟩ := hsigns x (by simp)
    have hfirst := h.operation hnext (Level.mem_operators_iff.mp hop) (hoperands x (by simp))
    have hrest := ih hfirst (fun y hy => hsigns y (List.mem_cons_of_mem x hy))
      (fun y hy => hoperands y (List.mem_cons_of_mem x hy))
    rw [List.flatMap_cons, Further.all, hsign, ← List.append_assoc]
    exact hrest

/-- Words that the grammar derives read as the tree of the derivation. -/
theorem Derives.reads {level : Level} {ws : List Word} {e : Expr} (h : Derives level ws e) :
    Reads level ws e := by
  induction h with
  | name hw => exact (Leads.name hw).reads (.inr rfl)
  | @integer w numeral hw hnumeral =>
    obtain ⟨kind, s⟩ := w
    obtain rfl : kind = .integer := hw
    obtain rfl := Number.hasNumeral_iff.mp hnumeral
    exact (Leads.integer (t := .empty .integer s .origin) rfl).reads (.inr rfl)
  | group ho hclose _ ih => exact (Leads.group ho hclose ih).reads (.inr rfl)
  | await hw _ ih => exact Reads.await hw ih
  | pow _ hw _ ihl ihr => exact Reads.pow hw ihl ihr
  | sign hw _ ih => exact Reads.sign (UnaryOperator.mem_signs_iff.mp hw) ih
  | operations hnext _ hsigns _ ih ihs =>
    have hlevel := Option.isSome_iff_exists.mpr ⟨_, hnext⟩
    exact (Leads.operations hnext (ih.leads hnext) hsigns ihs).reads (.inl hlevel)
  | chain _ hrest hsigns _ ih ihs => exact Reads.chain ih hrest hsigns ihs
  | not hw _ ih => exact Reads.not hw ih
  | joined _ hrest hsigns _ ih ihs => exact Reads.joined ih hrest hsigns ihs
  | conditional _ hif _ helse _ ih ih₁ ih₂ => exact Reads.conditional ih hif ih₁ helse ih₂
  | looser hrank _ ih => exact ih.mono hrank

end SyntaxTree
