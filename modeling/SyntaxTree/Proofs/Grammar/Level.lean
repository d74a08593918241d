import SyntaxTree.Proofs.Grammar.Word
import SyntaxTree.Proofs.Tree.Bare

/-
# The levels of the grammar

Each level of the grammar has words that can begin it and words that would carry it on.  Words read
as an expression at a level if the reading of that level takes exactly them, whenever a word follows
that does not carry the level on.
-/

namespace SyntaxTree

/-! ## Levels -/

/-- The levels of the grammar of expressions, the loosest first. -/
inductive Level where
  | expression | disjunction | conjunction | inversion | comparison
  | bitOr | bitXor | bitAnd | shift | sum | product | factor | power | awaited
  /-- An atom with the attributes, calls and subscripts behind it. -/
  | atom
  deriving DecidableEq, Repr

namespace Level

/-- How tightly a level binds. -/
def rank : Level → Nat
  | expression => 0
  | disjunction => 1
  | conjunction => 2
  | inversion => 3
  | comparison => 4
  | bitOr => 5
  | bitXor => 6
  | bitAnd => 7
  | shift => 8
  | sum => 9
  | product => 10
  | factor => 11
  | power => 12
  | awaited => 13
  | atom => 14

/-- The reading of a level. -/
def parse (read : Reading) (field : FieldReading) : Level → Parse Expr
  | expression => Parse.expression read field
  | disjunction => Parse.disjunction read field
  | conjunction => Parse.conjunction read field
  | inversion => Parse.inversion read field
  | comparison => Parse.comparison read field
  | bitOr => Parse.bitOr read field
  | bitXor => Parse.bitXor read field
  | bitAnd => Parse.bitAnd read field
  | shift => Parse.shift read field
  | sum => Parse.sum read field
  | product => Parse.product read field
  | factor => Parse.factor read field
  | power => Parse.power read field
  | awaited => Parse.awaited read field
  | atom => Parse.primary read field

/-- The operators of the levels that are sequences of operands, each with its word. -/
def operators : Level → List (TokenKind × BinaryOperator)
  | bitOr => [(.pipe, .bitOr)]
  | bitXor => [(.caret, .bitXor)]
  | bitAnd => [(.ampersand, .bitAnd)]
  | shift => [(.shiftLeft, .shiftLeft), (.shiftRight, .shiftRight)]
  | sum => [(.plus, .add), (.minus, .sub)]
  | product =>
    [(.star, .mul), (.slash, .div), (.doubleSlash, .floorDiv), (.percent, .mod), (.atSign, .matMul)]
  | _ => []

/-- The operator that the reading of a level finds in a word. -/
def operator? : Level → TokenKind → Option BinaryOperator
  | bitOr => Parse.bitOrOf?
  | bitXor => Parse.bitXorOf?
  | bitAnd => Parse.bitAndOf?
  | shift => Parse.shiftOf?
  | sum => Parse.sumOf?
  | product => Parse.productOf?
  | _ => fun _ => none

/-- The reading of a level finds its operators. -/
theorem mem_operators_iff {level : Level} {kind : TokenKind} {op : BinaryOperator} :
    (kind, op) ∈ level.operators ↔ level.operator? kind = some op := by
  constructor
  · have hfound : ∀ x ∈ level.operators, level.operator? x.1 = some x.2 := by cases level <;> decide
    exact hfound (kind, op)
  · intro h
    cases level with
    | bitOr | bitXor | bitAnd | shift | sum | product =>
      cases kind <;> first | (obtain rfl := Option.some.inj h; decide) | exact nomatch h
    | _ => exact nomatch h

/-- The level of the operands of a level with binary operators. -/
def operand? : Level → Option Level
  | bitOr => some bitXor
  | bitXor => some bitAnd
  | bitAnd => some shift
  | shift => some sum
  | sum => some product
  | product => some factor
  | _ => none

/-- A level with binary operators reads its operands one after the other. -/
theorem parse_eq_leftAssociative {level next : Level} (h : level.operand? = some next)
    (read : Reading) (field : FieldReading) :
    level.parse read field =
      Parse.leftAssociative level.operator? (next.parse read field) := by
  cases level with
  | bitOr | bitXor | bitAnd | shift | sum | product =>
    obtain rfl := Option.some.inj h
    rfl
  | _ => exact nomatch h

/-- A further operation of a level with binary operators, or a further trailer of an atom. -/
def step (read : Reading) (field : FieldReading) (level : Level) (value : Expr) :
    Parse (ForInStep Expr) :=
  match level.operand? with
  | some next => Parse.operation level.operator? (next.parse read field) value
  | none => Parse.trailer read value

theorem step_of_operand {level next : Level} (h : level.operand? = some next) (read : Reading)
    (field : FieldReading) :
    level.step read field = Parse.operation level.operator? (next.parse read field) := by
  funext value
  rw [step, h]

theorem rank_operand {level next : Level} (h : level.operand? = some next) :
    next.rank = level.rank + 1 := by
  cases level with
  | bitOr | bitXor | bitAnd | shift | sum | product =>
    obtain rfl := Option.some.inj h
    rfl
  | _ => exact nomatch h

end Level

/-! ## What words do at a level -/

namespace TokenKind

/-- The tightest level that a word can begin, if any. -/
def opens? : TokenKind → Option Level
  | .identifier | .integer | .float | .imaginary | .string | .bytes | .fstring | .boolean |
    .noneWord
  | .ellipsis | .openParen | .openBracket | .openBrace => some .atom
  | .kwAwait => some .awaited
  | .plus | .minus | .tilde => some .factor
  | .kwNot => some .inversion
  | .kwLambda => some .expression
  | _ => none

/-- The level that a word carries on behind an expression, if any. -/
def continues? : TokenKind → Option Level
  | .dot | .openParen | .openBracket | .string | .bytes | .fstring => some .atom
  | .doubleStar => some .power
  | .star | .slash | .doubleSlash | .percent | .atSign => some .product
  | .plus | .minus => some .sum
  | .shiftLeft | .shiftRight => some .shift
  | .ampersand => some .bitAnd
  | .caret => some .bitXor
  | .pipe => some .bitOr
  | .equalEqual | .notEqual | .less | .lessEqual | .greater | .greaterEqual | .kwIn | .kwIs
  | .kwNot => some .comparison
  | .kwAnd => some .conjunction
  | .kwOr => some .disjunction
  | .kwIf => some .expression
  | _ => none

/-- A word that can begin a level. -/
def Begins (kind : TokenKind) (level : Level) : Prop :=
  ∃ l ∈ kind.opens?, level.rank ≤ l.rank

/-- A word that carries on no level tighter than the given one. -/
def EndsAbove (kind : TokenKind) (level : Level) : Prop :=
  ∀ l ∈ kind.continues?, l.rank ≤ level.rank

/-- A word that carries on neither a level nor a tighter one. -/
def Ends (kind : TokenKind) (level : Level) : Prop :=
  ∀ l ∈ kind.continues?, l.rank < level.rank

instance (kind : TokenKind) (level : Level) : Decidable (kind.Begins level) :=
  inferInstanceAs (Decidable (∃ l ∈ kind.opens?, level.rank ≤ l.rank))

instance (kind : TokenKind) (level : Level) : Decidable (kind.EndsAbove level) :=
  inferInstanceAs (Decidable (∀ l ∈ kind.continues?, l.rank ≤ level.rank))

instance (kind : TokenKind) (level : Level) : Decidable (kind.Ends level) :=
  inferInstanceAs (Decidable (∀ l ∈ kind.continues?, l.rank < level.rank))

/-- A word that begins a level begins every looser one. -/
theorem Begins.mono {kind : TokenKind} {level next : Level} (h : kind.Begins next)
    (hrank : level.rank ≤ next.rank) : kind.Begins level := by
  obtain ⟨l, hl, hle⟩ := h
  exact ⟨l, hl, Nat.le_trans hrank hle⟩

/-- A word that ends a level ends every tighter one. -/
theorem Ends.mono {kind : TokenKind} {level next : Level} (h : kind.Ends level)
    (hrank : level.rank ≤ next.rank) : kind.Ends next :=
  fun l hl => Nat.lt_of_lt_of_le (h l hl) hrank

/-- A word that ends a level carries on no tighter one. -/
theorem Ends.endsAbove {kind : TokenKind} {level : Level} (h : kind.Ends level) :
    kind.EndsAbove level :=
  fun l hl => Nat.le_of_lt (h l hl)

/-- No word carries on a sign alone. -/
theorem Ends.ends_factor {kind : TokenKind} (h : kind.Ends .power) : kind.Ends .factor := by
  cases kind <;> first | decide | exact absurd h (by decide)

/-- A word that carries on no level tighter than a level ends that of its operands. -/
theorem EndsAbove.ends_operand {kind : TokenKind} {level next : Level} (h : kind.EndsAbove level)
    (hnext : level.operand? = some next) : kind.Ends next := by
  intro l hl
  rw [Level.rank_operand hnext]
  exact Nat.lt_succ_of_le (h l hl)

/-- An operator of a level carries on that level. -/
theorem continues?_of_operator? {kind : TokenKind} {level : Level} {op : BinaryOperator}
    (h : level.operator? kind = some op) : kind.continues? = some level := by
  cases level with
  | bitOr | bitXor | bitAnd | shift | sum | product => cases kind <;> first | rfl | exact nomatch h
  | _ => exact nomatch h

/-- An operator is no sign of an assignment. -/
theorem kind_ne_of_operator? {kind : TokenKind} {level : Level} {op : BinaryOperator}
    (h : level.operator? kind = some op) : kind ≠ .colonEqual ∧ kind ≠ .equal := by
  have hcontinues := continues?_of_operator? h
  constructor <;> (rintro rfl; exact nomatch hcontinues)

/-- A word that ends a level is none of its operators. -/
theorem Ends.operator?_eq_none {kind : TokenKind} {level : Level} (h : kind.Ends level) :
    level.operator? kind = none := by
  cases hop : level.operator? kind with
  | none => rfl
  | some op => exact absurd (h level (continues?_of_operator? hop)) (Nat.lt_irrefl _)

end TokenKind

end SyntaxTree
