import SyntaxTree.Proofs.Render.Spelling

/-
# Operators in texts

Each operator is written as the words that the grammar reads it from, and each precedence belongs to
the level of the grammar that reads what binds like it.
-/

namespace SyntaxTree

open Parse

/-! ## Precedence and levels -/

/-- The level that reads what binds like a precedence. -/
def Precedence.level : Precedence → Level
  | named | tuple | yield | test => .expression
  | or => .disjunction
  | and => .conjunction
  | not => .inversion
  | comparison => .comparison
  | bitOr => .bitOr
  | bitXor => .bitXor
  | bitAnd => .bitAnd
  | shift => .shift
  | sum => .sum
  | product => .product
  | factor => .factor
  | power => .power
  | await => .awaited
  | atom => .atom

/-- What binds more tightly is read at a tighter level. -/
theorem Precedence.rank_level_mono {p q : Precedence} (h : p ≤ q) :
    p.level.rank ≤ q.level.rank := by
  revert h
  cases p <;> cases q <;> decide

theorem Precedence.le_atom (p : Precedence) : p ≤ .atom := by
  cases p <;> decide

/-- Nothing binds more tightly than an atom. -/
theorem Precedence.eq_atom_of_le {p : Precedence} (h : .atom ≤ p) : p = .atom := by
  revert h
  cases p <;> decide

/-! ## The words of operators -/

/-- The kind of the word that spells a binary operator. -/
def BinaryOperator.kind : BinaryOperator → TokenKind
  | add => .plus
  | sub => .minus
  | mul => .star
  | matMul => .atSign
  | div => .slash
  | mod => .percent
  | pow => .doubleStar
  | shiftLeft => .shiftLeft
  | shiftRight => .shiftRight
  | bitOr => .pipe
  | bitXor => .caret
  | bitAnd => .ampersand
  | floorDiv => .doubleSlash

/-- A binary operator is one word. -/
theorem BinaryOperator.signs (op : BinaryOperator) :
    Signs op.symbol [⟨op.kind, op.symbol⟩] :=
  .operator (by cases op <;> decide)

/-- Apart from powers, the level of the precedence of an operator has the operator. -/
theorem BinaryOperator.operator?_kind {op : BinaryOperator} (h : op ≠ .pow) :
    op.precedence.level.operator? op.kind = some op := by
  cases op <;> first | rfl | exact absurd rfl h

/-- Apart from powers, operands are written for the levels that read them. -/
theorem BinaryOperator.operand?_level {op : BinaryOperator} (h : op ≠ .pow) :
    op.precedence.level.operand? = some op.rightPrecedence.level ∧
      op.leftPrecedence = op.precedence := by
  cases op <;> first | exact ⟨rfl, rfl⟩ | exact absurd rfl h

/-- A keyword is one word. -/
theorem Signs.keyword {s : Bytes} {kind : TokenKind} (hs : IsWord s)
    (hkind : TokenKind.ofWord s = kind) : Signs s [⟨kind, s⟩] :=
  hkind ▸ .word hs

/-- A comparison is one word or two. -/
theorem CompareOperator.exists_signs (op : CompareOperator) :
    ∃ ws, Signs op.symbol ws ∧ ws.map Word.kind = op.kinds := by
  have hoperator : ∀ {s : Bytes} {kind : TokenKind}, (s, kind) ∈ TokenKind.operators →
      ∃ ws, Signs s ws ∧ ws.map Word.kind = [kind] :=
    fun hs => ⟨_, .operator hs, rfl⟩
  have hnot : Signs (text "not") [⟨.kwNot, text "not"⟩] := .keyword ⟨_, _, rfl, rfl, rfl⟩ rfl
  have his : Signs (text "is") [⟨.kwIs, text "is"⟩] := .keyword ⟨_, _, rfl, rfl, rfl⟩ rfl
  have hin : Signs (text "in") [⟨.kwIn, text "in"⟩] := .keyword ⟨_, _, rfl, rfl, rfl⟩ rfl
  cases op with
  | is => exact ⟨_, his, rfl⟩
  | isNot => exact ⟨_, his.pair hnot, rfl⟩
  | member => exact ⟨_, hin, rfl⟩
  | notMember => exact ⟨_, hnot.pair hin, rfl⟩
  | _ => exact hoperator (by decide)

/-- The operator that joins conditions is one word. -/
theorem BoolOperator.signs (op : BoolOperator) : Signs op.symbol [⟨op.kind, op.symbol⟩] := by
  cases op <;> exact .keyword ⟨_, _, rfl, rfl, rfl⟩ rfl

/-- Conditions are written for the levels that read them. -/
theorem BoolOperator.level_precedence (op : BoolOperator) :
    op.precedence.level = op.level ∧ op.operandPrecedence.level = op.operandLevel := by
  cases op <;> exact ⟨rfl, rfl⟩

/-- The kind of the word that spells a unary operator. -/
def UnaryOperator.kind : UnaryOperator → TokenKind
  | invert => .tilde
  | not => .kwNot
  | plus => .plus
  | minus => .minus

/-- A unary operator opens its operand; a blank stands behind `not`. -/
theorem UnaryOperator.opening (op : UnaryOperator) :
    Opening (op.symbol ++ if op = .not then text " " else []) [⟨op.kind, op.symbol⟩] := by
  cases op with
  | not => exact .word ⟨_, _, rfl, rfl, rfl⟩
  | _ => exact .operator (by decide) ⟨_, _, rfl, rfl⟩

/-- A lambda without parameters opens its body. -/
theorem Opening.lambda :
    Opening (text "lambda: ") [⟨.kwLambda, text "lambda"⟩, ⟨.colon, text ":"⟩] where
  begins := ⟨_, _, rfl, rfl⟩
  divides := by
    intro rest hrest
    have hword : Divides (text "lambda" ++ (text ": " ++ rest)) (text ": " ++ rest)
        [⟨.kwLambda, text "lambda"⟩] := by
      refine Divides.word ⟨_, _, rfl, rfl, rfl⟩ fun b hb => ?_
      obtain rfl := Option.some.inj hb
      rfl
    have hcolon : Signs (text ":") [⟨.colon, text ":"⟩] := .operator (by decide)
    exact hword.trans ((hcolon.divides (text " " ++ rest) rfl).trans (.space hrest))

end SyntaxTree
