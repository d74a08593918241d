import SyntaxTree.Proofs.Depth.Phrase
import SyntaxTree.Proofs.Ending.Expression

/-
# Expressions under larger bounds

Every level of the grammar of expressions keeps what it gave when its bounds grow.  So how deep the
fields of an f-string may be nested does not matter: any bound that is large enough gives the same.
-/

namespace SyntaxTree.Parse

namespace Approx

variable {read read' : Reading} {field field' : FieldReading}

/-! ## Literals -/

mutual

theorem addPiece (hfield : FieldApprox field field') (t : Token) (base : Nat) (isRaw : Bool) :
    ∀ (draft : Draft) (piece : FString.Piece),
      Approx (Parse.addPiece field t base isRaw draft piece)
        (Parse.addPiece field' t base isRaw draft piece)
  | _, .literal _ => by
    rw [Parse.addPiece, Parse.addPiece, hfield.names]
    exact refl _
  | _, .brace _ | _, .fault _ _ => by
    rw [Parse.addPiece, Parse.addPiece]
    exact refl _
  | draft, .field offset source echo conversion spec => by
    rw [Parse.addPiece, Parse.addPiece]
    exact (hfield.read _ _).bind fun value => (readSpec hfield t base isRaw spec).first _

theorem addPieces (hfield : FieldApprox field field') (t : Token) (base : Nat) (isRaw : Bool) :
    ∀ (draft : Draft) (pieces : List FString.Piece),
      Approx (Parse.addPieces field t base isRaw draft pieces)
        (Parse.addPieces field' t base isRaw draft pieces)
  | _, [] => by
    rw [Parse.addPieces, Parse.addPieces]
    exact refl _
  | draft, piece :: rest => by
    rw [Parse.addPieces, Parse.addPieces]
    exact (addPiece hfield t base isRaw draft piece).bind fun draft =>
      addPieces hfield t base isRaw draft rest

theorem readSpec (hfield : FieldApprox field field') (t : Token) (base : Nat) (isRaw : Bool) :
    ∀ spec : Option (List FString.Piece),
      Approx (Parse.readSpec field t base isRaw spec) (Parse.readSpec field' t base isRaw spec)
  | none => by
    rw [Parse.readSpec, Parse.readSpec]
    exact refl _
  | some pieces => by
    rw [Parse.readSpec, Parse.readSpec]
    exact (addPieces hfield t base isRaw .empty pieces).first _

end

section Literals

variable (hfield : FieldApprox field field')

include hfield

theorem addToken (isBytes : Bool) (draft : Draft) (t : Token) :
    Approx (Parse.addToken field isBytes draft t) (Parse.addToken field' isBytes draft t) :=
  ite (refl _) (ite (addPieces hfield t _ _ draft _) (hfield.names ▸ refl _))

theorem strings : Approx (Parse.strings field) (Parse.strings field') := by
  refine after peek fun first => Approx.first (iterate (fun run => ?_) _) _
  exact test (kind >>= fun kind => pure kind.isText)
    (after next fun t => (addToken hfield _ run.1 t).first _) (refl _)

end Literals

section Levels

variable (h : ReadingApprox read read') (hfield : FieldApprox field field')

include h hfield

/-! ## Atoms and what stands behind or in front -/

theorem atom : Approx (Parse.atom read field) (Parse.atom read' field') := by
  refine after peek fun t => ?_
  split
  case h_8 | h_9 | h_10 => exact strings hfield
  case h_11 => exact after next fun start => parenthesized h start.start
  case h_12 => exact after next fun start => listDisplay h start.start
  case h_13 => exact after next fun start => braceDisplay h start.start
  all_goals exact refl _

omit hfield in
theorem trailer (value : Expr) : Approx (Parse.trailer read value) (Parse.trailer read' value) := by
  refine test _ (refl _) (test _ ((arguments h).first _) (test _ ?_ (refl _)))
  exact (slices h).first _

theorem primary : Approx (Parse.primary read field) (Parse.primary read' field') :=
  (atom h hfield).bind (iterate (trailer h))

theorem awaited : Approx (Parse.awaited read field) (Parse.awaited read' field') :=
  test _ (after next fun _ => (primary h hfield).first _) (primary h hfield)

theorem power : Approx (Parse.power read field) (Parse.power read' field') :=
  (awaited h hfield).bind fun _ => test _ ((h .factor).first _) (refl _)

theorem factor : Approx (Parse.factor read field) (Parse.factor read' field') := by
  refine after kind fun kind => ?_
  split
  · exact after next fun _ => (h .factor).first _
  · exact power h hfield

/-! ## Operators between operands -/

omit h hfield in
theorem leftAssociative (op? : TokenKind → Option BinaryOperator) {operand operand' : Parse Expr}
    (hoperand : Approx operand operand') :
    Approx (Parse.leftAssociative op? operand) (Parse.leftAssociative op? operand') := by
  refine hoperand.bind (iterate fun left => after kind fun kind => ?_)
  split
  · exact after next fun _ => hoperand.first _
  · exact refl _

theorem bitOr : Approx (Parse.bitOr read field) (Parse.bitOr read' field') :=
  leftAssociative _ <| leftAssociative _ <| leftAssociative _ <| leftAssociative _ <|
    leftAssociative _ <| leftAssociative _ <| factor h hfield

/-! ## Conditions -/

theorem comparison : Approx (Parse.comparison read field) (Parse.comparison read' field') := by
  rw [comparison_eq, comparison_eq]
  refine (bitOr h hfield).bind fun left => first (collect (after compareOperator fun op => ?_)) _
  cases op with
  | some op => exact (bitOr h hfield).first _
  | none => exact refl _

theorem inversion : Approx (Parse.inversion read field) (Parse.inversion read' field') :=
  test _ (after next fun _ => (h .inversion).first _) (comparison h hfield)

omit h hfield in
theorem joined (op : BoolOperator) (word : TokenKind) {operand operand' : Parse Expr}
    (hoperand : Approx operand operand') :
    Approx (Parse.joined op word operand) (Parse.joined op word operand') :=
  hoperand.bind fun _ => first (collect (behind _ hoperand)) _

theorem disjunction : Approx (Parse.disjunction read field) (Parse.disjunction read' field') :=
  joined .or .kwOr (joined .and .kwAnd (inversion h hfield))

theorem expression : Approx (Parse.expression read field) (Parse.expression read' field') := by
  refine test _ (lambda h) ((disjunction h hfield).bind fun _ => test _ ?_ (refl _))
  refine (h .disjunction).bind fun _ => after (expect .conditionalElse) fun _ => ?_
  exact (h .expression).first _

/-! ## All levels together -/

theorem goal : ∀ g : Goal, Approx (Parse.goal read field g) (Parse.goal read' field' g)
  | .expression => expression h hfield
  | .disjunction => disjunction h hfield
  | .inversion => inversion h hfield
  | .operand => bitOr h hfield
  | .factor => factor h hfield

end Levels

theorem readUpTo (hfield : FieldApprox field field') :
    ∀ limit : Nat, ReadingApprox (Parse.readUpTo field limit) (Parse.readUpTo field' limit)
  | 0 => fun _ => refl _
  | limit + 1 => goal (readUpTo hfield limit) hfield

theorem wholeExpression (hfield : FieldApprox field field') :
    Approx (Parse.wholeExpression field) (Parse.wholeExpression field') := by
  refine after limit fun n => after skipNewlines fun _ => test _ (refl _) ?_
  exact (starExpressions (readUpTo hfield n)).first _

end Approx

/-! ## The nesting of fields -/

variable {names : Unicode.CharacterNames}

@[simp]
theorem names_fieldUpTo (depth : Nat) : (fieldUpTo names depth).names = names := by
  cases depth <;> rfl

/-- A field gives what the expression of its own tokens is read as, and leaves the cursor. -/
theorem fieldUpTo_tokens {source : Bytes} {tokens : List Token}
    (h : tokenize false (text "(" ++ source ++ text ")") = .ok tokens) (depth : Nat)
    (place : Position) (c : Cursor) :
    (fieldUpTo names (depth + 1)).read source place c =
      match wholeExpression (fieldUpTo names depth)
        (.ofTokens c.lines (tokens.map (·.inField place))) with
      | .ok value _ => .ok value c
      | .error e _ => .error e c := by
  simp only [fieldUpTo, h]
  rw [bind_ok (show (get : Parse Cursor) c = .ok c c from rfl), EStateM.run]
  cases wholeExpression (fieldUpTo names depth)
    (.ofTokens c.lines (tokens.map (·.inField place))) <;> rfl

/-- The source of a field that has no division into tokens. -/
theorem fieldUpTo_lexical {source : Bytes} {e : LexicalError}
    (h : tokenize false (text "(" ++ source ++ text ")") = .error e) (depth : Nat)
    (place : Position) :
    (fieldUpTo names (depth + 1)).read source place =
      failAt (.fstring (.lexical e.cause)) place source := by
  simp only [fieldUpTo, h]

/-- Where fields may be nested more often, those are read alike that have been read before. -/
theorem fieldApprox_fieldUpTo_succ (names : Unicode.CharacterNames) (depth : Nat) :
    FieldApprox (fieldUpTo names depth) (fieldUpTo names (depth + 1)) where
  names := by rw [names_fieldUpTo, names_fieldUpTo]
  read := by
    induction depth with
    | zero => exact fun _ _ => .unending _
    | succ depth ih =>
      intro source place c
      cases htokens : tokenize false (text "(" ++ source ++ text ")") with
      | error e => exact .inr (by rw [fieldUpTo_lexical htokens, fieldUpTo_lexical htokens])
      | ok tokens =>
        have hfield : FieldApprox (fieldUpTo names depth) (fieldUpTo names (depth + 1)) :=
          ⟨by rw [names_fieldUpTo, names_fieldUpTo], ih⟩
        have hwhole := Approx.wholeExpression hfield
          (.ofTokens c.lines (tokens.map (·.inField place)))
        rcases hwhole with ⟨e, c', hrun, hunending⟩ | hwhole
        · exact .inl ⟨e, c, by rw [fieldUpTo_tokens htokens, hrun], hunending⟩
        · exact .inr (by rw [fieldUpTo_tokens htokens, fieldUpTo_tokens htokens, hwhole])

theorem fieldApprox_fieldUpTo {depth depth' : Nat} (h : depth ≤ depth') :
    FieldApprox (fieldUpTo names depth) (fieldUpTo names depth') := by
  induction depth', h using Nat.le_induction with
  | base => exact ⟨rfl, fun _ _ => .refl _⟩
  | succ depth' _ ih =>
    have hnext := fieldApprox_fieldUpTo_succ names depth'
    exact ⟨hnext.names.trans ih.names,
      fun source place => (ih.read source place).trans (hnext.read source place)⟩

end SyntaxTree.Parse
