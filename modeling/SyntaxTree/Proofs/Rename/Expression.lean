import SyntaxTree.Proofs.Grammar.Level
import SyntaxTree.Proofs.Rename.Phrase

/-
# Expressions over renamed tokens

Every level of the grammar of expressions is mirrored over renamed tokens, and none of them begins
at the end of a line.  There are no replacement fields among the tokens, so how those are read does
not matter, as long as characters have the same names.
-/

namespace SyntaxTree

/-- An f-string that has been read so far, with its names renamed. -/
def Draft.rename (σ : Bytes → Bytes) (draft : Draft) : Draft :=
  { draft with values := draft.values.map (Expr.rename σ) }

theorem Draft.flush_rename (σ : Bytes → Bytes) (span : Span) (draft : Draft) :
    (draft.rename σ).flush span = (draft.flush span).rename σ := by
  unfold flush rename
  split <;> simp

namespace Parse.Mirrors

variable {σ : Bytes → Bytes} {keep : Prop} {pre : Token → Prop} {read read' : Reading}
  {field field' : FieldReading} {names : Unicode.CharacterNames}

/-! ## Literals -/

theorem addLiteral (t : Token) (isRaw isBytes : Bool) (draft : Draft) (s : Bytes) :
    Mirrors σ keep pre (Becomes (Draft.rename σ)) never
      (Parse.addLiteral names t isRaw isBytes draft s)
      (Parse.addLiteral names t isRaw isBytes (draft.rename σ) s) := by
  refine ite .rfl (fun _ => pure rfl id) fun _ => ?_
  split
  · exact fail (fails_failAt _ _ _) (fails_failAt _ _ _)
  · exact pure rfl id

section Text

variable (hnames : field'.names = field.names)

include hnames

/-- The replacement fields of a literal without any do not matter. -/
theorem addToken (isBytes : Bool) (draft : Draft) {t : Token} (hplain : t.IsPlain)
    (htext : t.kind.isText) :
    Mirrors σ keep pre (Becomes (Draft.rename σ)) never (Parse.addToken field isBytes draft t)
      (Parse.addToken field' isBytes (draft.rename σ) t) := by
  refine ite .rfl (fun _ => failAtToken ..) fun _ => ite .rfl (fun hformatted => ?_) fun _ => ?_
  · rw [hplain.notFormatted htext] at hformatted
    cases hformatted
  · rw [hnames]
    exact addLiteral ..

theorem strings :
    Mirrors σ keep pre (Becomes (Expr.rename σ)) never (Parse.strings field)
      (Parse.strings field') := by
  refine peek fun first _ _ => ?_
  rw [first.start_rename, first.kind_rename]
  refine (iterate (f := Prod.map (Draft.rename σ) id) (fun run => ?step) (Draft.empty, false)).bind
    ?_
  case step =>
    refine kind fun t _ => ite .rfl (fun htext => next ?_ ?_) fun _ => pure rfl id
    · rintro - t rfl
      exact TokenKind.isOpen_of_isText htext
    · rintro t rfl hplain
      rw [Token.rename_of_ne (by intro h; rw [h] at htext; cases htext)]
      refine (addToken hnames _ _ hplain htext).bind ?_
      rintro draft _ rfl
      exact pure rfl id
  rintro ⟨draft, isFormatted⟩ _ rfl
  refine ite .rfl (fun _ => exprFrom rfl rfl) fun _ => ite .rfl (fun _ => ?_) fun _ =>
    exprFrom rfl rfl
  refine exprFrom rfl ?_
  show _ = Expr.Shape.fstring ((draft.rename σ).flush _).values
  rw [Draft.flush_rename, first.span_rename]
  simp [Draft.rename]

end Text

/-! ## Atoms -/

theorem atomOf {t : Token} (hopen : t.kind.isOpen) (value : Constant) :
    Mirrors σ keep (· = t) (Becomes (Expr.rename σ)) never (Parse.atomOf t value)
      (Parse.atomOf (t.rename σ) value) :=
  next (fun _ _ ht => ht ▸ hopen) fun _ _ _ => exprFrom (t.start_rename σ) rfl

theorem nextNumber :
    Mirrors σ keep (fun t => t.kind.isNumber) (Becomes (Expr.rename σ)) never
      (Parse.next >>= Parse.numberOf) (Parse.next >>= Parse.numberOf) := by
  refine next (fun _ _ ht => TokenKind.isOpen_of_isNumber ht) fun t ht _ => ?_
  rw [Token.rename_of_ne (by intro h; rw [h] at ht; cases ht)]
  exact exprFrom rfl rfl

section Levels

variable (h : ReadingMirrors σ keep read read') (hnames : field'.names = field.names)

include h hnames

theorem atom :
    Mirrors σ keep pre (Becomes (Expr.rename σ)) never (Parse.atom read field)
      (Parse.atom read' field') := by
  refine peek fun t _ _ => ?_
  rw [t.kind_rename]
  split
  · exact (next (taking rfl) fun t ht _ => nameOf ht .load).at_token ‹_›
  · next hkind => exact atomOf (hkind ▸ rfl) _
  · next hkind =>
    have hword : isTrueWord (t.rename σ) = isTrueWord t := by
      rw [Token.rename_of_ne (by rw [hkind]; decide)]
    rw [hword]
    exact atomOf (hkind ▸ rfl) _
  · next hkind => exact atomOf (hkind ▸ rfl) _
  · next hkind => exact nextNumber.mono (fun _ ht => by rw [ht, hkind]; rfl) fun _ _ => id
  · next hkind => exact nextNumber.mono (fun _ ht => by rw [ht, hkind]; rfl) fun _ _ => id
  · next hkind => exact nextNumber.mono (fun _ ht => by rw [ht, hkind]; rfl) fun _ _ => id
  · exact strings hnames
  · exact strings hnames
  · exact strings hnames
  · refine (next (taking rfl) fun t _ _ => ?_).at_token ‹_›
    rw [t.start_rename]
    exact parenthesized h t.start
  · refine (next (taking rfl) fun t _ _ => ?_).at_token ‹_›
    rw [t.start_rename]
    exact listDisplay h t.start
  · refine (next (taking rfl) fun t _ _ => ?_).at_token ‹_›
    rw [t.start_rename]
    exact braceDisplay h t.start
  all_goals exact failAtToken ..

/-! ## Operators that stand behind or in front -/

omit hnames in
theorem trailer (value : Expr) :
    Mirrors σ keep pre (Becomes (mapStep (Expr.rename σ))) never (Parse.trailer read value)
      (Parse.trailer read' (value.rename σ)) := by
  have hfrom {shape shape' : Expr.Shape} (hshape : shape.rename σ = shape') :
      Mirrors σ keep anywhere (Becomes (mapStep (Expr.rename σ))) never
        (Parse.exprFrom value.span.start shape >>= fun e => Pure.pure (.yield e))
        (Parse.exprFrom (value.rename σ).span.start shape' >>= fun e => Pure.pure (.yield e)) := by
    refine (exprFrom (by simp) hshape).bind ?_
    rintro e _ rfl
    exact pure rfl id
  refine ifAccept .dot (fun _ => rfl) ((expectName .attributeName).bind ?_)
    (ifAccept .openParen (fun _ => rfl) ((arguments h).bind ?_)
      (ifAccept .openBracket (fun _ => rfl) ((slices h).bind ?_) (pure rfl id)))
  · rintro t _ ⟨ht, -, rfl⟩
    exact hfrom (by simp [Token.text_rename_of_identifier ht])
  · rintro draft _ rfl
    exact hfrom (by simp)
  · rintro index _ rfl
    exact (expect .subscriptClose fun _ => rfl).bind fun _ _ _ => hfrom (by simp)

theorem primary :
    Mirrors σ keep pre (Becomes (Expr.rename σ)) never (Parse.primary read field)
      (Parse.primary read' field') := by
  refine (atom h hnames).bind ?_
  rintro value _ rfl
  exact iterate (trailer h) value

theorem awaited :
    Mirrors σ keep pre (Becomes (Expr.rename σ)) never (Parse.awaited read field)
      (Parse.awaited read' field') := by
  refine ifAt .kwAwait (next (taking rfl) fun t _ _ => (primary h hnames).bind ?_)
    (primary h hnames)
  rintro value _ rfl
  exact exprFrom (t.start_rename σ) rfl

theorem power :
    Mirrors σ keep pre (Becomes (Expr.rename σ)) never (Parse.power read field)
      (Parse.power read' field') := by
  refine (awaited h hnames).bind ?_
  rintro base _ rfl
  refine ifAccept .doubleStar (fun _ => rfl) ((h.mirrors .factor).bind ?_) (pure rfl id)
  rintro exponent _ rfl
  exact exprFrom (by simp) rfl

theorem factor :
    Mirrors σ keep pre (Becomes (Expr.rename σ)) never (Parse.factor read field)
      (Parse.factor read' field') := by
  refine kind fun t _ => ?_
  cases hop : signOf? t.kind with
  | none => exact power h hnames
  | some op =>
    refine next (fun _ _ ht => ht ▸ TokenKind.isOpen_of_eq_some hop rfl rfl rfl rfl) fun t _ _ => ?_
    refine (h.mirrors .factor).bind ?_
    rintro operand _ rfl
    exact exprFrom (t.start_rename σ) rfl

/-! ## Operators between operands -/

omit h hnames in
/-- Operands that are joined by operators at which no barrier begins. -/
theorem leftAssociative {op? : TokenKind → Option BinaryOperator} (hnewline : op? .newline = none)
    (hsemicolon : op? .semicolon = none) (hend : op? .endOfInput = none)
    (hcolon : op? .colon = none)
    {operand operand' : Parse Expr}
    (hoperand : Mirrors σ keep anywhere (Becomes (Expr.rename σ)) never operand operand') :
    Mirrors σ keep pre (Becomes (Expr.rename σ)) never (Parse.leftAssociative op? operand)
      (Parse.leftAssociative op? operand') := by
  have hstep (left : Expr) : Mirrors σ keep anywhere (Becomes (mapStep (Expr.rename σ))) never
      (Parse.operation op? operand left) (Parse.operation op? operand' (left.rename σ)) := by
    refine kind fun t _ => ?_
    cases hop : op? t.kind with
    | none => exact pure rfl id
    | some op =>
      have hopen := TokenKind.isOpen_of_eq_some hop hnewline hsemicolon hend hcolon
      refine next (fun _ _ ht => ht ▸ hopen) fun _ _ _ => hoperand.bind ?_
      rintro right _ rfl
      refine (exprFrom (by simp) (by simp)).bind ?_
      rintro e _ rfl
      exact pure rfl id
  refine hoperand.at_any.bind ?_
  rintro left _ rfl
  exact iterate hstep left

theorem bitOr :
    Mirrors σ keep pre (Becomes (Expr.rename σ)) never (Parse.bitOr read field)
      (Parse.bitOr read' field') :=
  leftAssociative rfl rfl rfl rfl <| leftAssociative rfl rfl rfl rfl <|
    leftAssociative rfl rfl rfl rfl <| leftAssociative rfl rfl rfl rfl <|
      leftAssociative rfl rfl rfl rfl <| leftAssociative rfl rfl rfl rfl <| factor h hnames

/-! ## Conditions -/

omit h hnames in
theorem compareOperator :
    Mirrors σ keep pre Eq never Parse.compareOperator Parse.compareOperator := by
  have htake {kind : TokenKind} (hopen : kind.isOpen) (op : CompareOperator) :
      Mirrors σ keep (fun t => t.kind = kind) Eq never (compareOperator.take op)
        (compareOperator.take op) :=
    next (taking hopen) fun _ _ _ => pure rfl id
  refine kind fun t _ => ?_
  split
  · next hkind =>
    refine ifFollowed (fun _ u hu => ?_) rfl (fun _ _ _ => pure rfl id) (pure rfl id)
    rw [hu, hkind]
    rfl
  · refine (next (taking rfl) fun _ _ _ => (accept .kwNot fun _ => rfl).bind ?_).at_token ‹_›
    rintro b _ rfl
    exact pure rfl id
  · exact (htake rfl _).at_token ‹_›
  · exact (htake rfl _).at_token ‹_›
  · exact (htake rfl _).at_token ‹_›
  · exact (htake rfl _).at_token ‹_›
  · exact (htake rfl _).at_token ‹_›
  · exact (htake rfl _).at_token ‹_›
  · exact (htake rfl _).at_token ‹_›
  · exact pure rfl id

theorem comparison :
    Mirrors σ keep pre (Becomes (Expr.rename σ)) never (Parse.comparison read field)
      (Parse.comparison read' field') := by
  have hfurther : Mirrors σ keep anywhere (Becomes (Option.map (Comparison.rename σ))) never
      (Parse.furtherComparison (Parse.bitOr read field))
      (Parse.furtherComparison (Parse.bitOr read' field')) := by
    refine compareOperator.bind ?_
    rintro (_ | op) _ rfl
    · exact pure rfl id
    · refine (bitOr h hnames).bind ?_
      rintro operand _ rfl
      exact pure rfl id
  rw [comparison_eq, comparison_eq]
  refine (bitOr h hnames).bind ?_
  rintro left _ rfl
  refine (collect hfurther).bind ?_
  rintro rest _ rfl
  exact ite (by simp) (fun _ => pure rfl id) fun _ => exprFrom (by simp) (by simp)

theorem inversion :
    Mirrors σ keep pre (Becomes (Expr.rename σ)) never (Parse.inversion read field)
      (Parse.inversion read' field') := by
  refine ifAt .kwNot (next (taking rfl) fun t _ _ => (h.mirrors .inversion).bind ?_)
    (comparison h hnames)
  rintro operand _ rfl
  exact exprFrom (t.start_rename σ) rfl

omit h hnames in
theorem joined (op : BoolOperator) {word : TokenKind} (hopen : word.isOpen)
    {operand operand' : Parse Expr}
    (hoperand : Mirrors σ keep anywhere (Becomes (Expr.rename σ)) never operand operand') :
    Mirrors σ keep pre (Becomes (Expr.rename σ)) never (Parse.joined op word operand)
      (Parse.joined op word operand') := by
  refine hoperand.at_any.bind ?_
  rintro first _ rfl
  refine (collect (behind word (fun _ => hopen) hoperand)).bind ?_
  rintro rest _ rfl
  exact ite (by simp) (fun _ => pure rfl id) fun _ => exprFrom (by simp) (by simp)

theorem disjunction :
    Mirrors σ keep pre (Becomes (Expr.rename σ)) never (Parse.disjunction read field)
      (Parse.disjunction read' field') :=
  joined .or rfl (joined .and rfl (inversion h hnames))

theorem expression :
    Mirrors σ keep pre (Becomes (Expr.rename σ)) never (Parse.expression read field)
      (Parse.expression read' field') := by
  refine ifAt .kwLambda (lambda h) ((disjunction h hnames).bind ?_)
  rintro body _ rfl
  refine ifAccept .kwIf (fun _ => rfl) ((h.mirrors .disjunction).bind ?_) (pure rfl id)
  rintro test _ rfl
  refine (expect .conditionalElse fun _ => rfl).bind fun _ _ _ => (h.mirrors .expression).bind ?_
  rintro orelse _ rfl
  exact exprFrom (by simp) (by simp)

end Levels

end Parse.Mirrors

/-! ## Tokens that begin no expression -/

namespace Parse.FailsAt

variable {kind : TokenKind} (hkind : kind.opens? = none) (read : Reading) (field : FieldReading)

include hkind

theorem atom : FailsAt kind (Parse.atom read field) := by
  refine .peek fun t ht => ?_
  rw [ht]
  cases kind <;> first | exact .of_fails (fails_failAtToken _ _) | cases hkind

/-- A token that begins no expression is none of those at which one may begin. -/
theorem ne_of_opens? {other : TokenKind} (hother : other.opens? ≠ none) : other ≠ kind := by
  rintro rfl
  exact hother hkind

theorem factor : FailsAt kind (Parse.factor read field) := by
  have hsign : signOf? kind = none := by
    cases kind <;> first | rfl | cases hkind
  refine .ofKind ?_
  rw [hsign]
  exact .bind (.ifAt (ne_of_opens? hkind (by decide)) (.bind (atom hkind read field)))

omit hkind in
theorem leftAssociative {op? : TokenKind → Option BinaryOperator} {operand : Parse Expr}
    (h : FailsAt kind operand) : FailsAt kind (Parse.leftAssociative op? operand) :=
  .bind h

theorem bitOr : FailsAt kind (Parse.bitOr read field) :=
  leftAssociative <| leftAssociative <| leftAssociative <| leftAssociative <| leftAssociative <|
    leftAssociative <| factor hkind read field

theorem inversion : FailsAt kind (Parse.inversion read field) :=
  .ifAt (ne_of_opens? hkind (by decide)) (.bind (bitOr hkind read field))

theorem disjunction : FailsAt kind (Parse.disjunction read field) :=
  .bind (.bind (inversion hkind read field))

theorem expression : FailsAt kind (Parse.expression read field) :=
  .ifAt (ne_of_opens? hkind (by decide)) (.bind (disjunction hkind read field))

theorem goal : ∀ g : Goal, FailsAt kind (Parse.goal read field g)
  | .expression => expression hkind read field
  | .disjunction => disjunction hkind read field
  | .inversion => inversion hkind read field
  | .operand => bitOr hkind read field
  | .factor => factor hkind read field

/-- No expression is read where none can begin. -/
theorem readUpTo (limit : Nat) (g : Goal) : FailsAt kind (Parse.readUpTo field limit g) := by
  cases limit with
  | zero => exact .of_fails (fails_failHere _)
  | succ limit => exact goal hkind (Parse.readUpTo field limit) field g

end Parse.FailsAt

/-! ## All levels together -/

namespace Parse

theorem Mirrors.goal {σ : Bytes → Bytes} {keep : Prop} {read read' : Reading}
    {field field' : FieldReading} (h : ReadingMirrors σ keep read read')
    (hnames : field'.names = field.names) :
    ∀ g : Goal, Mirrors σ keep anywhere (Becomes (Expr.rename σ)) never (Parse.goal read field g)
      (Parse.goal read' field' g)
  | .expression => expression h hnames
  | .disjunction => disjunction h hnames
  | .inversion => inversion h hnames
  | .operand => bitOr h hnames
  | .factor => factor h hnames

/-- Expressions are read over renamed tokens like over the tokens themselves, however replacement
fields are read. -/
theorem readingMirrors_readUpTo (σ : Bytes → Bytes) (keep : Prop) {field field' : FieldReading}
    (hnames : field'.names = field.names) :
    ∀ limit : Nat, ReadingMirrors σ keep (readUpTo field limit) (readUpTo field' limit)
  | 0 => ⟨fun _ => .failHere _, .readUpTo rfl field 0⟩
  | limit + 1 =>
    ⟨.goal (readingMirrors_readUpTo σ keep hnames limit) hnames, .readUpTo rfl field (limit + 1)⟩

end Parse

end SyntaxTree
