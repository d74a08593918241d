import SyntaxTree.Grammar.Module
import SyntaxTree.Proofs.Grammar.Demand

/-
# Expressions are paid for

Each level of the grammar of expressions takes the tokens that its result demands at a place of that
level.  An integer whose attribute is taken has been paid for by its parenthesis, unless the point
stands apart from it.
-/

namespace SyntaxTree

namespace Parse

variable {α : Type}

/-- A sign is a token that does not end the input. -/
theorem precedence_of_signOf? {kind : TokenKind} {op : UnaryOperator}
    (hop : signOf? kind = some op) : op.precedence = .factor ∧ kind ≠ .endOfInput := by
  revert hop
  cases kind <;> rintro ⟨⟩ <;> exact ⟨rfl, TokenKind.noConfusion⟩

namespace Pays

variable {w : Weight} {depth limit : Nat} {pre : Token → Prop} {read : Reading}
  {field : FieldReading}

/-! ## Atoms -/

section Atoms

variable (h : ReadingEnds depth limit read) (hpay : ReadingPays w depth limit read)
  (hfield : FieldEnds depth field)

include h hpay hfield

/-- Every atom but a number is paid for in front of a point, too. -/
theorem otherAtom (paid : Nat) :
    Pays w depth (limit + 1) (fun t => t.kind.isNumber = false) paid (Parse.atom read field)
      fun e => paid + e.demandDotted w := by
  have hstrings {t : Token} (ht : t.kind.isText) :
      Pays w depth (limit + 1) (· = t) paid (Parse.strings field)
        fun e => paid + e.demandDotted w :=
    of_free ((Ends.strings hfield).at_token ht) (yields_strings field)
  have hword {t : Token} (ht : t.kind ≠ .endOfInput) {value : Constant}
      (hvalue : ∀ span, (Expr.node span (.constant value)).isInteger = false) :
      Pays w depth (limit + 1) (· = t) paid (Parse.atomOf t value)
        fun e => paid + e.demandDotted w :=
    of_free (Ends.atomOf ht value) (Yields.bind fun _ => Yields.exprFree rfl (.inl rfl) hvalue)
  have hmore {t : Token} (ht : t.kind ≠ .endOfInput) {k : Token → Parse Expr}
      (hk : ∀ t, Ends depth limit anywhere never (k t)) (hfree : ∀ t, Yields (IsFree w) (k t)) :
      Pays w depth (limit + 1) (· = t) paid (Parse.next >>= k)
        fun e => paid + e.demandDotted w := by
    have hends : Ends depth (limit + 1) (· = t) always (Parse.next >>= k) :=
      (Ends.nextPeeked ht).deeper hk
    exact of_free hends (Yields.bind hfree)
  refine peek fun t hnumber => ?_
  split
  · next hkind =>
    refine hmore (by simp [hkind]) (fun name => Ends.nameOf name .load) fun name => ?_
    exact Yields.exprFree rfl (.inl rfl) fun _ => rfl
  · next hkind => exact hword (by simp [hkind]) fun _ => rfl
  · next hkind => exact hword (by simp [hkind]) fun _ => rfl
  · next hkind => exact hword (by simp [hkind]) fun _ => rfl
  · next hkind => exact absurd hnumber (by simp [hkind, TokenKind.isNumber])
  · next hkind => exact absurd hnumber (by simp [hkind, TokenKind.isNumber])
  · next hkind => exact absurd hnumber (by simp [hkind, TokenKind.isNumber])
  · next hkind => exact hstrings (by rw [hkind]; rfl)
  · next hkind => exact hstrings (by rw [hkind]; rfl)
  · next hkind => exact hstrings (by rw [hkind]; rfl)
  · next hkind =>
    -- The parenthesis pays for one level of demands more, so its inside may be a test.
    have hparen : Pays w depth (limit + 1) (· = t) paid Parse.next fun _ => paid + w.paren :=
      (next (by decide)).at_token hkind
    exact deeper (Ends.nextPeeked (by simp [hkind])) hparen fun t =>
      parenthesized h hpay paid t.start
  · next hkind =>
    exact hmore (by simp [hkind]) (fun t => Ends.listDisplay h t.start) fun t =>
      yields_listDisplay read t.start
  · next hkind =>
    exact hmore (by simp [hkind]) (fun t => Ends.braceDisplay h t.start) fun t =>
      yields_braceDisplay read t.start
  all_goals exact of_fails (fails_failAtToken _ _)

omit h hpay hfield in
/-- A number demands something only if it is an integer and a point stands apart from it. -/
theorem demandBefore_number {t : Token} {kind next : TokenKind} (hkind : t.kind = kind)
    (hnumber : kind.isNumber) (span : Span) {rest : List TokenKind}
    (hrest : next = .dot → rest.head? = some .dot) :
    (Expr.node span (.constant (Literal.number t))).demandBefore w next ≤ w.ofNext kind rest := by
  have hfree : (Expr.node span (.constant (Literal.number t))).demand w .atom = 0 :=
    Expr.demand_eq_zero w rfl (.inl rfl)
  rw [Expr.demandBefore, Expr.demandDotted, hfree, Nat.zero_add]
  split
  · next hdot =>
    have hmeet := hrest hdot
    cases kind <;> cases hnumber
    all_goals simp [Literal.number, hkind, Expr.isInteger, Weight.ofNext, hmeet]
  · exact Nat.zero_le _

/-- An atom has been paid for where it stands. -/
theorem atom {c c' : Cursor} {e : Expr} (hc : c.Within depth (limit + 1))
    (hrun : Parse.atom read field c = .ok e c') :
    e.demandBefore w c'.peek.kind + c'.ahead w ≤ c.ahead w := by
  cases hnumber : c.peek.kind.isNumber with
  | false =>
    have hother : 0 + e.demandDotted w + c'.ahead w ≤ 0 + c.ahead w :=
      otherAtom h hpay hfield 0 hc hnumber hrun
    have hbefore := e.demandBefore_le w c'.peek.kind
    omega
  | true =>
    have hkind : c.peek.kind = .integer ∨ c.peek.kind = .float ∨ c.peek.kind = .imaginary := by
      revert hnumber
      cases c.peek.kind <;> simp [TokenKind.isNumber]
    have htaken : (Parse.next >>= Parse.numberOf) c = .ok e c' := by
      rw [Parse.atom, bind_ok (peek_run c)] at hrun
      rcases hkind with hkind | hkind | hkind <;> rw [hkind] at hrun <;> exact hrun
    cases htaken
    have hends : c.peek.kind ≠ .endOfInput := by
      intro hend
      rw [hend] at hnumber
      cases hnumber
    -- What the number counts depends on the token behind it: in front of a point, an integer that
    -- has no parenthesis has been paid for by standing apart from the point.
    rw [c.ahead_advance hc.ends hends]
    refine Nat.add_le_add_right ?_ _
    have hstays := (hc.move c.movesTo_advance).ends
    exact demandBefore_number rfl hnumber _ (Cursor.head?_rest_of_dot hstays)

/-- So have all primaries. -/
theorem primary (paid : Nat) : Pays w depth (limit + 1) pre paid (Parse.primary read field)
    fun e => paid + e.demand w .atom := by
  intro c e c'' hc hpre hrun
  obtain ⟨value, c', hatom, hrun⟩ := exists_of_bind_eq_ok hrun
  obtain ⟨hmove, hlt⟩ := (Ends.atom h hfield).move hc hpre hatom
  have hpays := atom h hpay hfield hc hatom
  have hc' := hc.taken hmove (hlt trivial)
  have htrailers := trailers h hpay paid _ value c'.peek.kind hc' rfl hrun
  omega

/-! ## Operators that stand behind or in front -/

omit h hpay hfield in
/-- An operation that needs no parentheses at its place is paid for if its operands are. -/
theorem exprAt {p : Precedence} {paid paid' : Nat} {start : Position} {shape : Expr.Shape}
    (hplace : p ≤ shape.precedence) (hle : paid + shape.demand w ≤ paid') :
    Pays w depth limit pre paid' (Parse.exprFrom start shape) fun e => paid + e.demand w p :=
  exprFrom fun span => by rwa [Expr.demand_of_le w hplace]

theorem awaited (paid : Nat) : Pays w depth (limit + 1) pre paid (Parse.awaited read field)
    fun e => paid + e.demand w .await := by
  refine ifAt .kwAwait (after (Ends.nextOf (by decide)) fun start => ?_) ?_
  · refine bind (Ends.primary h hfield) (primary h hpay hfield paid) fun value => ?_
    exact exprAt (show Precedence.await ≤ .await by decide) (Nat.le_refl _)
  · exact looser (by decide) (primary h hpay hfield paid)

theorem power (paid : Nat) : Pays w depth (limit + 1) pre paid (Parse.power read field)
    fun e => paid + e.demand w .power := by
  refine deeper (Ends.awaited h hfield) (awaited h hpay hfield paid) fun base => ?_
  refine ifAccept (by decide) ?_ ?_
  · refine bind (h .factor) (hpay .factor _) fun exponent => ?_
    exact exprAt (show Precedence.power ≤ .power by decide) (Nat.le_of_eq (Nat.add_assoc ..).symm)
  · exact pure (Nat.add_le_add_left (base.demand_mono w (by decide)) paid)

theorem factor (paid : Nat) : Pays w depth (limit + 1) pre paid (Parse.factor read field)
    fun e => paid + e.demand w .factor := by
  refine kind fun t _ => ?_
  cases hop : signOf? t.kind with
  | none => exact looser (by decide) (power h hpay hfield paid)
  | some op =>
    obtain ⟨hstrength, hkind⟩ := precedence_of_signOf? hop
    refine deeper (Ends.nextPeeked hkind) (moves (Ends.nextPeeked hkind)) fun start => ?_
    refine bind (h .factor) (hpay .factor paid) fun operand => exprAt ?_ ?_
    · exact Nat.le_of_eq (congrArg Precedence.rank hstrength.symm)
    · rw [Expr.Shape.demand, hstrength]
      exact Nat.le_refl _

end Atoms

end Pays

/-! ## Operators between operands -/

/-- The operators of a level: their left operands are of the level, their right ones of the next. -/
structure Joins (op? : TokenKind → Option BinaryOperator) (p q : Precedence) : Prop where
  not_endOfInput : op? .endOfInput = none
  tightens : p ≤ q
  strength {kind : TokenKind} {op : BinaryOperator} (h : op? kind = some op) :
    op.leftPrecedence = p ∧ op.precedence = p ∧ op.rightPrecedence = q

theorem joins_productOf? : Joins productOf? .product .factor :=
  ⟨rfl, by decide, fun {kind _} h => by
    revert h
    cases kind <;> rintro ⟨⟩ <;> exact ⟨rfl, rfl, rfl⟩⟩

theorem joins_sumOf? : Joins sumOf? .sum .product :=
  ⟨rfl, by decide, fun {kind _} h => by
    revert h
    cases kind <;> rintro ⟨⟩ <;> exact ⟨rfl, rfl, rfl⟩⟩

theorem joins_shiftOf? : Joins shiftOf? .shift .sum :=
  ⟨rfl, by decide, fun {kind _} h => by
    revert h
    cases kind <;> rintro ⟨⟩ <;> exact ⟨rfl, rfl, rfl⟩⟩

theorem joins_bitAndOf? : Joins bitAndOf? .bitAnd .shift :=
  ⟨rfl, by decide, fun {kind _} h => by
    revert h
    cases kind <;> rintro ⟨⟩
    exact ⟨rfl, rfl, rfl⟩⟩

theorem joins_bitXorOf? : Joins bitXorOf? .bitXor .bitAnd :=
  ⟨rfl, by decide, fun {kind _} h => by
    revert h
    cases kind <;> rintro ⟨⟩
    exact ⟨rfl, rfl, rfl⟩⟩

theorem joins_bitOrOf? : Joins bitOrOf? .bitOr .bitXor :=
  ⟨rfl, by decide, fun {kind _} h => by
    revert h
    cases kind <;> rintro ⟨⟩
    exact ⟨rfl, rfl, rfl⟩⟩

/-- A level of the grammar that ends and whose results are paid for at places of a precedence. -/
structure LevelPays (w : Weight) (depth limit : Nat) (p : Precedence) (level : Parse Expr) :
    Prop where
  ends {pre : Token → Prop} : Ends depth limit pre always level
  pays {pre : Token → Prop} (paid : Nat) :
    Pays w depth limit pre paid level fun e => paid + e.demand w p

namespace LevelPays

variable {w : Weight} {depth limit : Nat} {pre : Token → Prop} {p q : Precedence}
  {operand : Parse Expr} {op? : TokenKind → Option BinaryOperator}

theorem operation (h : LevelPays w depth limit q operand) (hjoins : Joins op? p q) (paid : Nat)
    (left : Expr) :
    Pays w depth limit pre (paid + left.demand w p) (Parse.operation op? operand left)
      fun r => paid + r.value.demand w p := by
  refine .kind fun t _ => ?_
  split
  · next op hkind =>
    obtain ⟨hleft, hstrength, hright⟩ := hjoins.strength hkind
    have hsign : t.kind ≠ .endOfInput := by
      intro heq
      rw [heq, hjoins.not_endOfInput] at hkind
      cases hkind
    refine .after (Ends.nextPeeked hsign) fun _ => .bind h.ends (h.pays _) fun right => ?_
    have hbuilt : Pays w depth limit anywhere (paid + left.demand w p + right.demand w q)
        (Parse.exprFrom left.span.start (.binary op left right)) fun e => paid + e.demand w p := by
      refine .exprAt (Nat.le_of_eq (congrArg Precedence.rank hstrength.symm)) ?_
      rw [Expr.Shape.demand, hleft, hright]
      exact Nat.le_of_eq (Nat.add_assoc ..).symm
    exact .bind (Ends.exprFrom _ _) hbuilt fun e => .pure (Nat.le_refl _)
  · exact .pure (Nat.le_refl _)

theorem leftAssociative (h : LevelPays w depth (limit + 1) q operand) (hjoins : Joins op? p q) :
    LevelPays w depth (limit + 1) p (Parse.leftAssociative op? operand) where
  ends := Ends.leftAssociative hjoins.not_endOfInput h.ends
  pays paid := by
    refine .bind h.ends (.looser hjoins.tightens (h.pays paid)) fun left => ?_
    exact .iterate (Ends.operation hjoins.not_endOfInput h.ends) (h.operation hjoins paid) left

/-! ## Conditions -/

theorem furtherComparison (h : LevelPays w depth (limit + 1) .bitOr operand) (paid : Nat) :
    Pays w depth (limit + 1) pre paid (Parse.furtherComparison operand)
      fun o => paid + o.elim 0 (Comparison.demand w) := by
  refine .after Ends.compareOperator fun o => ?_
  cases o with
  | none => exact .pure (Nat.le_refl _)
  | some op => exact .bind h.ends (h.pays paid) fun right => .pure (Nat.le_refl _)

/-- What is collected behind the first of a level is one with it, unless there is nothing. -/
theorem withRest {item : Parse (Option α)} {cost : α → Nat} {total : List α → Nat}
    (shape : Expr → List α → Expr.Shape) (hle : p ≤ q)
    (h : LevelPays w depth (limit + 1) q operand)
    (he : Ends depth (limit + 1) anywhere isThere item)
    (hitem : ∀ paid, Pays w depth (limit + 1) anywhere paid item fun o => paid + o.elim 0 cost)
    (hnil : total [] = 0) (hcons : ∀ a as, total (a :: as) = cost a + total as)
    (hplace : ∀ first rest, p ≤ (shape first rest).precedence)
    (hdemand : ∀ first rest, (shape first rest).demand w = first.demand w q + total rest)
    (paid : Nat) :
    Pays w depth (limit + 1) pre paid (operand >>= fun first => Parse.collect item >>= fun rest =>
      if rest.length = 0 then Pure.pure first
      else Parse.exprFrom first.span.start (shape first rest)) fun e => paid + e.demand w p := by
  refine .bind h.ends (h.pays paid) fun first => ?_
  refine .bind (Ends.collect he) (.collect hnil hcons he hitem _) fun rest => ?_
  refine .ite (fun hnone => .pure ?_) fun _ => .exprAt (hplace first rest) ?_
  · exact Nat.le_trans (Nat.add_le_add_left (first.demand_mono w hle) paid) (Nat.le_add_right _ _)
  · rw [hdemand]
    exact Nat.le_of_eq (Nat.add_assoc ..).symm

theorem furtherCondition {word : TokenKind} (hword : word ≠ .endOfInput)
    (h : LevelPays w depth limit p operand) (paid : Nat) :
    Pays w depth limit pre paid (Parse.furtherCondition word operand)
      fun o => paid + o.elim 0 (Expr.demand w p) := by
  refine .ifAccept hword ?_ (.pure (Nat.le_refl _))
  refine .bind h.ends (h.pays _) fun value => .pure ?_
  exact Nat.add_le_add_right (Nat.le_add_right _ _) _

/-- Conditions that are joined are paid for if each one is. -/
theorem joined (op : BoolOperator) {word : TokenKind} (hword : word ≠ .endOfInput)
    (h : LevelPays w depth (limit + 1) op.operandPrecedence operand) :
    LevelPays w depth (limit + 1) op.precedence (Parse.joined op word operand) where
  ends := Ends.joined op hword h.ends
  pays paid := by
    have htightens : op.precedence ≤ op.operandPrecedence := by cases op <;> decide
    exact withRest (fun first rest => .boolean op (first :: rest)) htightens h
      (Ends.behind hword h.ends.loosely) (h.furtherCondition hword) rfl (fun _ _ => rfl)
      (fun _ _ => Nat.le_refl _) (fun _ _ => rfl) paid

end LevelPays

/-! ## All levels together -/

section Levels

variable {w : Weight} {depth limit : Nat} {read : Reading} {field : FieldReading}
  (h : ReadingEnds depth limit read) (hpay : ReadingPays w depth limit read)
  (hfield : FieldEnds depth field)

include h hpay hfield

theorem levelPays_bitOr : LevelPays w depth (limit + 1) .bitOr (bitOr read field) := by
  have hfactor : LevelPays w depth (limit + 1) .factor (factor read field) :=
    ⟨Ends.factor h hfield, Pays.factor h hpay hfield⟩
  have hsum := (hfactor.leftAssociative joins_productOf?).leftAssociative joins_sumOf?
  have hbits := (hsum.leftAssociative joins_shiftOf?).leftAssociative joins_bitAndOf?
  exact (hbits.leftAssociative joins_bitXorOf?).leftAssociative joins_bitOrOf?

theorem levelPays_comparison :
    LevelPays w depth (limit + 1) .comparison (comparison read field) where
  ends := Ends.comparison h hfield
  pays paid := by
    have hoperand := levelPays_bitOr h hpay hfield
    have hfurther : Ends depth (limit + 1) anywhere isThere
        (furtherComparison (bitOr read field)) :=
      Ends.furtherComparison (hoperand.ends.loosely.mono (Nat.le_succ limit))
    rw [comparison_eq]
    exact LevelPays.withRest .compare (show Precedence.comparison ≤ .bitOr by decide) hoperand
      hfurther hoperand.furtherComparison rfl (Comparison.demandAll_cons w)
      (fun _ _ => Nat.le_refl _) (fun _ _ => rfl) paid

theorem levelPays_inversion : LevelPays w depth (limit + 1) .not (inversion read field) where
  ends := Ends.inversion h hfield
  pays paid := by
    refine .ifAt .kwNot ?_ (.looser (by decide) ((levelPays_comparison h hpay hfield).pays paid))
    refine .deeper (Ends.nextOf (by decide)) (.moves (Ends.nextOf (by decide))) fun start => ?_
    refine .bind (h .inversion) (hpay .inversion paid) fun operand => ?_
    exact .exprAt (show Precedence.not ≤ .not by decide) (Nat.le_refl _)

theorem levelPays_disjunction : LevelPays w depth (limit + 1) .or (disjunction read field) :=
  have hconjunction : LevelPays w depth (limit + 1) .and (conjunction read field) :=
    .joined .and TokenKind.noConfusion (levelPays_inversion h hpay hfield)
  .joined .or TokenKind.noConfusion hconjunction

theorem levelPays_expression : LevelPays w depth (limit + 1) .test (expression read field) where
  ends := Ends.expression h hfield
  pays paid := by
    have hbody := levelPays_disjunction h hpay hfield
    refine .ifAt .kwLambda (Pays.lambda h hpay paid) ?_
    refine .deeper hbody.ends (hbody.pays paid) fun body => ?_
    refine .ifAccept (by decide) (.bind (h .disjunction) (hpay .disjunction _) fun test => ?_)
      (.pure (Nat.add_le_add_left (body.demand_mono w (by decide)) paid))
    refine .after (Ends.expect _) fun _ => ?_
    refine .bind (h .expression) (hpay .expression _) fun orelse => ?_
    refine .exprAt (show Precedence.test ≤ .test by decide) ?_
    simp only [Expr.Shape.demand, Goal.precedence, Weight.ofKind]
    omega

theorem levelPays_goal :
    ∀ g : Goal, LevelPays w depth (limit + 1) g.precedence (goal read field g)
  | .expression => levelPays_expression h hpay hfield
  | .disjunction => levelPays_disjunction h hpay hfield
  | .inversion => levelPays_inversion h hpay hfield
  | .operand => levelPays_bitOr h hpay hfield
  | .factor => ⟨Ends.factor h hfield, Pays.factor h hpay hfield⟩

end Levels

/-- Expressions are paid for however deeply they may be nested. -/
theorem readingPays_readUpTo {w : Weight} {depth : Nat} {field : FieldReading}
    (hfield : FieldEnds depth field) :
    ∀ limit : Nat, ReadingPays w depth limit (readUpTo field limit)
  | 0 => fun _ _ _ _ _ _ hc => absurd hc.length_lt (Nat.not_lt_zero _)
  | limit + 1 => fun g => (levelPays_goal (readingEnds_readUpTo hfield limit)
      (readingPays_readUpTo hfield limit) hfield g).pays

namespace Pays

variable {w : Weight} {depth limit paid : Nat} {pre : Token → Prop} {cost : α → Nat}

/-- What follows the nesting that the tokens ahead allow may use it as a bound. -/
theorem limited {k : Nat → Parse α} (h : ∀ n, Pays w depth n pre paid (k n) cost) :
    Pays w depth limit pre paid (Parse.limit >>= k) cost :=
  fun c _ _ hc hpre hrun => h (c.rest.length + 1) hc.self hpre hrun

theorem wholeExpression {field : FieldReading} (hfield : FieldEnds depth field) :
    Pays w depth limit pre paid (Parse.wholeExpression field)
      fun e => paid + e.demand w .test := by
  refine limited fun n => after Ends.skipNewlines fun _ => ifAt _ (of_fails (fails_failHere _)) ?_
  have hread := readingEnds_readUpTo hfield n
  have hpay := readingPays_readUpTo (w := w) hfield n
  refine bind (Ends.starExpressions hread) (starExpressions hread hpay paid) fun value => ?_
  refine after Ends.skipNewlines fun _ => ?_
  exact ifAt _ (pure (Nat.le_refl _)) (of_fails (fails_failHere _))

/-- What follows the reading of fields goes on with one that ends. -/
theorem field [Unicode.CharacterNames] {k : FieldReading → Parse α}
    (h : ∀ depth field, FieldEnds depth field → Pays w depth limit pre paid (k field) cost) :
    Pays w depth limit pre paid (Parse.field >>= k) cost := fun _ _ _ hc hpre hrun =>
  have htexts := (Cursor.within_longest hc.ends).texts
  h _ _ (fieldEnds_fieldUpTo _) ⟨hc.ends, htexts, hc.length_lt⟩ hpre hrun

theorem onlyExpression [Unicode.CharacterNames] : Pays w depth limit pre paid Parse.onlyExpression
    fun e => paid + e.demand w .test :=
  field fun _ _ hfield => wholeExpression hfield

end Pays

end Parse

/-- The tokens of a source supply what the expression demands that it is read as. -/
theorem Expr.demand_le_of_ofSource [Unicode.CharacterNames] {source : Bytes} {e : Expr}
    (h : Expr.ofSource source = .ok e) :
    ∃ tokens, tokenize false source = .ok tokens ∧
      ∀ w, e.demand w .test ≤ (Cursor.ofTokens (Bytes.lines source) tokens).ahead w := by
  rw [ofSource, Parse.ofSource] at h
  cases htokens : tokenize false source with
  | error cause =>
    rw [htokens] at h
    cases h
  | ok tokens =>
    rw [htokens] at h
    refine ⟨tokens, rfl, fun w => ?_⟩
    obtain ⟨depth, limit, hwithin⟩ :
        ∃ depth limit, (Cursor.ofTokens (Bytes.lines source) tokens).Within depth limit :=
      ⟨_, _, Cursor.within_longest (Cursor.final_ofTokens _ _)⟩
    simp only [Parse.ofTokens] at h
    split at h
    · next value c hrun =>
      cases h
      have hexpression : Parse.Pays w depth limit Parse.anywhere 0 Parse.onlyExpression
          fun e => 0 + e.demand w .test := Parse.Pays.onlyExpression
      have hpays := hexpression hwithin trivial hrun
      simp only at hpays
      omega
    · cases h

end SyntaxTree
