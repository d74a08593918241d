import SyntaxTree.Proofs.Build.Expression
import SyntaxTree.Proofs.Ending.Phrase
import SyntaxTree.Proofs.Ending.Text

/-
# Expressions are read to their end

Every level of the grammar of expressions takes a token before it reads an expression of a weaker
level, so the tokens ahead bound how deep expressions are nested.  The tokens of a replacement field
are those of a source that is shorter than the literal around it, so the literals ahead bound how
deep fields are nested.
-/

namespace SyntaxTree

/-! ## Literals of a source -/

/-- A literal stands for a part of the source. -/
theorem Token.isPlaced_of_isText {t : Token} (h : t.kind.isText) : t.isPlaced = true := by
  have hproper := TokenKind.isProper_of_isText h
  simp only [TokenKind.isProper, Bool.and_eq_true] at hproper
  simp only [isPlaced, Bool.and_eq_true]
  exact ⟨hproper.1.1, hproper.2⟩

/-- No literal is among tokens that stand for no part of the source. -/
theorem Token.not_isText_of_filter {ts : List Token} (h : ts.filter isPlaced = []) :
    ∀ t ∈ ts, ¬ t.kind.isText :=
  fun t ht htext => List.filter_eq_nil_iff.mp h t ht (isPlaced_of_isText htext)

namespace Layout

/-- A literal that a lexeme adds has the text of the lexeme. -/
theorem Adds.length_text_le {keepComments : Bool} {layout layout' : Layout} {lexeme : Lexeme}
    {emitted : List Token} (h : Adds keepComments layout lexeme emitted layout') :
    ∀ t ∈ emitted, t.kind.isText → t.text.length ≤ lexeme.text.length := by
  have hnone (hfilter : emitted.filter Token.isPlaced = []) :
      ∀ t ∈ emitted, t.kind.isText → t.text.length ≤ lexeme.text.length :=
    fun t ht htext => absurd htext (Token.not_isText_of_filter hfilter t ht)
  cases h with
  | blank s => exact List.forall_mem_nil _
  | comment s =>
    intro t ht htext
    split at ht
    · rw [List.mem_singleton.mp ht] at htext
      cases htext
    · cases ht
  | lineEnd s hdepth => exact hnone (by split <;> rfl)
  | innerEnd s hdepth => exact List.forall_mem_nil _
  | join s hopens => exact hnone hopens.isPlaced_eq_false
  | @token opened opening kind s hkind hopens =>
    intro t ht htext
    rcases List.mem_append.mp ht with ht | ht
    · exact absurd htext (Token.not_isText_of_filter hopens.isPlaced_eq_false t ht)
    · obtain rfl := List.mem_singleton.mp ht
      have hname : ¬ (kind = .identifier ∧ s.any Byte.isNonAscii) := by
        rintro ⟨rfl, -⟩
        cases htext
      show (tokenText kind s).length ≤ s.length
      rw [tokenText, if_neg hname]

/-- A literal among the tokens of a text is no longer than the text. -/
theorem Run.length_text_le {keepComments : Bool} {s : Bytes} {layout final : Layout}
    {tokens : List Token} (h : Run keepComments s layout tokens final) :
    ∀ t ∈ tokens, t.kind.isText → t.text.length ≤ s.length := by
  induction h with
  | nil => exact List.forall_mem_nil _
  | @cons b t rest kind layout layout' final emitted more hnext hadds hrest ih =>
    refine List.forall_mem_append.mpr ⟨fun u hu htext => ?_, fun u hu htext => ?_⟩
    · have hfirst := hadds.length_text_le u hu htext
      rw [List.length_append]
      exact Nat.le_add_right_of_le hfirst
    · have hmore := ih u hu htext
      rw [List.length_append]
      exact Nat.le_add_left_of_le hmore

end Layout

theorem length_text_le_of_tokenize {keepComments : Bool} {source : Bytes} {tokens : List Token}
    (h : tokenize keepComments source = .ok tokens) :
    ∀ t ∈ tokens, t.kind.isText → t.text.length ≤ source.length := by
  obtain ⟨body, final, rfl, hrun⟩ := exists_run_of_tokenize h
  obtain ⟨mark, hsource, -⟩ := exists_append_dropMark source
  intro t ht htext
  rcases List.mem_append.mp ht with ht | ht
  · have hbody := hrun.length_text_le t ht htext
    rw [hsource, List.length_append]
    exact Nat.le_add_left_of_le hbody
  · exact absurd htext (Token.not_isText_of_filter final.finish_isPlaced_eq_false t ht)

/-! ## Cursors over any tokens -/

namespace Cursor

theorem final_ofTokens (lines : List Bytes) (tokens : List Token) :
    (ofTokens lines tokens).final.kind = .endOfInput := by
  unfold ofTokens
  dsimp only
  split
  · rfl
  · next last _ =>
    by_cases hlast : last.kind = .endOfInput
    · rw [if_pos hlast]
      exact hlast
    · rw [if_neg hlast]
      rfl

/-- In front of all tokens, no reading is under way. -/
theorem attempts_ofTokens (lines : List Bytes) (tokens : List Token) :
    (ofTokens lines tokens).attempts = 0 := by
  unfold ofTokens
  dsimp only
  split
  · rfl
  · split <;> rfl

theorem lines_ofTokens (lines : List Bytes) (tokens : List Token) :
    (ofTokens lines tokens).lines = lines := by
  unfold ofTokens
  dsimp only
  split
  · rfl
  · split <;> rfl

theorem mem_of_mem_rest_ofTokens {lines : List Bytes} {tokens : List Token} {t : Token}
    (h : t ∈ (ofTokens lines tokens).rest) : t ∈ tokens := by
  unfold ofTokens at h
  dsimp only at h
  split at h
  · cases h
  · next last _ =>
    by_cases hlast : last.kind = .endOfInput
    · rw [if_pos hlast] at h
      exact List.mem_of_mem_filter (List.dropLast_subset _ h)
    · rw [if_neg hlast] at h
      exact List.mem_of_mem_filter h

/-- In front of all tokens, these bound how often expressions are nested. -/
theorem within_ofTokens (lines : List Bytes) {tokens : List Token} {depth : Nat}
    (h : ∀ t ∈ tokens, t.kind.isText → t.text.length ≤ depth + 2) :
    (ofTokens lines tokens).Within depth ((ofTokens lines tokens).rest.length + 1) :=
  ⟨final_ofTokens lines tokens, fun t ht => h t (mem_of_mem_rest_ofTokens ht), Nat.lt_succ_self _⟩

/-- No token is longer than the longest. -/
theorem length_text_le_foldl (ts : List Token) (n : Nat) :
    n ≤ ts.foldl (fun n token => max n token.text.length) n ∧
      ∀ t ∈ ts, t.text.length ≤ ts.foldl (fun n token => max n token.text.length) n := by
  induction ts generalizing n with
  | nil => exact ⟨Nat.le_refl n, List.forall_mem_nil _⟩
  | cons t ts ih =>
    obtain ⟨hmax, hmem⟩ := ih (max n t.text.length)
    refine ⟨Nat.le_trans (Nat.le_max_left _ _) hmax, List.forall_mem_cons.mpr ⟨?_, hmem⟩⟩
    exact Nat.le_trans (Nat.le_max_right _ _) hmax

/-- The bounds that readings find at a cursor are large enough there. -/
theorem within_longest {c : Cursor} (hends : c.final.kind = .endOfInput) :
    c.Within (c.rest.foldl (fun n token => max n token.text.length) 0 + 1) (c.rest.length + 1) := by
  refine ⟨hends, fun t ht _ => ?_, Nat.lt_succ_self _⟩
  exact Nat.le_add_right_of_le (Nat.le_add_right_of_le ((length_text_le_foldl _ 0).2 t ht))

end Cursor

namespace Parse

variable {α : Type} {depth limit : Nat} {pre : Token → Prop}

namespace Ends

section Levels

variable {read : Reading} {field : FieldReading} (h : ReadingEnds depth limit read)
  (hfield : FieldEnds depth field)

/-! ## Atoms -/

theorem atomOf {t : Token} (ht : t.kind ≠ .endOfInput) (value : Constant) :
    Ends depth limit (· = t) always (Parse.atomOf t value) :=
  (nextPeeked ht).first fun _ => exprFrom _ _

theorem nextNumber {t : Token} (ht : t.kind ≠ .endOfInput) :
    Ends depth limit (· = t) always (Parse.next >>= Parse.numberOf) :=
  (nextPeeked ht).first fun _ => exprFrom _ _

include h hfield

theorem atom : Ends depth (limit + 1) pre always (Parse.atom read field) := by
  refine peek fun t _ => ?_
  split
  · next hkind => exact (nextPeeked (by simp [hkind])).first fun name => nameOf name .load
  · next hkind => exact atomOf (by simp [hkind]) _
  · next hkind => exact atomOf (by simp [hkind]) _
  · next hkind => exact atomOf (by simp [hkind]) _
  · next hkind => exact nextNumber (by simp [hkind])
  · next hkind => exact nextNumber (by simp [hkind])
  · next hkind => exact nextNumber (by simp [hkind])
  · next hkind => exact (strings hfield).at_token (by rw [hkind]; rfl)
  · next hkind => exact (strings hfield).at_token (by rw [hkind]; rfl)
  · next hkind => exact (strings hfield).at_token (by rw [hkind]; rfl)
  · next hkind => exact (nextPeeked (by simp [hkind])).deeper fun t => parenthesized h t.start
  · next hkind => exact (nextPeeked (by simp [hkind])).deeper fun t => listDisplay h t.start
  · next hkind => exact (nextPeeked (by simp [hkind])).deeper fun t => braceDisplay h t.start
  all_goals exact failAtToken _ rfl

/-! ## Operators that stand behind or in front -/

omit hfield in
theorem trailer (value : Expr) : Ends depth limit pre isYield (Parse.trailer read value) := by
  have hfrom (shape : Expr.Shape) : Ends depth limit anywhere never
      (Parse.exprFrom value.span.start shape >>= fun e => Pure.pure (ForInStep.yield e)) :=
    (exprFrom _ _).bind fun e => result _
  refine ifAccept (by decide) ?_ (ifAccept (by decide) ?_ (ifAccept (by decide) ?_ (pure id)))
  · exact (expectName .attributeName).bind fun name => hfrom _
  · exact (arguments h).bind fun draft => hfrom _
  · exact (slices h).bind fun index => (expect _).bind fun _ => hfrom _

theorem primary : Ends depth (limit + 1) pre always (Parse.primary read field) :=
  (atom h hfield).deeper fun value => iterate (trailer h) value

theorem awaited : Ends depth (limit + 1) pre always (Parse.awaited read field) := by
  refine ifAt .kwAwait ((nextOf (by decide)).first fun start => ?_) (primary h hfield)
  exact (primary h hfield).bind fun value => exprFrom _ _

theorem power : Ends depth (limit + 1) pre always (Parse.power read field) := by
  refine (awaited h hfield).deeper fun base => ifAccept (by decide) ?_ (result base)
  exact (h .factor).bind fun exponent => exprFrom _ _

theorem factor : Ends depth (limit + 1) pre always (Parse.factor read field) := by
  refine kind fun t _ => ?_
  cases hop : signOf? t.kind with
  | none => exact power h hfield
  | some op =>
    have hkind : t.kind ≠ .endOfInput := by
      intro hend
      rw [hend] at hop
      cases hop
    refine (nextPeeked hkind).deeper fun start => ?_
    exact (h .factor).bind fun operand => exprFrom _ _

/-! ## Operators between operands -/

omit h hfield in
/-- An operator is a token that does not end the input. -/
theorem operation {op? : TokenKind → Option BinaryOperator} {operand : Parse Expr}
    (hop : op? .endOfInput = none) (hoperand : Ends depth limit anywhere always operand)
    (left : Expr) : Ends depth limit pre isYield (Parse.operation op? operand left) := by
  refine kind fun t _ => ?_
  split
  · next op hkind =>
    refine (nextPeeked ?_).first fun _ => hoperand.bind fun right => ?_
    · intro hend
      rw [hend, hop] at hkind
      cases hkind
    · exact (exprFrom _ _).bind fun _ => result _
  · exact pure id

omit h hfield in
theorem leftAssociative {op? : TokenKind → Option BinaryOperator} {operand : Parse Expr}
    (hop : op? .endOfInput = none)
    (hoperand : ∀ {pre : Token → Prop}, Ends depth (limit + 1) pre always operand) :
    Ends depth (limit + 1) pre always (Parse.leftAssociative op? operand) :=
  hoperand.deeper fun left =>
    iterate (operation hop (hoperand.mono (Nat.le_succ limit))) left

theorem bitOr : Ends depth (limit + 1) pre always (Parse.bitOr read field) :=
  leftAssociative rfl <| leftAssociative rfl <| leftAssociative rfl <| leftAssociative rfl <|
    leftAssociative rfl <| leftAssociative rfl <| factor h hfield

/-! ## Conditions -/

omit h hfield in
/-- The operator of a comparison is one token or two. -/
theorem compareOperator : Ends depth limit pre isThere Parse.compareOperator := by
  have htake {t : Token} (ht : t.kind ≠ .endOfInput) (op : CompareOperator) :
      Ends depth limit (· = t) isThere (compareOperator.take op) :=
    (nextPeeked ht).first fun _ => result _
  refine kind fun t _ => ?_
  split
  · next hkind =>
    refine look (Looks.kindAt 1) fun _ => ite (fun _ => ?_) fun _ => pure Bool.noConfusion
    exact (nextPeeked (by simp [hkind])).first fun _ => skip.bind fun _ => result _
  · next hkind =>
    exact (nextPeeked (by simp [hkind])).first fun _ => (accept _).bind fun _ => result _
  · next hkind => exact htake (by simp [hkind]) _
  · next hkind => exact htake (by simp [hkind]) _
  · next hkind => exact htake (by simp [hkind]) _
  · next hkind => exact htake (by simp [hkind]) _
  · next hkind => exact htake (by simp [hkind]) _
  · next hkind => exact htake (by simp [hkind]) _
  · next hkind => exact htake (by simp [hkind]) _
  · exact pure Bool.noConfusion

omit h hfield in
theorem furtherComparison {operand : Parse Expr}
    (hoperand : Ends depth limit anywhere never operand) :
    Ends depth (limit + 1) pre isThere (Parse.furtherComparison operand) :=
  compareOperator.found (fun _ => hoperand.bind fun _ => result _) (pure Bool.noConfusion)

theorem comparison : Ends depth (limit + 1) pre always (Parse.comparison read field) := by
  have hoperand : Ends depth limit anywhere never (Parse.bitOr read field) :=
    (bitOr h hfield).loosely.mono (Nat.le_succ limit)
  rw [comparison_eq]
  refine (bitOr h hfield).deeper fun left => ?_
  refine (collect ((furtherComparison hoperand).mono (Nat.le_succ limit))).bind fun rest => ?_
  exact ite (fun _ => result left) fun _ => exprFrom _ _

theorem inversion : Ends depth (limit + 1) pre always (Parse.inversion read field) := by
  refine ifAt .kwNot ((nextOf (by decide)).deeper fun start => ?_) (comparison h hfield)
  exact (h .inversion).bind fun operand => exprFrom _ _

omit h hfield in
theorem joined (op : BoolOperator) {word : TokenKind} (hword : word ≠ .endOfInput)
    {operand : Parse Expr}
    (hoperand : ∀ {pre : Token → Prop}, Ends depth (limit + 1) pre always operand) :
    Ends depth (limit + 1) pre always (Parse.joined op word operand) := by
  have hbehind : Ends depth limit anywhere never operand :=
    hoperand.loosely.mono (Nat.le_succ limit)
  refine hoperand.deeper fun first => (collect (behind hword hbehind)).bind fun rest => ?_
  exact ite (fun _ => result first) fun _ => exprFrom _ _

theorem disjunction : Ends depth (limit + 1) pre always (Parse.disjunction read field) :=
  joined .or (by decide) (joined .and (by decide) (inversion h hfield))

theorem expression : Ends depth (limit + 1) pre always (Parse.expression read field) := by
  refine ifAt .kwLambda (lambda h) ((disjunction h hfield).deeper fun body => ?_)
  refine ifAccept (by decide) ((h .disjunction).bind fun test => ?_) (result body)
  exact (expect _).bind fun _ => (h .expression).bind fun orelse => exprFrom _ _

/-! ## All levels together -/

theorem goal : ∀ (g : Goal) {pre : Token → Prop},
    Ends depth (limit + 1) pre always (Parse.goal read field g)
  | .expression, _ => expression h hfield
  | .disjunction, _ => disjunction h hfield
  | .inversion, _ => inversion h hfield
  | .operand, _ => bitOr h hfield
  | .factor, _ => factor h hfield

end Levels

end Ends

/-- Expressions are read to their end if they may be nested as deep as there are tokens. -/
theorem readingEnds_readUpTo {field : FieldReading} (hfield : FieldEnds depth field) :
    ∀ limit : Nat, ReadingEnds depth limit (readUpTo field limit)
  | 0 => fun _ _ _ hc => absurd hc.length_lt (Nat.not_lt_zero _)
  | limit + 1 => Ends.goal (readingEnds_readUpTo hfield limit) hfield

namespace Ends

/-- What follows the nesting that the tokens ahead allow may use it as a bound. -/
theorem limited {taken : α → Prop} {k : Nat → Parse α}
    (h : ∀ n, Ends depth n pre taken (k n)) : Ends depth limit pre taken (Parse.limit >>= k) :=
  fun c hc hpre => h (c.rest.length + 1) c hc.self hpre

theorem wholeExpression {field : FieldReading} (hfield : FieldEnds depth field) :
    Ends depth limit pre never (Parse.wholeExpression field) := by
  refine limited fun n => skipNewlines.bind fun _ => ifAt _ (failHere rfl) ?_
  have hread := readingEnds_readUpTo hfield n
  refine (starExpressions hread).bind fun value => skipNewlines.bind fun _ => ?_
  exact ifAt _ (result value) (failHere rfl)

end Ends

/-! ## Replacement fields -/

/-- Fields are read to their end if they may be nested more often than their source is long. -/
theorem fieldEnds_fieldUpTo {names : Unicode.CharacterNames} :
    ∀ depth : Nat, FieldEnds depth (fieldUpTo names depth)
  | 0 => fun _ _ _ _ _ hsource => absurd hsource (Nat.not_lt_zero _)
  | depth + 1 => fun source place n limit pre hsource c _ _ => by
    simp only [fieldUpTo]
    cases htokens : tokenize false (text "(" ++ source ++ text ")") with
    | error e => exact ⟨.refl c, rfl, c.shows_errorAt _ _ _⟩
    | ok tokens =>
      have htexts : ∀ t ∈ tokens.map (·.inField place), t.kind.isText →
          t.text.length ≤ depth + 2 := by
        refine List.forall_mem_map.mpr fun t ht htext => ?_
        have hlength := length_text_le_of_tokenize htokens t ht htext
        simp only [List.length_append] at hlength
        show t.text.length ≤ depth + 2
        have hparens : (text "(").length + (text ")").length = 2 := by decide
        omega
      have hends : ∀ n, Ends depth n anywhere never (wholeExpression (fieldUpTo names depth)) :=
        fun _ => Ends.wholeExpression (fieldEnds_fieldUpTo depth)
      have hwhole := hends _ _ (Cursor.within_ofTokens c.lines htexts) trivial
      -- What the expression leaves behind of its own tokens is dropped.
      dsimp only
      rw [bind_ok (show (get : Parse Cursor) c = .ok c c from rfl), EStateM.run]
      cases hrun : wholeExpression (fieldUpTo names depth)
          (.ofTokens c.lines (tokens.map (·.inField place))) with
      | ok value c' => exact ⟨.refl c, False.elim⟩
      | error e c' =>
        rw [hrun] at hwhole
        obtain ⟨-, hunending, hshows⟩ := hwhole
        have hcontext := hshows (Cursor.attempts_ofTokens _ _)
        rw [Cursor.lines_ofTokens] at hcontext
        exact ⟨.refl c, hunending, fun _ => hcontext⟩

/-! ## The readings of a source -/

namespace Ends

variable {taken : α → Prop}

/-- What follows the reading of fields goes on with one that ends. -/
theorem field [Unicode.CharacterNames] {k : FieldReading → Parse α}
    (h : ∀ depth field, FieldEnds depth field → Ends depth limit pre taken (k field)) :
    Ends depth limit pre taken (Parse.field >>= k) := fun c hc hpre =>
  have htexts := (Cursor.within_longest hc.ends).texts
  h _ _ (fieldEnds_fieldUpTo _) c ⟨hc.ends, htexts, hc.length_lt⟩ hpre

/-- What follows the reading of expressions goes on with one that ends. -/
theorem reading [Unicode.CharacterNames] {k : Reading → Parse α}
    (h : ∀ depth n read, ReadingEnds depth n read → Ends depth n pre taken (k read)) :
    Ends depth limit pre taken (Parse.reading >>= k) :=
  field fun _ _ hfield => limited fun n => h _ n _ (readingEnds_readUpTo hfield n)

/-- What follows the readings that statements are made of goes on with ones that end. -/
theorem readings [Unicode.CharacterNames] {k : FieldReading → Reading → Nat → Parse α}
    (h : ∀ depth n field read, FieldEnds depth field → ReadingEnds depth n read →
      Ends depth n pre taken (k field read n)) :
    Ends depth limit pre taken (Parse.field >>= fun field => Parse.reading >>= fun read =>
      Parse.limit >>= fun n => k field read n) := fun c hc hpre =>
  -- All three are found at one cursor, so the same bounds are large enough for them.
  have hfield := fieldEnds_fieldUpTo _
  h _ _ _ _ hfield (readingEnds_readUpTo hfield _) c (Cursor.within_longest hc.ends) hpre

theorem onlyExpression [Unicode.CharacterNames] : Ends depth limit pre never Parse.onlyExpression :=
  field fun _ _ hfield => wholeExpression hfield

end Ends

end Parse

end SyntaxTree
