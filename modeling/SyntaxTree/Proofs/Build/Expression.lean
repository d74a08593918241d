import SyntaxTree.Proofs.Build.Phrase
import SyntaxTree.Proofs.Build.Text

/-
# What expressions build

Every level of the grammar of expressions builds well-formed nodes, and so do the replacement fields
of f-strings, whose tokens are divided on their own and carried over to where the field stands.
-/

namespace SyntaxTree

/-! ## Cursors over a source -/

/-- The cursor in front of sound tokens that end with the end of the input. -/
theorem Cursor.isAt_ofTokens (lines : List Bytes) {start stop : Position} {ts : List Token}
    {final : Token} (h : AreSound start stop (ts ++ [final])) (hfinal : final.kind = .endOfInput)
    (hline : 1 ≤ start.line) :
    (ofTokens lines (ts ++ [final])).IsAt (fun _ => True) start ∧
      ∀ t ∈ (ofTokens lines (ts ++ [final])).tokens, t.stop ≤ stop := by
  have hfilter : (ts ++ [final]).filter (·.kind ≠ .comment) =
      ts.filter (·.kind ≠ .comment) ++ [final] := by
    rw [List.filter_append, List.filter_singleton, hfinal]
    rfl
  have hcursor : ofTokens lines (ts ++ [final]) =
      ⟨lines, [], ts.filter (·.kind ≠ .comment), final, 0⟩ := by
    rw [ofTokens, hfilter]
    simp [hfinal]
  rw [hcursor]
  have hsound : AreSound start stop (ts.filter (·.kind ≠ .comment) ++ [final]) :=
    h.sublist (List.filter_sublist.append_right [final])
  exact ⟨⟨⟨hsound.isSound, hsound.ordered, hfinal⟩, hline, hsound.start_le _ (peek_mem_rest _),
    fun _ _ => trivial⟩, hsound.le_stop⟩

/-- What is read from sound tokens lies between their places. -/
theorem Parse.Builds.run_ofTokens {α : Type} {p : Parse α} {P : Position → α → Prop}
    {lines : List Bytes} {start stop : Position} {ts : List Token} {final : Token} {a : α}
    {c : Cursor} (hp : Builds (fun _ => True) anywhere start p P)
    (h : AreSound start stop (ts ++ [final])) (hfinal : final.kind = .endOfInput)
    (hline : 1 ≤ start.line) (hrun : p (.ofTokens lines (ts ++ [final])) = .ok a c) : P stop a := by
  obtain ⟨hcursor, hstop⟩ := Cursor.isAt_ofTokens lines h hfinal hline
  obtain ⟨hmove, ha⟩ := hp hcursor trivial hrun
  refine ha stop (Cursor.front_le ?_ fun t ht => ?_)
  · have hmem : final ∈ ts ++ [final] := List.mem_append_right ts List.mem_cons_self
    refine Int.le_trans hline (Position.line_le_of_le ?_)
    exact Position.le_trans (h.start_le final hmem)
      (Position.le_trans (h.isSound final hmem).start_le_stop (h.le_stop final hmem))
  · refine hstop t ?_
    rw [← hmove.tokens]
    exact List.mem_append_left _ (List.mem_reverse.mpr ht)

namespace Parse

variable {known : Position → Prop} {pre : Token → Prop} {lo : Position}

namespace Builds

/-! ## Atoms -/

/-- A constant stands where its token does. -/
theorem constantFrom {t : Token} {value : Constant} (hvalue : value.IsCanonical)
    (hlo : lo ≤ t.start) :
    Builds (t.start ≤ ·) pre t.start (Parse.exprFrom t.start (.constant value))
      (Expr.Stands .load lo) :=
  exprFrom hlo fun _ hstart => ⟨hstart, by simpa using hvalue⟩

theorem atomOf {t : Token} {value : Constant} (hvalue : value.IsCanonical)
    (hproper : t.kind.isProper) (hlo : lo ≤ t.start) :
    Builds known (· = t) t.start (Parse.atomOf t value) (Expr.Stands .load lo) :=
  nextPeeked hproper (constantFrom hvalue hlo)

/-- An integer has a canonical value because its token has. -/
theorem nextNumber :
    Builds known (fun t => t.kind.isNumber) lo (Parse.next >>= Parse.numberOf)
      (Expr.Stands .load lo) := by
  refine (nextSound fun _ ht => TokenKind.isProper_of_isNumber ht).bind fun t => ?_
  refine raise (fun hi hknown => ?_) fun hlo => exprFrom hlo fun hi hknown => ?_
  · obtain ⟨-, -, hsound, hlo, hstop⟩ := hknown
    exact ⟨hlo, Position.le_trans hsound.start_le_stop hstop⟩
  · obtain ⟨-, hnumber, hsound, -, hstop⟩ := hknown
    refine ⟨Position.le_trans hsound.start_le_stop hstop, ?_⟩
    suffices hvalue : (Literal.number t).IsCanonical by simpa using hvalue
    simp only [Literal.number]
    split
    · trivial
    · trivial
    · next himaginary hfloat =>
      refine hsound.canonical ?_
      generalize t.kind = kind at *
      cases kind <;>
        first | rfl | exact (himaginary rfl).elim | exact (hfloat rfl).elim | cases hnumber

section Levels

variable {read : Reading} {field : FieldReading} (h : ReadingBuilds read)
    (hfield : FieldBuilds field)

include h hfield

theorem atom : BuildsExpr (Parse.atom read field) := by
  intro known pre lo
  refine peek fun t _ hlo => ?_
  have hnumber (ht : t.kind.isNumber) :
      Builds known (· = t) t.start (Parse.next >>= Parse.numberOf) (Expr.Stands .load lo) :=
    (nextNumber.mono (by rintro _ rfl; exact ht)).imp fun _ _ he => he.behind hlo
  have hstrings (ht : t.kind.isText) :
      Builds known (· = t) t.start (Parse.strings field) (Expr.Stands .load lo) :=
    ((strings hfield).mono (by rintro _ rfl; exact ht)).imp fun _ _ he => he.behind hlo
  split
  · next hkind =>
    exact nextPeeked (hkind ▸ rfl) ((nameOf .load hlo fun _ => id).imp fun _ _ he => he.1)
  · next hkind => exact atomOf trivial (hkind ▸ rfl) hlo
  · next hkind => exact atomOf trivial (hkind ▸ rfl) hlo
  · next hkind => exact atomOf trivial (hkind ▸ rfl) hlo
  · next hkind => exact hnumber (by rw [hkind]; rfl)
  · next hkind => exact hnumber (by rw [hkind]; rfl)
  · next hkind => exact hnumber (by rw [hkind]; rfl)
  · next hkind => exact hstrings (by rw [hkind]; rfl)
  · next hkind => exact hstrings (by rw [hkind]; rfl)
  · next hkind => exact hstrings (by rw [hkind]; rfl)
  · next hkind => exact nextPeeked (hkind ▸ rfl) (parenthesized h hlo)
  · next hkind => exact nextPeeked (hkind ▸ rfl) (listDisplay h hlo)
  · next hkind => exact nextPeeked (hkind ▸ rfl) (braceDisplay h hlo)
  all_goals exact failAtToken ..

/-! ## Operators that stand behind or in front -/

omit hfield in
theorem trailer (value : Expr) :
    Builds (fun hi => value.Stands .load lo hi) pre lo (Parse.trailer read value) fun hi r =>
      r.value.Stands .load lo hi := by
  -- What is built begins where the value does, whatever stands behind it.
  refine raise (fun hi hvalue => ⟨hvalue.le_start, hvalue.start_le⟩) fun hlo => ?_
  have hfrom {known : Position → Prop} {shape : Expr.Shape}
      (hshape : ∀ hi, known hi → value.span.start ≤ hi ∧
        (Node.expr (.node ⟨value.span.start, some hi⟩ shape)).Fits .load
          (some ⟨value.span.start, hi⟩)) :
      Builds known anywhere value.span.start
        (Parse.exprFrom value.span.start shape >>= fun e => Pure.pure (ForInStep.yield e))
        fun hi r => r.value.Stands .load lo hi :=
    (exprFrom hlo hshape).bind fun e => pure fun hi => And.right
  refine ifAccept .dot ?_ (ifAccept .openParen ?_ (ifAccept .openBracket ?_ (pure fun _ => id)))
  · refine (expectName .attributeName).bind fun name => hfrom fun hi ⟨hvalue, _⟩ => ?_
    exact ⟨hvalue.start_le, by simpa using hvalue.from_start.within⟩
  · refine (arguments h).bind fun draft => hfrom fun hi ⟨hvalue, hdraft, _⟩ => ?_
    exact ⟨hvalue.start_le,
      by simpa using ⟨hvalue.from_start.within, hdraft.positional, hdraft.keywords⟩⟩
  · refine (slices h).bind fun index => (expect _ rfl).andThen fun _ => hfrom ?_
    exact fun hi ⟨hvalue, hindex⟩ =>
      ⟨hvalue.start_le, by simpa using ⟨hvalue.from_start.within, hindex.within⟩⟩

theorem primary : BuildsExpr (Parse.primary read field) := fun _ _ _ =>
  (atom h hfield).bind fun _ => iterate (fun _ => And.right) (trailer h)

theorem awaited : BuildsExpr (Parse.awaited read field) := by
  intro known pre lo
  refine ifAt .kwAwait (next (proper rfl) fun t _ hlo => ?_) (primary h hfield).builds
  refine (primary h hfield).bind fun value => exprFrom hlo fun hi ⟨hstart, hvalue⟩ => ?_
  exact ⟨hstart, by simpa using hvalue.within⟩

theorem power : BuildsExpr (Parse.power read field) := by
  intro known pre lo
  refine (awaited h hfield).first fun base hlo => ifAccept .doubleStar ?_
    (pure fun hi hbase => hbase.behind hlo)
  refine (h .factor).bind fun exponent => exprFrom hlo fun hi ⟨hbase, hexponent⟩ => ?_
  exact ⟨hbase.start_le, by simpa using ⟨hbase.within, hexponent.within⟩⟩

theorem factor : BuildsExpr (Parse.factor read field) := by
  intro known pre lo
  refine kind fun t _ => ?_
  cases hop : signOf? t.kind with
  | none => exact (power h hfield).builds
  | some op =>
    have hproper : t.kind.isProper := by
      generalize t.kind = kind at hop
      cases kind <;> first | rfl | cases hop
    refine next (by rintro _ rfl; exact hproper) fun t _ hlo => ?_
    refine (h .factor).bind fun operand => exprFrom hlo fun hi ⟨hstart, hoperand⟩ => ?_
    exact ⟨hstart, by simpa using hoperand.within⟩

/-! ## Operators between operands -/

omit h hfield in
theorem leftAssociative {op? : TokenKind → Option BinaryOperator} {operand : Parse Expr}
    (hoperand : BuildsExpr operand) : BuildsExpr (Parse.leftAssociative op? operand) := by
  have hstep (lo : Position) (left : Expr) : Builds (fun hi => left.Stands .load lo hi) anywhere lo
      (Parse.operation op? operand left) fun hi r => r.value.Stands .load lo hi := by
    refine raise (fun hi hleft => ⟨hleft.le_start, hleft.start_le⟩) fun hlo => kind fun t _ => ?_
    split
    · refine skip fun _ _ => hoperand.bind fun right => (exprFrom hlo ?_).bind fun e =>
        pure fun hi => And.right
      exact fun hi ⟨hleft, hright⟩ =>
        ⟨hleft.start_le, by simpa using ⟨hleft.from_start.within, hright.within⟩⟩
    · exact pure fun _ => id
  exact fun _ _ lo => hoperand.bind fun _ => iterate (fun _ => And.right) (hstep lo)

theorem bitOr : BuildsExpr (Parse.bitOr read field) :=
  leftAssociative <| leftAssociative <| leftAssociative <| leftAssociative <| leftAssociative <|
    leftAssociative <| factor h hfield

/-! ## Conditions -/

omit h hfield in
theorem compareOperator : Builds known pre lo Parse.compareOperator whatever := by
  have htake {pre : Token → Prop} (op : CompareOperator) :
      Builds known pre lo (compareOperator.take op) whatever :=
    skip fun _ _ => pure fun _ _ => trivial
  refine kind fun t _ => ?_
  split
  · refine look (Looks.kindAt 1) fun _ => ite (fun _ => ?_) fun _ => pure fun _ _ => trivial
    exact skip fun _ _ => skip fun _ _ => pure fun _ _ => trivial
  · exact skip fun _ _ => (accept _).andThen fun _ => pure fun _ _ => trivial
  · exact htake _
  · exact htake _
  · exact htake _
  · exact htake _
  · exact htake _
  · exact htake _
  · exact htake _
  · exact pure fun _ _ => trivial

theorem comparison : BuildsExpr (Parse.comparison read field) := by
  intro known pre lo
  have hfurther {known : Position → Prop} {lo : Position} : Builds known anywhere lo
      (Parse.furtherComparison (Parse.bitOr read field)) fun hi o =>
        ∀ further ∈ o, (Node.expr further.operand).Within .load lo hi := by
    refine compareOperator.andThen fun o => ?_
    cases o with
    | none => exact notFound
    | some op =>
      refine (bitOr h hfield).bind fun operand => pure ?_
      rintro hi ⟨-, hoperand⟩ _ ⟨⟩
      exact hoperand.within
  rw [comparison_eq]
  refine (bitOr h hfield).first fun left hlo => (collect hfurther).bind fun rest => ?_
  refine ite (fun _ => pure fun hi hknown => hknown.1.behind hlo) fun hlength => exprFrom hlo ?_
  have hrest : rest ≠ [] := fun hnil => hlength (by rw [hnil]; rfl)
  exact fun hi ⟨hleft, hfurther⟩ =>
    ⟨hleft.start_le, by simpa using ⟨hrest, hleft.within, hfurther⟩⟩

theorem inversion : BuildsExpr (Parse.inversion read field) := by
  intro known pre lo
  refine ifAt .kwNot (next (proper rfl) fun t _ hlo => ?_) (comparison h hfield).builds
  refine (h .inversion).bind fun operand => exprFrom hlo fun hi ⟨hstart, hoperand⟩ => ?_
  exact ⟨hstart, by simpa using hoperand.within⟩

omit h hfield in
theorem joined (op : BoolOperator) (word : TokenKind) {operand : Parse Expr}
    (hoperand : BuildsExpr operand) : BuildsExpr (Parse.joined op word operand) := by
  intro known pre lo
  refine hoperand.first fun first hlo =>
    (collect (behind word hoperand.within)).bind fun rest => ?_
  refine ite (fun _ => pure fun hi hknown => hknown.1.behind hlo) fun hlength => exprFrom hlo ?_
  have hrest : 1 ≤ rest.length := Nat.one_le_iff_ne_zero.mpr hlength
  exact fun hi ⟨hfirst, hfurther⟩ =>
    ⟨hfirst.start_le, by simpa using ⟨hrest, hfirst.within, hfurther⟩⟩

theorem disjunction : BuildsExpr (Parse.disjunction read field) :=
  joined .or .kwOr (joined .and .kwAnd (inversion h hfield))

theorem expression : BuildsExpr (Parse.expression read field) := by
  intro known pre lo
  refine ifAt .kwLambda (lambda h) ((disjunction h hfield).first fun body hlo => ?_)
  refine ifAccept .kwIf ?_ (pure fun hi hbody => hbody.behind hlo)
  refine (h .disjunction).bind fun test => (expect _ rfl).andThen fun _ => ?_
  refine (h .expression).bind fun orelse => exprFrom hlo fun hi ⟨⟨hbody, htest⟩, horelse⟩ => ?_
  exact ⟨hbody.start_le, by simpa using ⟨hbody.within, htest.within, horelse.within⟩⟩

/-! ## All levels together -/

theorem goal : ∀ g : Goal, BuildsExpr (Parse.goal read field g)
  | .expression => expression h hfield
  | .disjunction => disjunction h hfield
  | .inversion => inversion h hfield
  | .operand => bitOr h hfield
  | .factor => factor h hfield

end Levels

end Builds

/-- Expressions are built however deep they are nested. -/
theorem readingBuilds_readUpTo {field : FieldReading} (hfield : FieldBuilds field) :
    ∀ limit : Nat, ReadingBuilds (readUpTo field limit)
  | 0 => fun _ _ _ _ => .failHere _
  | limit + 1 => Builds.goal (readingBuilds_readUpTo hfield limit) hfield

theorem Looks.limit : Looks limit := fun _ => ⟨_, rfl⟩

theorem Builds.wholeExpression {field : FieldReading} (hfield : FieldBuilds field) :
    BuildsExpr (Parse.wholeExpression field) := by
  intro known pre lo
  refine look Looks.limit fun limit => skipNewlines.andThen fun _ => ifAt _ (failHere _) ?_
  have hread := readingBuilds_readUpTo hfield limit
  refine (starExpressions hread).bind fun value => skipNewlines.andThen fun _ => ?_
  exact ifAt _ (pure fun _ => And.right) (failHere _)

/-! ## Replacement fields -/

/-- The expression of a field stands where its source does, however deep fields are nested. -/
theorem fieldBuilds_fieldUpTo {names : Unicode.CharacterNames} :
    ∀ depth : Nat, FieldBuilds (fieldUpTo names depth)
  | 0 => fun source place c e c' _ hrun => by cases hrun
  | depth + 1 => fun source place c e c' hline hrun => by
    have hwhole : BuildsExpr (wholeExpression (fieldUpTo names depth)) :=
      Builds.wholeExpression (fieldBuilds_fieldUpTo depth)
    simp only [fieldUpTo] at hrun
    cases htokens : tokenize false (text "(" ++ source ++ text ")") with
    | error error =>
      rw [htokens] at hrun
      cases hrun
    | ok tokens =>
      rw [htokens] at hrun
      obtain ⟨_, _, hget, hrun⟩ := exists_of_bind_eq_ok hrun
      cases hget
      obtain ⟨hsound, ts, final, rfl, hfinal⟩ := areSound_of_tokenize htokens
      -- The tokens of the field are those of its source in parentheses, moved to its place.
      have hmoved := hsound.inField hline
      rw [List.map_append, List.map_singleton] at hmoved hrun
      cases hvalue : wholeExpression (fieldUpTo names depth)
          (.ofTokens c.lines (ts.map (·.inField place) ++ [final.inField place])) with
      | error error c₁ =>
        rw [EStateM.run, hvalue] at hrun
        cases hrun
      | ok value c₁ =>
        rw [EStateM.run, hvalue] at hrun
        cases hrun
        refine ⟨rfl, ?_⟩
        exact (hwhole _ _ _).run_ofTokens hmoved hfinal
          (Position.one_le_line_inField hline (by decide)) hvalue

/-! ## The readings of a source -/

namespace Builds

/-- What follows the reading of fields goes on with one that builds. -/
theorem field [Unicode.CharacterNames] {α : Type} {k : FieldReading → Parse α}
    {P : Position → α → Prop} (h : ∀ field, FieldBuilds field → Builds known pre lo (k field) P) :
    Builds known pre lo (Parse.field >>= k) P :=
  fun _ _ _ hc hpre hrun => h _ (fieldBuilds_fieldUpTo _) hc hpre hrun

/-- What follows the reading of expressions goes on with one that builds. -/
theorem reading [Unicode.CharacterNames] {α : Type} {k : Reading → Parse α}
    {P : Position → α → Prop} (h : ∀ read, ReadingBuilds read → Builds known pre lo (k read) P) :
    Builds known pre lo (Parse.reading >>= k) P :=
  fun _ _ _ hc hpre hrun =>
    h _ (readingBuilds_readUpTo (fieldBuilds_fieldUpTo _) _) hc hpre hrun

theorem onlyExpression [Unicode.CharacterNames] : BuildsExpr Parse.onlyExpression :=
  fun known pre lo => field fun _ hfield => wholeExpression hfield known pre lo

end Builds

end Parse

end SyntaxTree
