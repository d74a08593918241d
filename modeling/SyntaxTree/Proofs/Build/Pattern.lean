import SyntaxTree.Grammar.Pattern
import SyntaxTree.Proofs.Build.Expression

/-
# What patterns build

Every kind of pattern builds well-formed nodes if the patterns within it are well formed.
-/

namespace SyntaxTree.Parse

/-- A reading that gives patterns, wherever it begins. -/
def BuildsPattern (p : Parse Pattern) : Prop :=
  ∀ (known : Position → Prop) (pre : Token → Prop) (lo : Position),
    Builds known pre lo p (Pattern.Stands lo)

theorem BuildsPattern.within {known : Position → Prop} {pre : Token → Prop} {lo : Position}
    {p : Parse Pattern} (h : BuildsPattern p) :
    Builds known pre lo p fun hi p => (Node.pattern p).Within .load lo hi :=
  (h known pre lo).imp fun _ _ hp => hp.within

/-- The patterns of a class that have been read lie between two places. -/
structure RecordDraft.IsBuilt (lo hi : Position) (draft : RecordDraft) : Prop where
  positional : ∀ p ∈ draft.positional, (Node.pattern p).Within .load lo hi
  attributes : ∀ p ∈ draft.attributes.right, (Node.pattern p).Within .load lo hi

/-- The entries of a mapping that have been read lie between two places. -/
structure MappingDraft.IsBuilt (lo hi : Position) (draft : MappingDraft) : Prop where
  keys : ∀ e ∈ draft.entries.left, (Node.expr e).Within .load lo hi
  patterns : ∀ p ∈ draft.entries.right, (Node.pattern p).Within .load lo hi

theorem Looks.endsPatterns : Looks endsPatterns :=
  Looks.kind.bind fun k => by split <;> exact pure _

namespace Builds

variable {α : Type} {known : Position → Prop} {pre : Token → Prop} {lo start : Position}

/-! ## Values -/

/-- A number is read where one stands. -/
theorem number {k : Expr → Parse α} {P : Position → α → Prop} (hpre : ∀ t, pre t → t.kind.isNumber)
    (hk : ∀ e, Builds (fun hi => known hi ∧ e.Stands .load lo hi) anywhere lo (k e) P) :
    Builds known pre lo (Parse.next >>= fun t => Parse.numberOf t >>= k) P := by
  rw [← bind_assoc]
  exact (nextNumber.mono hpre).bind hk

theorem signedNumber : BuildsExpr Parse.signedNumber := by
  intro known pre lo
  refine peek fun start _ hlo => (accept .minus).andThen fun isNegative => kind fun t _ => ?_
  refine ite (fun hnumber => number (by rintro _ rfl; exact hnumber) fun e => ?_) fun _ =>
    failHere _
  refine ite (fun _ => exprFrom hlo fun hi hknown => ?_) fun _ => pure fun hi hknown =>
    hknown.2.behind hlo
  exact ⟨hknown.2.le, by simpa using hknown.2.within⟩

theorem imaginaryPart {op : BinaryOperator} {real : Expr} (hlo : lo ≤ start) :
    Builds (fun hi => real.Stands .load start hi) pre start (Parse.imaginaryPart start op real)
      (Expr.Stands .load lo) := by
  refine skip fun _ _ => ifAt .imaginary (number (fun t ht => by rw [ht]; rfl) fun e => ?_)
    (failHere _)
  refine exprFrom hlo fun hi ⟨hreal, himaginary⟩ => ?_
  exact ⟨hreal.le, by simpa using ⟨hreal.within, himaginary.within⟩⟩

theorem complexNumber : BuildsExpr Parse.complexNumber := by
  intro known pre lo
  refine peek fun start _ hlo => signedNumber.bind fun real => kind fun t _ => ?_
  split
  · exact (imaginaryPart hlo).knowing fun _ => And.right
  · exact (imaginaryPart hlo).knowing fun _ => And.right
  · exact pure fun hi hknown => hknown.2.behind hlo

section Patterns

variable {field : FieldReading} (hfield : FieldBuilds field)

include hfield

theorem unformatted :
    Builds known (fun t => t.kind.isText) lo (Parse.unformatted field) (Expr.Stands .load lo) := by
  refine (strings hfield).bind fun value => ?_
  split
  · exact failAtSpan ..
  · exact pure fun _ => And.right

theorem literalValue : BuildsExpr (Parse.literalValue field) := by
  intro known pre lo
  refine peek fun t _ hlo => ?_
  have hunformatted (ht : t.kind.isText) :
      Builds known (· = t) t.start (Parse.unformatted field) (Expr.Stands .load lo) :=
    ((unformatted hfield).mono (by rintro _ rfl; exact ht)).imp fun _ _ he => he.behind hlo
  split
  · next hkind => exact atomOf trivial (hkind ▸ rfl) hlo
  · next hkind => exact atomOf trivial (hkind ▸ rfl) hlo
  · next hkind => exact hunformatted (by rw [hkind]; rfl)
  · next hkind => exact hunformatted (by rw [hkind]; rfl)
  · next hkind => exact hunformatted (by rw [hkind]; rfl)
  · exact (complexNumber _ _ _).imp fun _ _ he => he.behind hlo

omit hfield in
theorem dottedValue :
    Builds known (fun t => t.kind = .identifier) lo Parse.dottedValue (Expr.Stands .load lo) := by
  refine next (proper rfl) fun t _ hlo => (nameOf .load (Position.le_refl _) fun _ => id).bind
    fun name => (iterate (I := fun hi e => e.Stands .load t.start hi) (fun _ hknown => hknown.2.1)
      fun value => ?_).imp fun _ _ he => he.behind hlo
  refine ifAccept .dot ((expectName .patternAttribute).bind fun name => ?_) (pure fun _ => id)
  refine (exprFrom (Position.le_refl _) fun hi ⟨hvalue, _⟩ => ?_).bind fun e => pure fun _ =>
    And.right
  exact ⟨hvalue.le, by simpa using hvalue.within⟩

/-! ## Patterns within patterns -/

variable {inner : Parse Pattern} (hinner : BuildsPattern inner)

include hinner

omit hfield in
theorem starOr : BuildsPattern (Parse.starOr inner) := by
  intro known pre lo
  refine ifAt .star (next (proper rfl) fun t _ hlo => ?_) (hinner _ _ _)
  exact (expectName .starPattern).bind fun name => patternFrom hlo fun hi ⟨hstart, _⟩ =>
    ⟨hstart, by simp⟩

omit hfield in
theorem parenthesizedPattern (hlo : lo ≤ start) :
    Builds (start ≤ ·) pre start (Parse.parenthesizedPattern inner start) (Pattern.Stands lo) := by
  refine ifAccept .closeParen (patternFrom hlo fun hi hstart => ⟨hstart, by simp⟩) ?_
  refine (starOr hinner _ _ _).bind fun first => look (Looks.at? _) fun _ => ?_
  refine ite (fun _ => skip fun _ _ => pure fun hi hknown => hknown.2.behind hlo) fun _ => ?_
  refine (moreItems (Looks.at? _) (starOr hinner).within).bind fun rest => ?_
  refine (expect _ rfl).andThen fun _ => patternFrom hlo fun hi ⟨⟨hstart, hfirst⟩, hrest⟩ => ?_
  exact ⟨hstart, by simpa using ⟨hfirst.within, hrest⟩⟩

omit hfield in
theorem sequencePattern (hlo : lo ≤ start) :
    Builds (start ≤ ·) pre start (Parse.sequencePattern inner start) (Pattern.Stands lo) := by
  refine (itemsUntil .closeBracket (starOr hinner).within).bind fun patterns => ?_
  refine (expect _ rfl).andThen fun _ => patternFrom hlo fun hi ⟨hstart, hpatterns⟩ => ?_
  exact ⟨hstart, by simpa using hpatterns⟩

omit hinner in
theorem mappingKey : Builds known pre lo (Parse.mappingKey field) (Expr.Stands .load lo) :=
  ifFollowed dottedValue (literalValue hfield _ _ _)

theorem mappingStep (draft : MappingDraft) :
    Builds (fun hi => draft.IsBuilt lo hi) pre lo (Parse.mappingStep inner field draft)
      fun hi r => r.value.IsBuilt lo hi := by
  refine ifAt .closeBrace (pure fun _ => id) (ifAccept .doubleStar ?_ ?_)
  · exact (expectName _).bind fun name => (accept _).andThen fun _ => pure fun _ h => ⟨h.1.1, h.1.2⟩
  · refine (mappingKey hfield).bind fun key => (expect _ rfl).andThen fun _ => ?_
    refine (hinner _ _ _).bind fun p => ?_
    have hadded (hi : Position) (h : (draft.IsBuilt lo hi ∧ key.Stands .load lo hi) ∧
        p.Stands lo hi) : MappingDraft.IsBuilt lo hi
          { draft with entries := (draft.entries.addLeft key).addRight p } :=
      ⟨forall_mem_concat h.1.1.keys h.1.2.within, forall_mem_concat h.1.1.patterns h.2.within⟩
    exact ifAccept .comma (pure hadded) (pure hadded)

theorem mappingPattern (hlo : lo ≤ start) :
    Builds (start ≤ ·) pre start (Parse.mappingPattern inner field start) (Pattern.Stands lo) := by
  refine (iterate (fun _ _ => ⟨List.forall_mem_nil _, List.forall_mem_nil _⟩)
    (mappingStep hfield hinner)).bind fun draft => ?_
  refine (expect _ rfl).andThen fun _ => patternFrom hlo fun hi ⟨hstart, hdraft⟩ => ?_
  have hentries := Columns.forall_rows hdraft.keys hdraft.patterns
  exact ⟨hstart, by simpa using hentries⟩

omit hfield in
theorem addRecord (draft : RecordDraft) :
    Builds (fun hi => draft.IsBuilt lo hi) anywhere lo (Parse.addRecord inner draft)
      fun hi draft => draft.IsBuilt lo hi := by
  -- What is read for an attribute begins behind its name.
  refine ifPair rfl (fun name _ hname => (hinner _ _ _).bind fun p => pure ?_)
    (ite (fun _ => failHere _) fun _ => (hinner _ _ _).bind fun p => pure ?_)
  · exact fun hi ⟨⟨hdraft, _⟩, hp⟩ =>
      ⟨hdraft.positional, forall_mem_concat hdraft.attributes (hp.behind hname).within⟩
  · exact fun hi ⟨hdraft, hp⟩ => ⟨forall_mem_concat hdraft.positional hp.within, hdraft.attributes⟩

omit hfield in
theorem recordStep (draft : RecordDraft) :
    Builds (fun hi => draft.IsBuilt lo hi) anywhere lo (Parse.recordStep inner draft)
      fun hi r => r.value.IsBuilt lo hi := by
  refine ifAt .closeParen (pure fun _ => id) ((addRecord hinner draft).at_any.bind fun draft => ?_)
  exact ifAccept .comma (pure fun _ => And.right) (pure fun _ => And.right)

omit hfield in
theorem recordPattern {callee : Expr} :
    Builds (fun hi => callee.Stands .load lo hi) pre lo (Parse.recordPattern inner callee)
      (Pattern.Stands lo) := by
  refine raise (fun hi hcallee => ⟨hcallee.le_start, hcallee.start_le⟩) fun hlo => ?_
  refine (expect _ rfl).andThen fun _ => ?_
  refine (iterate (I := fun hi draft => draft.IsBuilt callee.span.start hi)
    (fun _ _ => ⟨List.forall_mem_nil _, List.forall_mem_nil _⟩) (recordStep hinner)).bind
    fun draft => ?_
  refine (expect _ rfl).andThen fun _ => patternFrom hlo fun hi ⟨hcallee, hdraft⟩ => ?_
  refine ⟨hcallee.start_le, ?_⟩
  have hrows := Columns.forall_rows (p := fun _ => True) (fun _ _ => trivial) hdraft.attributes
  suffices hpatterns : ∀ p ∈ draft.positional ++ draft.attributes.rows.map Prod.snd,
      (Node.pattern p).Within .load callee.span.start hi by
    simpa using ⟨hcallee.from_start.within, by simpa using hpatterns⟩
  exact List.forall_mem_append.mpr ⟨hdraft.positional,
    List.forall_mem_map.mpr fun row hrow => (hrows row hrow).2⟩

omit hfield in
/-- A pattern that begins with a name begins where the name does. -/
theorem namePattern {t : Token} (hkind : t.kind = .identifier) (hlo : lo ≤ t.start) :
    Builds known (· = t) t.start (Parse.namePattern inner t) (Pattern.Stands lo) := by
  refine look (Looks.kindAt 1) fun _ => ite (fun _ => ?_) fun _ => ?_
  · refine (dottedValue.at_token hkind).bind fun value => ifAt .openParen ?_ ?_
    · refine ((recordPattern hinner).imp fun _ _ hp => hp.behind hlo).knowing ?_ |>.at_any
      exact fun _ => And.right
    · refine patternFrom hlo fun hi ⟨_, hvalue⟩ => ⟨hvalue.le, by simpa using hvalue.within⟩
  · refine nextPeeked (hkind ▸ rfl) (ifAt .openParen ?_ ?_)
    · refine (nameOf .load (Position.le_refl _) fun _ => id).bind fun callee => ?_
      refine ((recordPattern hinner).imp fun _ _ hp => hp.behind hlo).knowing ?_
      exact fun _ hknown => hknown.2.1
    · exact patternFrom hlo fun hi hstart => ⟨hstart, by simp⟩

theorem closedPattern : BuildsPattern (Parse.closedPattern inner field) := by
  intro known pre lo
  refine peek fun t _ hlo => ?_
  have hvalue : Builds known (· = t) t.start
      (Parse.literalValue field >>= fun value => Parse.patternFrom t.start (.value value))
      (Pattern.Stands lo) :=
    (literalValue hfield).bind fun value => patternFrom hlo fun hi ⟨_, hvalue⟩ =>
      ⟨hvalue.le, by simpa using hvalue.within⟩
  split
  · next hkind =>
    exact nextPeeked (hkind ▸ rfl) (patternFrom hlo fun hi hstart => ⟨hstart, by simp⟩)
  · next hkind =>
    exact nextPeeked (hkind ▸ rfl) (patternFrom hlo fun hi hstart => ⟨hstart, by simp⟩)
  · exact hvalue
  · exact hvalue
  · exact hvalue
  · exact hvalue
  · exact hvalue
  · exact hvalue
  · exact hvalue
  · next hkind => exact namePattern hinner hkind hlo
  · next hkind => exact nextPeeked (hkind ▸ rfl) (parenthesizedPattern hinner hlo)
  · next hkind => exact nextPeeked (hkind ▸ rfl) (sequencePattern hinner hlo)
  · next hkind => exact nextPeeked (hkind ▸ rfl) (mappingPattern hfield hinner hlo)
  · exact failAtToken ..

theorem orPattern : BuildsPattern (Parse.orPattern inner field) := by
  intro known pre lo
  have hclosed := closedPattern hfield hinner
  refine peek fun start _ hlo => (hclosed _ _ _).bind fun first => ?_
  refine (collect (behind .pipe hclosed.within)).bind fun rest => ?_
  refine ite (fun _ => pure fun hi hknown => hknown.1.2.behind hlo) fun hlength => ?_
  refine patternFrom hlo fun hi ⟨⟨_, hfirst⟩, hrest⟩ => ?_
  exact ⟨hfirst.le, by simpa using ⟨Nat.one_le_iff_ne_zero.mpr hlength, hfirst.within, hrest⟩⟩

theorem asPattern : BuildsPattern (Parse.asPattern inner field) := by
  intro known pre lo
  refine peek fun start _ hlo => (orPattern hfield hinner _ _ _).bind fun p => ?_
  refine ifAccept .kwAs ?_ (pure fun hi hknown => hknown.2.behind hlo)
  refine (expectName .asPattern).bind fun name => ite (fun _ => failAtToken ..) fun _ => ?_
  exact patternFrom hlo fun hi ⟨⟨_, hp⟩, _⟩ => ⟨hp.le, by simpa using hp.within⟩

/-! ## All patterns -/

omit hinner in
theorem patternUpTo : ∀ limit : Nat, BuildsPattern (Parse.patternUpTo field limit)
  | 0 => fun _ _ _ => failHere _
  | limit + 1 => asPattern hfield (patternUpTo limit)

omit hinner in
theorem casePattern : BuildsPattern (Parse.casePattern field) := by
  intro known pre lo
  refine look Looks.limit fun limit => peek fun start _ hlo => ?_
  have hstar := starOr (patternUpTo hfield limit)
  refine (hstar _ _ _).bind fun first => ifAt .comma ?_ ?_
  · refine (moreItems Looks.endsPatterns hstar.within).bind fun rest => patternFrom hlo ?_
    exact fun hi ⟨⟨_, hfirst⟩, hrest⟩ => ⟨hfirst.le, by simpa using ⟨hfirst.within, hrest⟩⟩
  · exact ite (fun _ => failAtSpan ..) fun _ => pure fun hi hknown => hknown.2.behind hlo

end Patterns

end Builds

end SyntaxTree.Parse
