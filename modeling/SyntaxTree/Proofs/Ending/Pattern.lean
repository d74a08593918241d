import SyntaxTree.Proofs.Build.Pattern
import SyntaxTree.Proofs.Ending.Expression

/-
# Patterns are read to their end

Every pattern takes a token before it reads one that is nested in it, so the tokens ahead bound how
deep patterns are nested.
-/

namespace SyntaxTree.Parse

variable {α : Type} {depth limit : Nat} {pre : Token → Prop}

/-- A reading of patterns that comes to an end and takes a token, wherever it begins. -/
def PatternEnds (depth limit : Nat) (p : Parse Pattern) : Prop :=
  ∀ {pre : Token → Prop}, Ends depth limit pre always p

namespace Ends

/-! ## Values -/

theorem signedNumber : Ends depth limit pre always Parse.signedNumber := by
  refine peek fun start _ => (accept .minus).bind fun isNegative => kind fun t _ => ?_
  refine ite (fun hnumber => ?_) fun _ => failHere (by cases isNegative <;> rfl)
  have hkind : t.kind ≠ .endOfInput := by
    intro hend
    rw [hend] at hnumber
    cases hnumber
  rw [← bind_assoc]
  exact (nextNumber hkind).first fun number => ite (fun _ => exprFrom _ _) fun _ => result _

theorem imaginaryPart (start : Position) (op : BinaryOperator) (real : Expr) :
    Ends depth limit pre never (Parse.imaginaryPart start op real) := by
  refine skip.bind fun _ => ifAt .imaginary ?_ (failHere rfl)
  refine (nextOf (by decide)).first fun t => ?_
  exact (exprFrom _ _).bind fun imaginary => exprFrom _ _

theorem complexNumber : Ends depth limit pre always Parse.complexNumber := by
  refine peek fun start _ => signedNumber.first fun real => kind fun t _ => ?_
  split
  · exact imaginaryPart _ _ _
  · exact imaginaryPart _ _ _
  · exact result _

theorem dottedValue :
    Ends depth limit (fun t => t.kind = .identifier) always Parse.dottedValue := by
  refine (nextOf (by decide)).first fun start => (nameOf _ _).bind fun name => ?_
  refine iterate (fun value => ?_) name
  refine ifAccept (by decide) ?_ (pure id)
  exact (expectName _).bind fun name => (exprFrom _ _).bind fun _ => result _

section Literals

variable {field : FieldReading} (hfield : FieldEnds depth field)

include hfield

theorem unformatted :
    Ends depth limit (fun t => t.kind.isText) always (Parse.unformatted field) := by
  refine (strings hfield).first fun value => ?_
  split
  · exact failAtSpan _ rfl
  · exact result _

theorem literalValue : Ends depth limit pre always (Parse.literalValue field) := by
  refine peek fun t _ => ?_
  split
  · next hkind => exact atomOf (by simp [hkind]) _
  · next hkind => exact atomOf (by simp [hkind]) _
  · next hkind => exact (unformatted hfield).at_token (by rw [hkind]; rfl)
  · next hkind => exact (unformatted hfield).at_token (by rw [hkind]; rfl)
  · next hkind => exact (unformatted hfield).at_token (by rw [hkind]; rfl)
  · exact complexNumber

end Literals

/-! ## Patterns within patterns -/

section Patterns

variable {inner : Parse Pattern} (hinner : PatternEnds depth limit inner)

include hinner

theorem starOr : PatternEnds depth limit (Parse.starOr inner) := by
  intro pre
  refine ifAt .star ((nextOf (by decide)).first fun start => ?_) hinner
  exact (expectName _).bind fun name => patternFrom _ _

theorem parenthesizedPattern (start : Position) :
    Ends depth limit pre never (Parse.parenthesizedPattern inner start) := by
  refine ifAccept (by decide) (patternFrom _ _) ((starOr hinner).bind fun first => ?_)
  refine look (Looks.at? _) fun _ => ite (fun _ => skip.bind fun _ => result first) fun _ => ?_
  exact closedItems (starOr hinner).loosely fun rest => patternFrom _ _

theorem sequencePattern (start : Position) :
    Ends depth limit pre never (Parse.sequencePattern inner start) :=
  (itemsUntil .closeBracket (starOr hinner).loosely).bind fun _ =>
    (expect _).bind fun _ => patternFrom _ _

section Fields

variable {field : FieldReading} (hfield : FieldEnds depth field)

include hfield

omit hinner in
theorem mappingKey : Ends depth limit pre always (Parse.mappingKey field) :=
  ifFollowed dottedValue (literalValue hfield)

theorem mappingStep (draft : MappingDraft) :
    Ends depth limit pre isYield (Parse.mappingStep inner field draft) := by
  refine ifAt .closeBrace (pure id) (ifAccept (by decide) ?_ ?_)
  · exact (expectName _).bind fun name => (accept _).bind fun _ => result _
  · refine (mappingKey hfield).first fun key => (expect _).bind fun _ => hinner.bind fun p => ?_
    exact ifAccept (by decide) (result _) (result _)

theorem mappingPattern (start : Position) :
    Ends depth limit pre never (Parse.mappingPattern inner field start) :=
  (iterate (mappingStep hinner hfield) _).bind fun _ => (expect _).bind fun _ => patternFrom _ _

end Fields

theorem addRecord (draft : RecordDraft) :
    Ends depth limit pre always (Parse.addRecord inner draft) := by
  refine ifFollowed ?_ (ite (fun _ => failHere rfl) fun _ => hinner.first fun p => result _)
  exact (nextOf (by decide)).first fun name => skip.bind fun _ => hinner.bind fun p => result _

theorem recordStep (draft : RecordDraft) :
    Ends depth limit pre isYield (Parse.recordStep inner draft) := by
  refine ifAt .closeParen (pure id) ((addRecord hinner draft).first fun draft => ?_)
  exact ifAccept (by decide) (result _) (result _)

theorem recordPattern (callee : Expr) :
    Ends depth limit pre always (Parse.recordPattern inner callee) :=
  (expect _).first fun _ => (iterate (recordStep hinner) _).bind fun _ =>
    (expect _).bind fun _ => patternFrom _ _

theorem namePattern (start : Token) :
    Ends depth (limit + 1) (fun t => t.kind = .identifier) always
      (Parse.namePattern inner start) := by
  refine look (Looks.kindAt 1) fun _ => ite (fun _ => ?_) fun _ => ?_
  · refine dottedValue.deeper fun value => ?_
    exact ifAt .openParen (recordPattern hinner value).loosely (patternFrom _ _)
  · refine (nextOf (by decide)).deeper fun _ => ifAt .openParen ?_ (patternFrom _ _)
    exact (nameOf _ _).bind fun callee => (recordPattern hinner callee).loosely

end Patterns

section Levels

variable {inner : Parse Pattern} {field : FieldReading} (hinner : PatternEnds depth limit inner)
  (hfield : FieldEnds depth field)

include hinner hfield

/-- A pattern may be nested once more than those within it. -/
theorem closedPattern : PatternEnds depth (limit + 1) (Parse.closedPattern inner field) := by
  intro pre
  refine peek fun t _ => ?_
  have hword (ht : t.kind ≠ .endOfInput) (shape : Pattern.Shape) :
      Ends depth (limit + 1) (· = t) always
        (Parse.next >>= fun _ => Parse.patternFrom t.start shape) :=
    (nextPeeked ht).first fun _ => patternFrom _ _
  have hvalue : Ends depth (limit + 1) (· = t) always
      (Parse.literalValue field >>= fun value => Parse.patternFrom t.start (.value value)) :=
    (literalValue hfield).first fun value => patternFrom _ _
  split
  · next hkind => exact hword (by simp [hkind]) _
  · next hkind => exact hword (by simp [hkind]) _
  · exact hvalue
  · exact hvalue
  · exact hvalue
  · exact hvalue
  · exact hvalue
  · exact hvalue
  · exact hvalue
  · next hkind => exact (namePattern hinner t).at_token hkind
  · next hkind => exact (nextPeeked (by simp [hkind])).deeper fun _ => parenthesizedPattern hinner _
  · next hkind => exact (nextPeeked (by simp [hkind])).deeper fun _ => sequencePattern hinner _
  · next hkind => exact (nextPeeked (by simp [hkind])).deeper fun _ =>
      mappingPattern hinner hfield _
  · exact failAtToken _ rfl

theorem orPattern : PatternEnds depth (limit + 1) (Parse.orPattern inner field) := by
  intro pre
  have hclosed : PatternEnds depth (limit + 1) (Parse.closedPattern inner field) :=
    closedPattern hinner hfield
  refine peek fun start _ => hclosed.first fun first => ?_
  refine (collect (behind (by decide) hclosed.loosely)).bind fun rest => ?_
  exact ite (fun _ => result first) fun _ => patternFrom _ _

theorem asPattern : PatternEnds depth (limit + 1) (Parse.asPattern inner field) := by
  intro pre
  refine peek fun start _ => (orPattern hinner hfield).first fun p => ?_
  refine ifAccept (by decide) ?_ (result p)
  exact (expectName _).bind fun name => ite (fun _ => failAtToken _ rfl) fun _ => patternFrom _ _

end Levels

end Ends

/-! ## All patterns -/

/-- Patterns are read to their end if they may be nested as deep as there are tokens. -/
theorem patternEnds_patternUpTo {field : FieldReading} (hfield : FieldEnds depth field) :
    ∀ limit : Nat, PatternEnds depth limit (patternUpTo field limit)
  | 0 => fun _ hc => absurd hc.length_lt (Nat.not_lt_zero _)
  | limit + 1 => Ends.asPattern (patternEnds_patternUpTo hfield limit) hfield

theorem Ends.casePattern {field : FieldReading} (hfield : FieldEnds depth field) :
    PatternEnds depth limit (Parse.casePattern field) := by
  intro pre
  refine limited fun n => peek fun start _ => ?_
  have hstar : PatternEnds depth n (Parse.starOr (patternUpTo field n)) :=
    starOr (patternEnds_patternUpTo hfield n)
  refine hstar.first fun first => ifAt .comma ?_ ?_
  · exact (moreItems Looks.endsPatterns hstar.loosely).bind fun rest => patternFrom _ _
  · exact ite (fun _ => failAtSpan _ rfl) fun _ => result first

end SyntaxTree.Parse
