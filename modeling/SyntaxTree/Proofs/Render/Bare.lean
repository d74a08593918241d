import SyntaxTree.Proofs.Tree.Bare
import SyntaxTree.Render.Expression

/-
# Texts do not tell positions

The text of an expression depends on its tree and not on where its nodes stood in a source.
-/

namespace SyntaxTree

/-- Positions have no precedence. -/
@[simp]
theorem Expr.Shape.precedence_bare (shape : Expr.Shape) :
    shape.bare.precedence = shape.precedence := by
  cases shape with
  | tuple elements context => cases elements <;> rfl
  | _ => rfl

@[simp]
theorem Expr.isInteger_bare (e : Expr) : e.bare.isInteger = e.isInteger := by
  obtain ⟨_, shape⟩ := e
  cases shape with
  | constant value => cases value <;> rfl
  | _ => rfl

@[simp]
theorem Expr.isEmpty_bareAll (es : List Expr) : (Expr.bareAll es).isEmpty = es.isEmpty := by
  cases es <;> rfl

mutual

/-- The literal text of an f-string does not tell positions. -/
theorem Expr.literalText_bare :
    ∀ es : List Expr, Expr.literalText (Expr.bareAll es) = Expr.literalText es
  | [] => rfl
  | .node _ shape :: es => by
    have hes := Expr.literalText_bare es
    cases shape with
    | constant value =>
      cases value <;> simp only [Expr.bareAll, Expr.bare, Expr.Shape.bare, Expr.literalText, hes]
    | field value conversion spec =>
      simp only [Expr.bareAll, Expr.bare, Expr.Shape.bare, Expr.literalText,
        FormatSpec.literalText_bare spec, hes]
    | _ => simp only [Expr.bareAll, Expr.bare, Expr.Shape.bare, Expr.literalText, hes]

theorem FormatSpec.literalText_bare : ∀ spec : Option FormatSpec,
    FormatSpec.literalText (FormatSpec.bareOption spec) = FormatSpec.literalText spec
  | none => rfl
  | some (.mk _ values) => by
    rw [FormatSpec.bareOption, FormatSpec.bare, FormatSpec.literalText, FormatSpec.literalText,
      Expr.literalText_bare values]

end

variable (quote : Byte)

mutual

/-- The text of an expression does not tell positions. -/
theorem Expr.write_bare (context : Precedence) :
    ∀ e : Expr, e.bare.write quote context = e.write quote context
  | .node _ shape => by
    rw [Expr.bare, Expr.write, Expr.write, Expr.Shape.write_bare shape, Expr.Shape.precedence_bare]

theorem Expr.Shape.write_bare : ∀ shape : Expr.Shape, shape.bare.write quote = shape.write quote
  | .name _ _ | .constant _ => rfl
  | .boolean _ values => by
    simp only [Expr.Shape.bare, Expr.Shape.write, Expr.writeAll_bare _ values]
  | .named target value => by
    simp only [Expr.Shape.bare, Expr.Shape.write, Expr.write_bare _ target, Expr.write_bare _ value]
  | .binary _ left right => by
    simp only [Expr.Shape.bare, Expr.Shape.write, Expr.write_bare _ left, Expr.write_bare _ right]
  | .unary _ operand => by
    simp only [Expr.Shape.bare, Expr.Shape.write, Expr.write_bare _ operand]
  | .lambda parameters body => by
    simp only [Expr.Shape.bare, Expr.Shape.write, Parameters.writeItems_bare _ parameters,
      Expr.write_bare _ body]
  | .conditional test body orelse => by
    simp only [Expr.Shape.bare, Expr.Shape.write, Expr.write_bare _ test, Expr.write_bare _ body,
      Expr.write_bare _ orelse]
  | .dict items => by
    simp only [Expr.Shape.bare, Expr.Shape.write, DictItem.writeAll_bare items]
  | .set elements | .list elements _ | .tuple elements _ => by
    simp only [Expr.Shape.bare, Expr.Shape.write, Expr.writeAll_bare _ elements,
      Expr.isEmpty_bareAll]
  | .listComp element clauses | .setComp element clauses | .generator element clauses => by
    simp only [Expr.Shape.bare, Expr.Shape.write, Expr.write_bare _ element,
      Comprehension.writeAll_bare clauses]
  | .dictComp key value clauses => by
    simp only [Expr.Shape.bare, Expr.Shape.write, Expr.write_bare _ key, Expr.write_bare _ value,
      Comprehension.writeAll_bare clauses]
  | .await value | .yieldFrom value | .starred value _ => by
    simp only [Expr.Shape.bare, Expr.Shape.write, Expr.write_bare _ value]
  | .yield none => rfl
  | .yield (some value) => by
    simp only [Expr.Shape.bare, Expr.bareOption, Expr.Shape.write, Expr.write_bare _ value]
  | .compare left rest => by
    simp only [Expr.Shape.bare, Expr.Shape.write, Expr.write_bare _ left,
      Comparison.writeAll_bare rest]
  | .call callee arguments keywords => by
    simp only [Expr.Shape.bare, Expr.Shape.write, Expr.write_bare _ callee,
      Expr.writeAll_bare _ arguments, Keyword.writeAll_bare keywords]
  | .field value _ spec => by
    simp only [Expr.Shape.bare, Expr.Shape.write, Expr.write_bare _ value,
      FormatSpec.write_bare spec]
  | .fstring values => by
    simp only [Expr.Shape.bare, Expr.Shape.write, Expr.literalText_bare,
      Expr.writeParts_bare _ _ values]
  | .attribute value _ _ => by
    simp only [Expr.Shape.bare, Expr.Shape.write, Expr.write_bare _ value, Expr.isInteger_bare]
  | .subscript value index _ => by
    simp only [Expr.Shape.bare, Expr.Shape.write, Expr.write_bare _ value,
      Expr.writeIndex_bare index]
  | .slice lower upper step => by
    simp only [Expr.Shape.bare, Expr.Shape.write, Expr.writeOptional_bare _ lower,
      Expr.writeOptional_bare _ upper, Expr.writeOptional_bare _ step]

theorem Expr.writeIndex_bare : ∀ e : Expr, e.bare.writeIndex quote = e.writeIndex quote
  | .node _ shape => by
    have hshape := Expr.Shape.write_bare shape
    have hprecedence := Expr.Shape.precedence_bare shape
    cases shape with
    | tuple elements _ =>
      simp only [Expr.bare, Expr.Shape.bare, Expr.writeIndex, Expr.writeAll_bare _ elements,
        Expr.isEmpty_bareAll]
    | _ =>
      simp only [Expr.Shape.bare] at hshape hprecedence
      simp only [Expr.bare, Expr.Shape.bare, Expr.writeIndex, hshape, hprecedence]

theorem Expr.writeAll_bare (context : Precedence) :
    ∀ es : List Expr, Expr.writeAll quote context (Expr.bareAll es) = Expr.writeAll quote context es
  | [] => rfl
  | e :: es => by
    rw [Expr.bareAll, Expr.writeAll, Expr.writeAll, Expr.write_bare _ e, Expr.writeAll_bare _ es]

theorem Expr.writeOptional_bare (mark : Bytes) : ∀ e : Option Expr,
    Expr.writeOptional quote mark (Expr.bareOption e) = Expr.writeOptional quote mark e
  | none => rfl
  | some e => by
    rw [Expr.bareOption, Expr.writeOptional, Expr.writeOptional, Expr.write_bare _ e]

theorem Expr.writeParts_bare (chosen : Byte) (doubleBraces : Bool) : ∀ es : List Expr,
    Expr.writeParts quote chosen doubleBraces (Expr.bareAll es) =
      Expr.writeParts quote chosen doubleBraces es
  | [] => rfl
  | .node _ shape :: es => by
    have hshape := Expr.Shape.write_bare shape
    have hprecedence := Expr.Shape.precedence_bare shape
    have hes := Expr.writeParts_bare chosen doubleBraces es
    cases shape with
    | constant value =>
      cases value <;>
        simp only [Expr.bareAll, Expr.bare, Expr.Shape.bare, Expr.writeParts, Expr.write, hes]
    | _ =>
      simp only [Expr.Shape.bare] at hshape hprecedence
      simp only [Expr.bareAll, Expr.bare, Expr.Shape.bare, Expr.writeParts, Expr.write, hshape,
        hprecedence, hes]

theorem FormatSpec.write_bare : ∀ spec : Option FormatSpec,
    FormatSpec.write quote (FormatSpec.bareOption spec) = FormatSpec.write quote spec
  | none => rfl
  | some (.mk _ values) => by
    rw [FormatSpec.bareOption, FormatSpec.bare, FormatSpec.write, FormatSpec.write,
      Expr.writeParts_bare _ _ values]

theorem DictItem.writeAll_bare : ∀ items : List DictItem,
    DictItem.writeAll quote (DictItem.bareAll items) = DictItem.writeAll quote items
  | [] => rfl
  | .entry key value :: items => by
    rw [DictItem.bareAll, DictItem.writeAll, DictItem.writeAll, Expr.write_bare _ key,
      Expr.write_bare _ value, DictItem.writeAll_bare items]
  | .unpack value :: items => by
    rw [DictItem.bareAll, DictItem.writeAll, DictItem.writeAll, Expr.write_bare _ value,
      DictItem.writeAll_bare items]

theorem Comparison.writeAll_bare : ∀ rest : List Comparison,
    Comparison.writeAll quote (Comparison.bareAll rest) = Comparison.writeAll quote rest
  | [] => rfl
  | .mk op operand :: rest => by
    rw [Comparison.bareAll, Comparison.writeAll, Comparison.writeAll, Expr.write_bare _ operand,
      Comparison.writeAll_bare rest]

theorem Comprehension.writeAll_bare : ∀ clauses : List Comprehension,
    Comprehension.writeAll quote (Comprehension.bareAll clauses) =
      Comprehension.writeAll quote clauses
  | [] => rfl
  | .mk _ target iterable conditions isAsync :: clauses => by
    rw [Comprehension.bareAll, Comprehension.bare, Comprehension.writeAll, Comprehension.writeAll,
      Expr.write_bare _ target, Expr.write_bare _ iterable, Expr.writeAll_bare _ conditions,
      Comprehension.writeAll_bare clauses]

theorem Keyword.writeAll_bare : ∀ keywords : List Keyword,
    Keyword.writeAll quote (Keyword.bareAll keywords) = Keyword.writeAll quote keywords
  | [] => rfl
  | .mk _ name value :: keywords => by
    rw [Keyword.bareAll, Keyword.bare, Keyword.writeAll, Keyword.writeAll, Expr.write_bare _ value,
      Keyword.writeAll_bare keywords]

theorem Parameter.write_bare (annotated : Bool) : ∀ p : Parameter,
    p.bare.write quote annotated = p.write quote annotated
  | .mk _ name hint => by
    have hhint := Expr.writeOptional_bare (text ": ") hint
    cases hint <;> simp only [Parameter.bare, Expr.bareOption, Parameter.write] at hhint ⊢
    rw [hhint]
    rfl

theorem Parameter.writeAll_bare (annotated : Bool) : ∀ ps : List Parameter,
    Parameter.writeAll quote annotated (Parameter.bareAll ps) =
      Parameter.writeAll quote annotated ps
  | [] => rfl
  | p :: ps => by
    rw [Parameter.bareAll, Parameter.writeAll, Parameter.writeAll, Parameter.write_bare _ p,
      Parameter.writeAll_bare _ ps]

theorem Parameter.writeOptional_bare (annotated : Bool) (mark : Bytes) : ∀ p : Option Parameter,
    Parameter.writeOptional quote annotated mark (Parameter.bareOption p) =
      Parameter.writeOptional quote annotated mark p
  | none => rfl
  | some p => by
    rw [Parameter.bareOption, Parameter.writeOptional, Parameter.writeOptional,
      Parameter.write_bare _ p]

theorem KeywordOnly.writeAll_bare (annotated : Bool) : ∀ ks : List KeywordOnly,
    KeywordOnly.writeAll quote annotated (KeywordOnly.bareAll ks) =
      KeywordOnly.writeAll quote annotated ks
  | [] => rfl
  | .mk parameter default :: ks => by
    rw [KeywordOnly.bareAll, KeywordOnly.writeAll, KeywordOnly.writeAll,
      Parameter.write_bare _ parameter, Expr.writeOptional_bare _ default,
      KeywordOnly.writeAll_bare _ ks]

theorem Parameters.writeItems_bare (annotated : Bool) : ∀ parameters : Parameters,
    parameters.bare.writeItems quote annotated = parameters.writeItems quote annotated
  | .mk positionalOnly positional variadic keywordOnly variadicKeyword defaults => by
    have hfirst : (Parameter.bareAll positionalOnly).isEmpty = positionalOnly.isEmpty := by
      cases positionalOnly <;> rfl
    have hvariadic : (Parameter.bareOption variadic).isNone = variadic.isNone := by
      cases variadic <;> rfl
    have hkeywords : (KeywordOnly.bareAll keywordOnly).isEmpty = keywordOnly.isEmpty := by
      rcases keywordOnly with _ | ⟨⟨_, _⟩, _⟩ <;> rfl
    simp only [Parameters.bare, Parameters.writeItems, Parameter.writeAll_bare _ positionalOnly,
      Parameter.writeAll_bare _ positional, Parameter.writeOptional_bare _ _ variadic,
      KeywordOnly.writeAll_bare _ keywordOnly, Parameter.writeOptional_bare _ _ variadicKeyword,
      Expr.writeAll_bare _ defaults, hfirst, hvariadic, hkeywords]

end

end SyntaxTree
