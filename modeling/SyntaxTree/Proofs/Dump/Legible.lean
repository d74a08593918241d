import Mathlib.Data.Set.Defs
import SyntaxTree.Tree.Dump

/-
# Legible trees

A name is legible in a dump if it is not empty, consists of visible bytes other than commas, and is
not the dash that stands for a missing name.  A tree is legible if all its names are, and if its
numbers come from a given set.  Texts and byte strings may be of any kind.
-/

namespace SyntaxTree

/-- A name that a dump shows as one word. -/
structure IsLegible (s : Bytes) : Prop where
  ne_nil : s ≠ []
  visible : ∀ b ∈ s, Byte.space < b
  noComma : ascii ',' ∉ s
  ne_dash : s ≠ text "-"

instance (s : Bytes) : Decidable (IsLegible s) :=
  have := List.decidableBAll (Byte.space < ·) s
  decidable_of_iff (s ≠ [] ∧ (∀ b ∈ s, Byte.space < b) ∧ ascii ',' ∉ s ∧ s ≠ text "-")
    ⟨fun h => ⟨h.1, h.2.1, h.2.2.1, h.2.2.2⟩, fun h => ⟨h.1, h.2, h.3, h.4⟩⟩

/-- A name that is legible unless it is missing. -/
def IsLegibleOption (name : Option Bytes) : Prop := ∀ s ∈ name, IsLegible s

/-- A constant with legible digits, or with one of the given numbers. -/
def Constant.Legible (numbers : Set Binary64) : Constant → Prop
  | .integer digits => IsLegible digits
  | .float value | .imaginary value => value ∈ numbers
  | _ => True

/-! ## Expressions -/

section

variable (numbers : Set Binary64)

mutual

/-- An expression with legible names. -/
def Expr.Legible : Expr → Prop
  | .node _ shape => Expr.Shape.Legible shape

/-- A shape with legible names. -/
def Expr.Shape.Legible : Expr.Shape → Prop
  | .name id _ => IsLegible id
  | .constant value => value.Legible numbers
  | .boolean _ values => Expr.LegibleAll values
  | .named target value => target.Legible ∧ value.Legible
  | .binary _ left right => left.Legible ∧ right.Legible
  | .unary _ operand => operand.Legible
  | .lambda parameters body => parameters.Legible ∧ body.Legible
  | .conditional test body orelse => test.Legible ∧ body.Legible ∧ orelse.Legible
  | .dict items => DictItem.LegibleAll items
  | .set elements => Expr.LegibleAll elements
  | .list elements _ => Expr.LegibleAll elements
  | .tuple elements _ => Expr.LegibleAll elements
  | .listComp element clauses => element.Legible ∧ Comprehension.LegibleAll clauses
  | .setComp element clauses => element.Legible ∧ Comprehension.LegibleAll clauses
  | .dictComp key value clauses =>
    key.Legible ∧ value.Legible ∧ Comprehension.LegibleAll clauses
  | .generator element clauses => element.Legible ∧ Comprehension.LegibleAll clauses
  | .await value => value.Legible
  | .yield value => Expr.LegibleOption value
  | .yieldFrom value => value.Legible
  | .compare left rest => left.Legible ∧ Comparison.LegibleAll rest
  | .call callee arguments keywords =>
    callee.Legible ∧ Expr.LegibleAll arguments ∧ Keyword.LegibleAll keywords
  | .field value _ spec => value.Legible ∧ FormatSpec.LegibleOption spec
  | .fstring values => Expr.LegibleAll values
  | .attribute value name _ => value.Legible ∧ IsLegible name
  | .subscript value index _ => value.Legible ∧ index.Legible
  | .starred value _ => value.Legible
  | .slice lower upper step =>
    Expr.LegibleOption lower ∧ Expr.LegibleOption upper ∧ Expr.LegibleOption step

/-- Expressions with legible names. -/
def Expr.LegibleAll : List Expr → Prop
  | [] => True
  | e :: rest => e.Legible ∧ Expr.LegibleAll rest

/-- An expression that may be missing, with legible names. -/
def Expr.LegibleOption : Option Expr → Prop
  | none => True
  | some e => e.Legible

/-- Dict items with legible names. -/
def DictItem.LegibleAll : List DictItem → Prop
  | [] => True
  | .entry key value :: rest => key.Legible ∧ value.Legible ∧ DictItem.LegibleAll rest
  | .unpack value :: rest => value.Legible ∧ DictItem.LegibleAll rest

/-- Comparisons with legible names. -/
def Comparison.LegibleAll : List Comparison → Prop
  | [] => True
  | .mk _ operand :: rest => operand.Legible ∧ Comparison.LegibleAll rest

/-- A clause with legible names. -/
def Comprehension.Legible : Comprehension → Prop
  | .mk _ target iterable conditions _ =>
    target.Legible ∧ iterable.Legible ∧ Expr.LegibleAll conditions

/-- Clauses with legible names. -/
def Comprehension.LegibleAll : List Comprehension → Prop
  | [] => True
  | clause :: rest => clause.Legible ∧ Comprehension.LegibleAll rest

/-- A keyword argument with legible names. -/
def Keyword.Legible : Keyword → Prop
  | .mk _ name value => IsLegibleOption name ∧ value.Legible

/-- Keyword arguments with legible names. -/
def Keyword.LegibleAll : List Keyword → Prop
  | [] => True
  | keyword :: rest => keyword.Legible ∧ Keyword.LegibleAll rest

/-- A format specification with legible names. -/
def FormatSpec.Legible : FormatSpec → Prop
  | .mk _ values => Expr.LegibleAll values

/-- A format specification that may be missing, with legible names. -/
def FormatSpec.LegibleOption : Option FormatSpec → Prop
  | none => True
  | some spec => spec.Legible

/-- A parameter with legible names. -/
def Parameter.Legible : Parameter → Prop
  | .mk _ name hint => IsLegible name ∧ Expr.LegibleOption hint

/-- Parameters with legible names. -/
def Parameter.LegibleAll : List Parameter → Prop
  | [] => True
  | p :: rest => p.Legible ∧ Parameter.LegibleAll rest

/-- A parameter that may be missing, with legible names. -/
def Parameter.LegibleOption : Option Parameter → Prop
  | none => True
  | some p => p.Legible

/-- Keyword-only parameters with legible names. -/
def KeywordOnly.LegibleAll : List KeywordOnly → Prop
  | [] => True
  | .mk parameter default :: rest =>
    parameter.Legible ∧ Expr.LegibleOption default ∧ KeywordOnly.LegibleAll rest

/-- The parameters of a function with legible names. -/
def Parameters.Legible : Parameters → Prop
  | .mk positionalOnly positional variadic keywordOnly variadicKeyword defaults =>
    Parameter.LegibleAll positionalOnly ∧ Parameter.LegibleAll positional ∧
      Parameter.LegibleOption variadic ∧ KeywordOnly.LegibleAll keywordOnly ∧
      Parameter.LegibleOption variadicKeyword ∧ Expr.LegibleAll defaults

end

/-! ## Patterns -/

mutual

/-- A pattern with legible names. -/
def Pattern.Legible : Pattern → Prop
  | .node _ shape => Pattern.Shape.Legible shape

/-- A pattern's shape with legible names. -/
def Pattern.Shape.Legible : Pattern.Shape → Prop
  | .value value => value.Legible numbers
  | .singleton _ => True
  | .sequence patterns => Pattern.LegibleAll patterns
  | .mapping entries rest => Pattern.LegibleEntries entries ∧ IsLegibleOption rest
  | .record callee patterns attributes =>
    callee.Legible numbers ∧ Pattern.LegibleAll patterns ∧ Pattern.LegibleAttributes attributes
  | .star name => IsLegibleOption name
  | .as pattern name => Pattern.LegibleOption pattern ∧ IsLegibleOption name
  | .or patterns => Pattern.LegibleAll patterns

/-- Patterns with legible names. -/
def Pattern.LegibleAll : List Pattern → Prop
  | [] => True
  | p :: rest => p.Legible ∧ Pattern.LegibleAll rest

/-- A pattern that may be missing, with legible names. -/
def Pattern.LegibleOption : Option Pattern → Prop
  | none => True
  | some p => p.Legible

/-- Entries of a mapping pattern with legible names. -/
def Pattern.LegibleEntries : List (Expr × Pattern) → Prop
  | [] => True
  | (key, p) :: rest => key.Legible numbers ∧ p.Legible ∧ Pattern.LegibleEntries rest

/-- Keyword patterns of a class with legible names. -/
def Pattern.LegibleAttributes : List (Bytes × Pattern) → Prop
  | [] => True
  | (name, p) :: rest => IsLegible name ∧ p.Legible ∧ Pattern.LegibleAttributes rest

end

/-! ## Statements -/

/-- An imported name that is legible. -/
def Alias.Legible (a : Alias) : Prop := IsLegible a.name ∧ IsLegibleOption a.renamed

/-- An item of a with statement with legible names. -/
def WithItem.Legible (item : WithItem) : Prop :=
  item.context.Legible numbers ∧ Expr.LegibleOption numbers item.target

/-- A type parameter with legible names. -/
def TypeParam.Legible (p : TypeParam) : Prop :=
  IsLegible p.name ∧ Expr.LegibleOption numbers p.bound ∧ Expr.LegibleOption numbers p.default

mutual

/-- A statement with legible names. -/
def Stmt.Legible : Stmt → Prop
  | .node _ shape => Stmt.Shape.Legible shape

/-- A statement's shape with legible names. -/
def Stmt.Shape.Legible : Stmt.Shape → Prop
  | .functionDef _ name decorators typeParams parameters returns body =>
    IsLegible name ∧ Expr.LegibleAll numbers decorators ∧
      (∀ p ∈ typeParams, p.Legible numbers) ∧ parameters.Legible numbers ∧
      Expr.LegibleOption numbers returns ∧ Stmt.LegibleAll body
  | .classDef name decorators typeParams bases keywords body =>
    IsLegible name ∧ Expr.LegibleAll numbers decorators ∧
      (∀ p ∈ typeParams, p.Legible numbers) ∧ Expr.LegibleAll numbers bases ∧
      Keyword.LegibleAll numbers keywords ∧ Stmt.LegibleAll body
  | .returnValue value => Expr.LegibleOption numbers value
  | .delete targets => Expr.LegibleAll numbers targets
  | .assign targets value => Expr.LegibleAll numbers targets ∧ value.Legible numbers
  | .augmentedAssign target _ value => target.Legible numbers ∧ value.Legible numbers
  | .annotatedAssign target hint value _ =>
    target.Legible numbers ∧ hint.Legible numbers ∧ Expr.LegibleOption numbers value
  | .forLoop _ target iterable body orelse =>
    target.Legible numbers ∧ iterable.Legible numbers ∧ Stmt.LegibleAll body ∧
      Stmt.LegibleAll orelse
  | .whileLoop test body orelse =>
    test.Legible numbers ∧ Stmt.LegibleAll body ∧ Stmt.LegibleAll orelse
  | .conditional test body orelse =>
    test.Legible numbers ∧ Stmt.LegibleAll body ∧ Stmt.LegibleAll orelse
  | .withBlock _ items body => (∀ item ∈ items, item.Legible numbers) ∧ Stmt.LegibleAll body
  | .matchBlock subject cases => subject.Legible numbers ∧ MatchCase.LegibleAll cases
  | .raise exception cause =>
    Expr.LegibleOption numbers exception ∧ Expr.LegibleOption numbers cause
  | .tryBlock _ body handlers orelse finalbody =>
    Stmt.LegibleAll body ∧ ExceptHandler.LegibleAll handlers ∧ Stmt.LegibleAll orelse ∧
      Stmt.LegibleAll finalbody
  | .assertion test message => test.Legible numbers ∧ Expr.LegibleOption numbers message
  | .importNames names => ∀ a ∈ names, a.Legible
  | .importFrom _ source names => IsLegibleOption source ∧ ∀ a ∈ names, a.Legible
  | .globalNames names => ∀ name ∈ names, IsLegible name
  | .nonlocalNames names => ∀ name ∈ names, IsLegible name
  | .expression value => value.Legible numbers
  | .pass => True
  | .breakLoop => True
  | .continueLoop => True
  | .typeAlias name typeParams value =>
    name.Legible numbers ∧ (∀ p ∈ typeParams, p.Legible numbers) ∧ value.Legible numbers
  | .blank _ => True

/-- Statements with legible names. -/
def Stmt.LegibleAll : List Stmt → Prop
  | [] => True
  | s :: rest => s.Legible ∧ Stmt.LegibleAll rest

/-- A case of a match statement with legible names. -/
def MatchCase.Legible : MatchCase → Prop
  | .mk _ pattern guard body =>
    pattern.Legible numbers ∧ Expr.LegibleOption numbers guard ∧ Stmt.LegibleAll body

/-- Cases with legible names. -/
def MatchCase.LegibleAll : List MatchCase → Prop
  | [] => True
  | c :: rest => c.Legible ∧ MatchCase.LegibleAll rest

/-- A handler of a try statement with legible names. -/
def ExceptHandler.Legible : ExceptHandler → Prop
  | .mk _ type name body =>
    Expr.LegibleOption numbers type ∧ IsLegibleOption name ∧ Stmt.LegibleAll body

/-- Handlers with legible names. -/
def ExceptHandler.LegibleAll : List ExceptHandler → Prop
  | [] => True
  | handler :: rest => handler.Legible ∧ ExceptHandler.LegibleAll rest

end

/-! ## Modules and nodes -/

/-- A module with legible names. -/
def Module.Legible (m : Module) : Prop :=
  Stmt.LegibleAll numbers m.body ∧ Expr.LegibleOption numbers m.expression ∧
    Expr.LegibleAll numbers m.argumentTypes ∧ Expr.LegibleOption numbers m.returns

/-- A node with legible names. -/
def Node.Legible : Node → Prop
  | module m => m.Legible numbers
  | stmt s => s.Legible numbers
  | expr e => e.Legible numbers
  | pattern p => p.Legible numbers
  | parameters p => p.Legible numbers
  | parameter p => p.Legible numbers
  | keyword k => k.Legible numbers
  | importAlias a => a.Legible
  | withItem item => item.Legible numbers
  | matchCase c => c.Legible numbers
  | exceptHandler h => h.Legible numbers
  | comprehension c => c.Legible numbers
  | typeParam p => p.Legible numbers

end

end SyntaxTree
