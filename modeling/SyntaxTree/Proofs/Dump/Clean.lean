import SyntaxTree.Proofs.Dump.Kind

/-
# The documents of legible trees

Every label of a legible tree tells a kind and holds no control characters, so all lines of its dump
are clean.
-/

namespace SyntaxTree

/-! ## Labels -/

/-- The type and value of a legible constant are printable. -/
theorem Constant.isPrintable_label {numbers : Set Binary64} {c : Constant}
    (h : c.Legible numbers) : IsPrintable c.label := by
  cases c with
  | boolean value => cases value <;> decide
  | integer digits => exact (isPrintable_append _ _).mpr ⟨by decide, IsLegible.isPrintable h⟩
  | float value => exact (isPrintable_append _ _).mpr ⟨by decide, isPrintable_exact_write value⟩
  | imaginary value =>
    simp only [Constant.label, isPrintable_append]
    exact ⟨⟨by decide, isPrintable_exact_write value⟩, by decide⟩
  | string value => exact (isPrintable_append _ _).mpr ⟨by decide, isPrintable_quoted value⟩
  | bytes value => exact (isPrintable_append _ _).mpr ⟨by decide, isPrintable_quoted value⟩
  | _ => decide

/-- The label of a legible expression is printable. -/
theorem Expr.Shape.isPrintable_label {numbers : Set Binary64} {shape : Expr.Shape}
    (h : shape.Legible numbers) : IsPrintable (Expr.Shape.doc shape).label := by
  have hcontext : ∀ c : Context, IsPrintable c.name := by
    intro c
    cases c <;> decide
  cases shape with
  | name id context =>
    simp only [Expr.Shape.doc, Doc.leaf, Doc.label, isPrintable_append]
    exact ⟨⟨⟨by decide, IsLegible.isPrintable h⟩, by decide⟩, hcontext context⟩
  | constant value =>
    exact (isPrintable_append _ _).mpr ⟨by decide, Constant.isPrintable_label h⟩
  | boolean op => cases op <;> exact show IsPrintable (_ ++ _) by decide
  | binary op => cases op <;> exact show IsPrintable (_ ++ _) by decide
  | unary op => cases op <;> exact show IsPrintable (_ ++ _) by decide
  | list _ context => exact (isPrintable_append _ _).mpr ⟨by decide, hcontext context⟩
  | tuple _ context => exact (isPrintable_append _ _).mpr ⟨by decide, hcontext context⟩
  | compare _ rest =>
    refine (isPrintable_append _ _).mpr ⟨by decide, isPrintable_joinNames ?_⟩
    intro name hname
    obtain ⟨⟨op, _⟩, _, rfl⟩ := List.mem_map.mp hname
    exact op.isLegible_name
  | field _ conversion =>
    rcases conversion with _ | _ | _ | _ <;> exact show IsPrintable (_ ++ _) by decide
  | «attribute» _ name context =>
    simp only [Expr.Shape.doc, Doc.label, isPrintable_append]
    exact ⟨⟨⟨by decide, IsLegible.isPrintable h.2⟩, by decide⟩, hcontext context⟩
  | subscript _ _ context => exact (isPrintable_append _ _).mpr ⟨by decide, hcontext context⟩
  | starred _ context => exact (isPrintable_append _ _).mpr ⟨by decide, hcontext context⟩
  | _ => exact show IsPrintable (text _) by decide

/-- The names of legible keyword patterns are legible. -/
theorem Pattern.isLegible_of_legibleAttributes {numbers : Set Binary64} :
    ∀ {attributes : List (Bytes × Pattern)}, Pattern.LegibleAttributes numbers attributes →
    ∀ s ∈ attributes.map Prod.fst, IsLegible s
  | [], _, s, hs => by simp at hs
  | (name, _) :: rest, h, s, hs => by
    rcases List.mem_cons.mp hs with rfl | hs
    · exact h.1
    · exact Pattern.isLegible_of_legibleAttributes h.2.2 s hs

/-- The label of a legible pattern is printable. -/
theorem Pattern.Shape.isPrintable_label {numbers : Set Binary64} {shape : Pattern.Shape}
    (h : shape.Legible numbers) : IsPrintable (Pattern.Shape.doc shape).label := by
  cases shape with
  | singleton value =>
    rcases value with _ | _ | _ <;> exact show IsPrintable (_ ++ _) by decide
  | mapping _ rest => exact (isPrintable_append _ _).mpr ⟨by decide, isPrintable_optionalName h.2⟩
  | record _ _ attributes =>
    refine (isPrintable_append _ _).mpr ⟨by decide, isPrintable_joinNames ?_⟩
    exact Pattern.isLegible_of_legibleAttributes h.2.2
  | star name => exact (isPrintable_append _ _).mpr ⟨by decide, isPrintable_optionalName h⟩
  | as _ name => exact (isPrintable_append _ _).mpr ⟨by decide, isPrintable_optionalName h.2⟩
  | _ => exact show IsPrintable (text _) by decide

/-- The label of a legible statement is printable. -/
theorem Stmt.Shape.isPrintable_label {numbers : Set Binary64} {shape : Stmt.Shape}
    (h : shape.Legible numbers) : IsPrintable (Stmt.Shape.doc shape).label := by
  cases shape with
  | functionDef isAsync name =>
    simp only [Stmt.Shape.doc, Doc.label, isPrintable_append]
    exact ⟨⟨by cases isAsync <;> decide, by decide⟩, IsLegible.isPrintable h.1⟩
  | classDef name => exact (isPrintable_append _ _).mpr ⟨by decide, IsLegible.isPrintable h.1⟩
  | augmentedAssign _ op _ => cases op <;> exact show IsPrintable (_ ++ _) by decide
  | annotatedAssign _ _ _ simple =>
    cases simple <;> exact show IsPrintable (labelIf _ _ _) by decide
  | forLoop isAsync => cases isAsync <;> exact show IsPrintable (labelIf _ _ _) by decide
  | withBlock isAsync => cases isAsync <;> exact show IsPrintable (labelIf _ _ _) by decide
  | tryBlock isStar => cases isStar <;> exact show IsPrintable (labelIf _ _ _) by decide
  | importFrom level source _ =>
    simp only [Stmt.Shape.doc, Doc.label, isPrintable_append]
    exact ⟨⟨⟨by decide, isPrintable_optionalName h.1⟩, by decide⟩, isPrintable_ofNat level⟩
  | globalNames names => exact (isPrintable_append _ _).mpr ⟨by decide, isPrintable_joinNames h⟩
  | nonlocalNames names => exact (isPrintable_append _ _).mpr ⟨by decide, isPrintable_joinNames h⟩
  | blank count => exact (isPrintable_append _ _).mpr ⟨by decide, isPrintable_ofInt count⟩
  | _ => exact show IsPrintable (text _) by decide

/-- The label of a legible node is printable. -/
theorem Node.isPrintable_label {numbers : Set Binary64} {n : Node} (h : n.Legible numbers) :
    IsPrintable n.doc.label := by
  cases n with
  | module m =>
    refine (isPrintable_append _ _).mpr ⟨by decide, ?_⟩
    cases m.mode <;> decide
  | stmt s =>
    cases s
    exact Stmt.Shape.isPrintable_label h
  | expr e =>
    cases e
    exact Expr.Shape.isPrintable_label h
  | pattern p =>
    cases p
    exact Pattern.Shape.isPrintable_label h
  | parameters p =>
    cases p
    exact show IsPrintable (text _) by decide
  | parameter p =>
    cases p
    exact (isPrintable_append _ _).mpr ⟨by decide, h.1.isPrintable⟩
  | keyword k =>
    cases k
    exact (isPrintable_append _ _).mpr ⟨by decide, isPrintable_optionalName h.1⟩
  | importAlias a =>
    simp only [Node.doc, Alias.doc, Doc.leaf, Doc.label, isPrintable_append]
    exact ⟨⟨⟨by decide, h.1.isPrintable⟩, by decide⟩, isPrintable_optionalName h.2⟩
  | withItem item => exact show IsPrintable (text _) by decide
  | matchCase c =>
    cases c
    exact show IsPrintable (text _) by decide
  | exceptHandler handler =>
    cases handler
    exact (isPrintable_append _ _).mpr ⟨by decide, isPrintable_optionalName h.2.1⟩
  | comprehension c =>
    obtain ⟨_, _, _, _, isAsync⟩ := c
    cases isAsync <;> exact show IsPrintable (labelIf _ _ _) by decide
  | typeParam p =>
    simp only [Node.doc, TypeParam.doc, Doc.label, isPrintable_append]
    refine ⟨⟨?_, by decide⟩, h.1.isPrintable⟩
    cases p.kind <;> decide

/-- The label of a legible node is clean. -/
theorem Node.isLabel {numbers : Set Binary64} (n : Node) (h : n.Legible numbers) :
    IsLabel n.doc.label :=
  ⟨Node.isPrintable_label h, by rw [Node.ofLabel?_label]; rfl⟩

/-! ## Expressions -/

/-- A node with a clean label and clean fields is clean. -/
theorem Doc.isClean_of_fields {doc : Doc} (hlabel : IsLabel doc.label)
    (hfields : Doc.FieldsClean doc.fields) : doc.IsClean := by
  obtain ⟨label, fields⟩ := doc
  exact ⟨hlabel, hfields⟩

section

variable {numbers : Set Binary64}

mutual

/-- The document of a legible expression is clean. -/
theorem Expr.isClean_doc : ∀ e : Expr, e.Legible numbers → e.doc.IsClean
  | .node span shape, h =>
    Doc.isClean_of_fields (Node.isLabel (.expr (.node span shape)) h)
      (Expr.Shape.isClean_fields shape h)

/-- The fields of a legible expression are clean. -/
theorem Expr.Shape.isClean_fields : ∀ shape : Expr.Shape, shape.Legible numbers →
    Doc.FieldsClean (Expr.Shape.doc shape).fields
  | .name .., _ => trivial
  | .constant _, _ => trivial
  | .boolean _ values, h => ⟨by decide, Expr.isClean_docs values h, trivial⟩
  | .named target value, h =>
    ⟨by decide, ⟨Expr.isClean_doc target h.1, trivial⟩, by decide,
      ⟨Expr.isClean_doc value h.2, trivial⟩, trivial⟩
  | .binary _ left right, h =>
    ⟨by decide, ⟨Expr.isClean_doc left h.1, trivial⟩, by decide,
      ⟨Expr.isClean_doc right h.2, trivial⟩, trivial⟩
  | .unary _ operand, h => ⟨by decide, ⟨Expr.isClean_doc operand h, trivial⟩, trivial⟩
  | .lambda parameters body, h =>
    ⟨by decide, ⟨Parameters.isClean_doc parameters h.1, trivial⟩, by decide,
      ⟨Expr.isClean_doc body h.2, trivial⟩, trivial⟩
  | .conditional test body orelse, h =>
    ⟨by decide, ⟨Expr.isClean_doc test h.1, trivial⟩, by decide,
      ⟨Expr.isClean_doc body h.2.1, trivial⟩, by decide,
      ⟨Expr.isClean_doc orelse h.2.2, trivial⟩, trivial⟩
  | .dict items, h =>
    ⟨by decide, DictItem.isClean_keyDocs items h, by decide, DictItem.isClean_valueDocs items h,
      trivial⟩
  | .set elements, h => ⟨by decide, Expr.isClean_docs elements h, trivial⟩
  | .list elements _, h => ⟨by decide, Expr.isClean_docs elements h, trivial⟩
  | .tuple elements _, h => ⟨by decide, Expr.isClean_docs elements h, trivial⟩
  | .listComp element clauses, h =>
    ⟨by decide, ⟨Expr.isClean_doc element h.1, trivial⟩, by decide,
      Comprehension.isClean_docs clauses h.2, trivial⟩
  | .setComp element clauses, h =>
    ⟨by decide, ⟨Expr.isClean_doc element h.1, trivial⟩, by decide,
      Comprehension.isClean_docs clauses h.2, trivial⟩
  | .dictComp key value clauses, h =>
    ⟨by decide, ⟨Expr.isClean_doc key h.1, trivial⟩, by decide,
      ⟨Expr.isClean_doc value h.2.1, trivial⟩, by decide,
      Comprehension.isClean_docs clauses h.2.2, trivial⟩
  | .generator element clauses, h =>
    ⟨by decide, ⟨Expr.isClean_doc element h.1, trivial⟩, by decide,
      Comprehension.isClean_docs clauses h.2, trivial⟩
  | .await value, h => ⟨by decide, ⟨Expr.isClean_doc value h, trivial⟩, trivial⟩
  | .yield value, h => ⟨by decide, Expr.isClean_optionalDoc value h, trivial⟩
  | .yieldFrom value, h => ⟨by decide, ⟨Expr.isClean_doc value h, trivial⟩, trivial⟩
  | .compare left rest, h =>
    ⟨by decide, ⟨Expr.isClean_doc left h.1, trivial⟩, by decide,
      Comparison.isClean_docs rest h.2, trivial⟩
  | .call callee arguments keywords, h =>
    ⟨by decide, ⟨Expr.isClean_doc callee h.1, trivial⟩, by decide,
      Expr.isClean_docs arguments h.2.1, by decide, Keyword.isClean_docs keywords h.2.2, trivial⟩
  | .field value _ spec, h =>
    ⟨by decide, ⟨Expr.isClean_doc value h.1, trivial⟩, by decide,
      FormatSpec.isClean_optionalDoc spec h.2, trivial⟩
  | .fstring values, h => ⟨by decide, Expr.isClean_docs values h, trivial⟩
  | .attribute value _ _, h => ⟨by decide, ⟨Expr.isClean_doc value h.1, trivial⟩, trivial⟩
  | .subscript value index _, h =>
    ⟨by decide, ⟨Expr.isClean_doc value h.1, trivial⟩, by decide,
      ⟨Expr.isClean_doc index h.2, trivial⟩, trivial⟩
  | .starred value _, h => ⟨by decide, ⟨Expr.isClean_doc value h, trivial⟩, trivial⟩
  | .slice lower upper step, h =>
    ⟨by decide, Expr.isClean_optionalDoc lower h.1, by decide,
      Expr.isClean_optionalDoc upper h.2.1, by decide, Expr.isClean_optionalDoc step h.2.2, trivial⟩

/-- The entries of legible expressions are clean. -/
theorem Expr.isClean_docs : ∀ es : List Expr, Expr.LegibleAll numbers es →
    Doc.EntriesClean (Expr.docs es)
  | [], _ => trivial
  | e :: rest, h => ⟨Expr.isClean_doc e h.1, Expr.isClean_docs rest h.2⟩

/-- The entry of a legible expression that may be missing is clean. -/
theorem Expr.isClean_optionalDoc : ∀ e : Option Expr, Expr.LegibleOption numbers e →
    Doc.EntriesClean (Expr.optionalDoc e)
  | none, _ => trivial
  | some e, h => ⟨Expr.isClean_doc e h, trivial⟩

/-- The keys of legible dict items are clean. -/
theorem DictItem.isClean_keyDocs : ∀ items : List DictItem, DictItem.LegibleAll numbers items →
    Doc.EntriesClean (DictItem.keyDocs items)
  | [], _ => trivial
  | .entry key _ :: rest, h => ⟨Expr.isClean_doc key h.1, DictItem.isClean_keyDocs rest h.2.2⟩
  | .unpack _ :: rest, h => DictItem.isClean_keyDocs rest h.2

/-- The values of legible dict items are clean. -/
theorem DictItem.isClean_valueDocs : ∀ items : List DictItem, DictItem.LegibleAll numbers items →
    Doc.EntriesClean (DictItem.valueDocs items)
  | [], _ => trivial
  | .entry _ value :: rest, h =>
    ⟨Expr.isClean_doc value h.2.1, DictItem.isClean_valueDocs rest h.2.2⟩
  | .unpack value :: rest, h => ⟨Expr.isClean_doc value h.1, DictItem.isClean_valueDocs rest h.2⟩

/-- The operands of legible comparisons are clean. -/
theorem Comparison.isClean_docs : ∀ rest : List Comparison, Comparison.LegibleAll numbers rest →
    Doc.EntriesClean (Comparison.docs rest)
  | [], _ => trivial
  | .mk _ operand :: rest, h => ⟨Expr.isClean_doc operand h.1, Comparison.isClean_docs rest h.2⟩

/-- The document of a legible clause is clean. -/
theorem Comprehension.isClean_doc : ∀ c : Comprehension, c.Legible numbers → c.doc.IsClean
  | .mk span target iterable conditions isAsync, h =>
    Doc.isClean_of_fields
      (Node.isLabel (.comprehension (.mk span target iterable conditions isAsync)) h)
      ⟨by decide, ⟨Expr.isClean_doc target h.1, trivial⟩,
        by decide, ⟨Expr.isClean_doc iterable h.2.1, trivial⟩, by decide,
        Expr.isClean_docs conditions h.2.2, trivial⟩

/-- The entries of legible clauses are clean. -/
theorem Comprehension.isClean_docs : ∀ cs : List Comprehension,
    Comprehension.LegibleAll numbers cs → Doc.EntriesClean (Comprehension.docs cs)
  | [], _ => trivial
  | c :: rest, h => ⟨Comprehension.isClean_doc c h.1, Comprehension.isClean_docs rest h.2⟩

/-- The document of a legible keyword argument is clean. -/
theorem Keyword.isClean_doc : ∀ k : Keyword, k.Legible numbers → k.doc.IsClean
  | .mk span name value, h =>
    Doc.isClean_of_fields (Node.isLabel (.keyword (.mk span name value)) h)
      ⟨by decide, ⟨Expr.isClean_doc value h.2, trivial⟩, trivial⟩

/-- The entries of legible keyword arguments are clean. -/
theorem Keyword.isClean_docs : ∀ ks : List Keyword, Keyword.LegibleAll numbers ks →
    Doc.EntriesClean (Keyword.docs ks)
  | [], _ => trivial
  | k :: rest, h => ⟨Keyword.isClean_doc k h.1, Keyword.isClean_docs rest h.2⟩

/-- The document of a legible format specification is clean. -/
theorem FormatSpec.isClean_doc : ∀ spec : FormatSpec, spec.Legible numbers → spec.doc.IsClean
  -- Its label is that of the f-string of its parts.
  | .mk span values, h =>
    Doc.isClean_of_fields (Node.isLabel (.expr (.node span (.fstring values))) h)
      ⟨by decide, Expr.isClean_docs values h, trivial⟩

/-- The entry of a legible format specification that may be missing is clean. -/
theorem FormatSpec.isClean_optionalDoc : ∀ spec : Option FormatSpec,
    FormatSpec.LegibleOption numbers spec → Doc.EntriesClean (FormatSpec.optionalDoc spec)
  | none, _ => trivial
  | some spec, h => ⟨FormatSpec.isClean_doc spec h, trivial⟩

/-- The document of a legible parameter is clean. -/
theorem Parameter.isClean_doc : ∀ p : Parameter, p.Legible numbers → p.doc.IsClean
  | .mk span name hint, h =>
    Doc.isClean_of_fields (Node.isLabel (.parameter (.mk span name hint)) h)
      ⟨by decide, Expr.isClean_optionalDoc hint h.2, trivial⟩

/-- The entries of legible parameters are clean. -/
theorem Parameter.isClean_docs : ∀ ps : List Parameter, Parameter.LegibleAll numbers ps →
    Doc.EntriesClean (Parameter.docs ps)
  | [], _ => trivial
  | p :: rest, h => ⟨Parameter.isClean_doc p h.1, Parameter.isClean_docs rest h.2⟩

/-- The entry of a legible parameter that may be missing is clean. -/
theorem Parameter.isClean_optionalDoc : ∀ p : Option Parameter,
    Parameter.LegibleOption numbers p → Doc.EntriesClean (Parameter.optionalDoc p)
  | none, _ => trivial
  | some p, h => ⟨Parameter.isClean_doc p h, trivial⟩

/-- The entries of legible keyword-only parameters are clean. -/
theorem KeywordOnly.isClean_docs : ∀ ps : List KeywordOnly, KeywordOnly.LegibleAll numbers ps →
    Doc.EntriesClean (KeywordOnly.docs ps)
  | [], _ => trivial
  | .mk p _ :: rest, h => ⟨Parameter.isClean_doc p h.1, KeywordOnly.isClean_docs rest h.2.2⟩

/-- The defaults of legible keyword-only parameters are clean. -/
theorem KeywordOnly.isClean_defaultDocs : ∀ ps : List KeywordOnly,
    KeywordOnly.LegibleAll numbers ps → Doc.EntriesClean (KeywordOnly.defaultDocs ps)
  | [], _ => trivial
  | .mk _ none :: rest, h => KeywordOnly.isClean_defaultDocs rest h.2.2
  | .mk _ (some default) :: rest, h =>
    ⟨Expr.isClean_doc default h.2.1, KeywordOnly.isClean_defaultDocs rest h.2.2⟩

/-- The document of the legible parameters of a function is clean. -/
theorem Parameters.isClean_doc : ∀ ps : Parameters, ps.Legible numbers → ps.doc.IsClean
  | .mk positionalOnly positional variadic keywordOnly variadicKeyword defaults, h =>
    Doc.isClean_of_fields (Node.isLabel (.parameters (.mk positionalOnly positional variadic
      keywordOnly variadicKeyword defaults)) h)
      ⟨by decide, Parameter.isClean_docs positionalOnly h.1, by decide,
        Parameter.isClean_docs positional h.2.1, by decide,
        Parameter.isClean_optionalDoc variadic h.2.2.1, by decide,
        KeywordOnly.isClean_docs keywordOnly h.2.2.2.1, by decide,
        KeywordOnly.isClean_defaultDocs keywordOnly h.2.2.2.1, by decide,
        Parameter.isClean_optionalDoc variadicKeyword h.2.2.2.2.1, by decide,
        Expr.isClean_docs defaults h.2.2.2.2.2, trivial⟩

end

/-! ## Patterns -/

/-- The keys of a legible mapping pattern are clean. -/
theorem Pattern.isClean_keyDocs : ∀ entries : List (Expr × Pattern),
    Pattern.LegibleEntries numbers entries →
    Doc.EntriesClean (entries.map fun entry => .present entry.1.doc)
  | [], _ => trivial
  | (key, _) :: rest, h => ⟨Expr.isClean_doc key h.1, Pattern.isClean_keyDocs rest h.2.2⟩

mutual

/-- The document of a legible pattern is clean. -/
theorem Pattern.isClean_doc : ∀ p : Pattern, p.Legible numbers → p.doc.IsClean
  | .node span shape, h =>
    Doc.isClean_of_fields (Node.isLabel (.pattern (.node span shape)) h)
      (Pattern.Shape.isClean_fields shape h)

/-- The fields of a legible pattern are clean. -/
theorem Pattern.Shape.isClean_fields : ∀ shape : Pattern.Shape, shape.Legible numbers →
    Doc.FieldsClean (Pattern.Shape.doc shape).fields
  | .value value, h => ⟨by decide, ⟨Expr.isClean_doc value h, trivial⟩, trivial⟩
  | .singleton _, _ => trivial
  | .sequence patterns, h => ⟨by decide, Pattern.isClean_docs patterns h, trivial⟩
  | .mapping entries _, h =>
    ⟨by decide, Pattern.isClean_keyDocs entries h.1, by decide,
      Pattern.isClean_valueDocs entries h.1, trivial⟩
  | .record callee patterns attributes, h =>
    ⟨by decide, ⟨Expr.isClean_doc callee h.1, trivial⟩, by decide,
      Pattern.isClean_docs patterns h.2.1, by decide,
      Pattern.isClean_attributeDocs attributes h.2.2, trivial⟩
  | .star _, _ => trivial
  | .as pattern _, h => ⟨by decide, Pattern.isClean_optionalDoc pattern h.1, trivial⟩
  | .or patterns, h => ⟨by decide, Pattern.isClean_docs patterns h, trivial⟩

/-- The entries of legible patterns are clean. -/
theorem Pattern.isClean_docs : ∀ ps : List Pattern, Pattern.LegibleAll numbers ps →
    Doc.EntriesClean (Pattern.docs ps)
  | [], _ => trivial
  | p :: rest, h => ⟨Pattern.isClean_doc p h.1, Pattern.isClean_docs rest h.2⟩

/-- The entry of a legible pattern that may be missing is clean. -/
theorem Pattern.isClean_optionalDoc : ∀ p : Option Pattern, Pattern.LegibleOption numbers p →
    Doc.EntriesClean (Pattern.optionalDoc p)
  | none, _ => trivial
  | some p, h => ⟨Pattern.isClean_doc p h, trivial⟩

/-- The values of a legible mapping pattern are clean. -/
theorem Pattern.isClean_valueDocs : ∀ entries : List (Expr × Pattern),
    Pattern.LegibleEntries numbers entries → Doc.EntriesClean (Pattern.valueDocs entries)
  | [], _ => trivial
  | (_, p) :: rest, h => ⟨Pattern.isClean_doc p h.2.1, Pattern.isClean_valueDocs rest h.2.2⟩

/-- The keyword patterns of a legible class pattern are clean. -/
theorem Pattern.isClean_attributeDocs : ∀ attributes : List (Bytes × Pattern),
    Pattern.LegibleAttributes numbers attributes →
    Doc.EntriesClean (Pattern.attributeDocs attributes)
  | [], _ => trivial
  | (_, p) :: rest, h =>
    ⟨Pattern.isClean_doc p h.2.1, Pattern.isClean_attributeDocs rest h.2.2⟩

end

/-! ## Parts of statements -/

/-- Entries of clean documents are clean. -/
theorem Doc.isClean_entries {α : Type} {doc : α → Doc} : ∀ {items : List α},
    (∀ a ∈ items, (doc a).IsClean) → Doc.EntriesClean (Doc.entries doc items)
  | [], _ => trivial
  | a :: items, h =>
    ⟨h a (by simp), Doc.isClean_entries fun b hb => h b (List.mem_cons_of_mem a hb)⟩

/-- The document of a legible imported name is clean. -/
theorem Alias.isClean_doc {a : Alias} (h : a.Legible) : a.doc.IsClean :=
  Doc.isClean_of_fields
    (Node.isLabel (.importAlias a) (show (Node.importAlias a).Legible ∅ from h)) trivial

/-- The document of a legible item of a with statement is clean. -/
theorem WithItem.isClean_doc {item : WithItem} (h : item.Legible numbers) : item.doc.IsClean :=
  Doc.isClean_of_fields (Node.isLabel (.withItem item) h)
    ⟨by decide, ⟨Expr.isClean_doc item.context h.1, trivial⟩, by decide,
      Expr.isClean_optionalDoc item.target h.2, trivial⟩

/-- The document of a legible type parameter is clean. -/
theorem TypeParam.isClean_doc {p : TypeParam} (h : p.Legible numbers) : p.doc.IsClean :=
  Doc.isClean_of_fields (Node.isLabel (.typeParam p) h)
    ⟨by decide, Expr.isClean_optionalDoc p.bound h.2.1, by decide,
      Expr.isClean_optionalDoc p.default h.2.2, trivial⟩

/-- The entries of legible type parameters are clean. -/
theorem TypeParam.isClean_entries {ps : List TypeParam} (h : ∀ p ∈ ps, p.Legible numbers) :
    Doc.EntriesClean (Doc.entries TypeParam.doc ps) :=
  Doc.isClean_entries fun p hp => TypeParam.isClean_doc (h p hp)

/-- The entries of legible imported names are clean. -/
theorem Alias.isClean_entries {names : List Alias} (h : ∀ a ∈ names, a.Legible) :
    Doc.EntriesClean (Doc.entries Alias.doc names) :=
  Doc.isClean_entries fun a ha => Alias.isClean_doc (h a ha)

/-- The entries of the legible items of a with statement are clean. -/
theorem WithItem.isClean_entries {items : List WithItem}
    (h : ∀ item ∈ items, item.Legible numbers) :
    Doc.EntriesClean (Doc.entries WithItem.doc items) :=
  Doc.isClean_entries fun item hitem => WithItem.isClean_doc (h item hitem)

/-! ## Statements -/

mutual

/-- The document of a legible statement is clean. -/
theorem Stmt.isClean_doc : ∀ s : Stmt, s.Legible numbers → s.doc.IsClean
  | .node span shape, h =>
    Doc.isClean_of_fields (Node.isLabel (.stmt (.node span shape)) h)
      (Stmt.Shape.isClean_fields shape h)

/-- The fields of a legible statement are clean. -/
theorem Stmt.Shape.isClean_fields : ∀ shape : Stmt.Shape, shape.Legible numbers →
    Doc.FieldsClean (Stmt.Shape.doc shape).fields
  | .functionDef _ _ decorators typeParams parameters returns body, h =>
    ⟨by decide, Expr.isClean_docs decorators h.2.1, by decide,
      TypeParam.isClean_entries h.2.2.1, by decide,
      ⟨Parameters.isClean_doc parameters h.2.2.2.1, trivial⟩, by decide,
      Expr.isClean_optionalDoc returns h.2.2.2.2.1, by decide,
      Stmt.isClean_docs body h.2.2.2.2.2, trivial⟩
  | .classDef _ decorators typeParams bases keywords body, h =>
    ⟨by decide, Expr.isClean_docs decorators h.2.1, by decide,
      TypeParam.isClean_entries h.2.2.1, by decide, Expr.isClean_docs bases h.2.2.2.1, by decide,
      Keyword.isClean_docs keywords h.2.2.2.2.1, by decide, Stmt.isClean_docs body h.2.2.2.2.2,
      trivial⟩
  | .returnValue value, h => ⟨by decide, Expr.isClean_optionalDoc value h, trivial⟩
  | .delete targets, h => ⟨by decide, Expr.isClean_docs targets h, trivial⟩
  | .assign targets value, h =>
    ⟨by decide, Expr.isClean_docs targets h.1, by decide, ⟨Expr.isClean_doc value h.2, trivial⟩,
      trivial⟩
  | .augmentedAssign target _ value, h =>
    ⟨by decide, ⟨Expr.isClean_doc target h.1, trivial⟩, by decide,
      ⟨Expr.isClean_doc value h.2, trivial⟩, trivial⟩
  | .annotatedAssign target hint value _, h =>
    ⟨by decide, ⟨Expr.isClean_doc target h.1, trivial⟩, by decide,
      ⟨Expr.isClean_doc hint h.2.1, trivial⟩, by decide, Expr.isClean_optionalDoc value h.2.2,
      trivial⟩
  | .forLoop _ target iterable body orelse, h =>
    ⟨by decide, ⟨Expr.isClean_doc target h.1, trivial⟩, by decide,
      ⟨Expr.isClean_doc iterable h.2.1, trivial⟩, by decide, Stmt.isClean_docs body h.2.2.1,
      by decide, Stmt.isClean_docs orelse h.2.2.2, trivial⟩
  | .whileLoop test body orelse, h =>
    ⟨by decide, ⟨Expr.isClean_doc test h.1, trivial⟩, by decide, Stmt.isClean_docs body h.2.1,
      by decide, Stmt.isClean_docs orelse h.2.2, trivial⟩
  | .conditional test body orelse, h =>
    ⟨by decide, ⟨Expr.isClean_doc test h.1, trivial⟩, by decide, Stmt.isClean_docs body h.2.1,
      by decide, Stmt.isClean_docs orelse h.2.2, trivial⟩
  | .withBlock _ _ body, h =>
    ⟨by decide, WithItem.isClean_entries h.1, by decide, Stmt.isClean_docs body h.2, trivial⟩
  | .matchBlock subject cases, h =>
    ⟨by decide, ⟨Expr.isClean_doc subject h.1, trivial⟩, by decide,
      MatchCase.isClean_docs cases h.2, trivial⟩
  | .raise exception cause, h =>
    ⟨by decide, Expr.isClean_optionalDoc exception h.1, by decide,
      Expr.isClean_optionalDoc cause h.2, trivial⟩
  | .tryBlock _ body handlers orelse finalbody, h =>
    ⟨by decide, Stmt.isClean_docs body h.1, by decide, ExceptHandler.isClean_docs handlers h.2.1,
      by decide, Stmt.isClean_docs orelse h.2.2.1, by decide, Stmt.isClean_docs finalbody h.2.2.2,
      trivial⟩
  | .assertion test message, h =>
    ⟨by decide, ⟨Expr.isClean_doc test h.1, trivial⟩, by decide,
      Expr.isClean_optionalDoc message h.2, trivial⟩
  | .importNames _, h => ⟨by decide, Alias.isClean_entries h, trivial⟩
  | .importFrom _ _ _, h => ⟨by decide, Alias.isClean_entries h.2, trivial⟩
  | .globalNames _, _ => trivial
  | .nonlocalNames _, _ => trivial
  | .expression value, h => ⟨by decide, ⟨Expr.isClean_doc value h, trivial⟩, trivial⟩
  | .pass, _ => trivial
  | .breakLoop, _ => trivial
  | .continueLoop, _ => trivial
  | .typeAlias name _ value, h =>
    ⟨by decide, ⟨Expr.isClean_doc name h.1, trivial⟩, by decide, TypeParam.isClean_entries h.2.1,
      by decide, ⟨Expr.isClean_doc value h.2.2, trivial⟩, trivial⟩
  | .blank _, _ => trivial

/-- The entries of legible statements are clean. -/
theorem Stmt.isClean_docs : ∀ ss : List Stmt, Stmt.LegibleAll numbers ss →
    Doc.EntriesClean (Stmt.docs ss)
  | [], _ => trivial
  | s :: rest, h => ⟨Stmt.isClean_doc s h.1, Stmt.isClean_docs rest h.2⟩

/-- The document of a legible case is clean. -/
theorem MatchCase.isClean_doc : ∀ c : MatchCase, c.Legible numbers → c.doc.IsClean
  | .mk span pattern guard body, h =>
    Doc.isClean_of_fields (Node.isLabel (.matchCase (.mk span pattern guard body)) h)
      ⟨by decide, ⟨Pattern.isClean_doc pattern h.1, trivial⟩, by decide,
        Expr.isClean_optionalDoc guard h.2.1, by decide, Stmt.isClean_docs body h.2.2, trivial⟩

/-- The entries of legible cases are clean. -/
theorem MatchCase.isClean_docs : ∀ cs : List MatchCase, MatchCase.LegibleAll numbers cs →
    Doc.EntriesClean (MatchCase.docs cs)
  | [], _ => trivial
  | c :: rest, h => ⟨MatchCase.isClean_doc c h.1, MatchCase.isClean_docs rest h.2⟩

/-- The document of a legible handler is clean. -/
theorem ExceptHandler.isClean_doc : ∀ handler : ExceptHandler, handler.Legible numbers →
    handler.doc.IsClean
  | .mk span type name body, h =>
    Doc.isClean_of_fields (Node.isLabel (.exceptHandler (.mk span type name body)) h)
      ⟨by decide, Expr.isClean_optionalDoc type h.1, by decide, Stmt.isClean_docs body h.2.2,
        trivial⟩

/-- The entries of legible handlers are clean. -/
theorem ExceptHandler.isClean_docs : ∀ handlers : List ExceptHandler,
    ExceptHandler.LegibleAll numbers handlers → Doc.EntriesClean (ExceptHandler.docs handlers)
  | [], _ => trivial
  | handler :: rest, h =>
    ⟨ExceptHandler.isClean_doc handler h.1, ExceptHandler.isClean_docs rest h.2⟩

end

/-! ## Nodes -/

/-- The document of a legible module is clean. -/
theorem Module.isClean_doc {m : Module} (h : m.Legible numbers) : m.doc.IsClean :=
  Doc.isClean_of_fields (Node.isLabel (.module m) h)
    ⟨by decide, Stmt.isClean_docs m.body h.1, by decide,
      Expr.isClean_optionalDoc m.expression h.2.1, by decide,
      Expr.isClean_docs m.argumentTypes h.2.2.1, by decide,
      Expr.isClean_optionalDoc m.returns h.2.2.2, trivial⟩

/-- The document of a legible node is clean. -/
theorem Node.isClean_doc {n : Node} (h : n.Legible numbers) : n.doc.IsClean := by
  cases n with
  | module m => exact Module.isClean_doc h
  | stmt s => exact Stmt.isClean_doc s h
  | expr e => exact Expr.isClean_doc e h
  | pattern p => exact Pattern.isClean_doc p h
  | parameters p => exact Parameters.isClean_doc p h
  | parameter p => exact Parameter.isClean_doc p h
  | keyword k => exact Keyword.isClean_doc k h
  | importAlias a => exact Alias.isClean_doc h
  | withItem item => exact WithItem.isClean_doc h
  | matchCase c => exact MatchCase.isClean_doc c h
  | exceptHandler handler => exact ExceptHandler.isClean_doc handler h
  | comprehension c => exact Comprehension.isClean_doc c h
  | typeParam p => exact TypeParam.isClean_doc h

end

end SyntaxTree
