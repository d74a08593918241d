import Mathlib.Data.List.Perm.Basic
import SyntaxTree.Proofs.Dump.Node
import SyntaxTree.Proofs.Tree.Walk

/-
# The nodes of a dump

A dump has three sorts of lines: the labels of nodes, the names of fields and the dashes of absent
entries.  The lines with labels are those of the nodes that a walk of the tree meets, each once and
at its depth, though the fields of a node may stand in another order than its children.
-/

namespace SyntaxTree

/-! ## Lines of nodes -/

/-- A line that is neither the name of a field nor the dash of an absent entry: nodes and fields
alternate with the depth. -/
def DumpLine.IsNode (line : DumpLine) : Prop := line.depth % 2 = 0 ∧ line.content ≠ text "-"

instance : DecidablePred DumpLine.IsNode :=
  fun _ => inferInstanceAs (Decidable (_ ∧ _))

namespace Doc

/-- The documents among entries. -/
def presentAll (entries : List Entry) : List Doc :=
  entries.filterMap fun
    | .absent => none
    | .present doc => some doc

@[simp]
theorem presentAll_nil : presentAll [] = [] := rfl

@[simp]
theorem presentAll_absent (entries : List Entry) :
    presentAll (.absent :: entries) = presentAll entries := rfl

@[simp]
theorem presentAll_present (doc : Doc) (entries : List Entry) :
    presentAll (.present doc :: entries) = doc :: presentAll entries := rfl

/-- The documents in the fields of a document. -/
def parts (doc : Doc) : List Doc :=
  doc.fields.flatMap fun
    | .mk _ entries => presentAll entries

/-- The lines of nodes among those of entries. -/
theorem filter_entryLines (d : Nat) (entries : List Entry) :
    (entryLines (2 * d) entries).filter (DumpLine.IsNode ·) =
      (presentAll entries).flatMap fun p => (p.lines (2 * d)).filter (DumpLine.IsNode ·) := by
  induction entries with
  | nil => rfl
  | cons entry rest ih =>
    cases entry with
    | absent =>
      rw [entryLines, presentAll_absent, ← ih]
      exact List.filter_cons_of_neg (by simp [DumpLine.IsNode])
    | present doc => rw [entryLines, presentAll_present, List.filter_append, List.flatMap_cons, ih]

/-- The lines of nodes among those of fields. -/
theorem filter_fieldLines (d : Nat) (fields : List Field) :
    (fieldLines (2 * d + 1) fields).filter (DumpLine.IsNode ·) =
      (Doc.node [] fields).parts.flatMap fun p =>
        (p.lines (2 * (d + 1))).filter (DumpLine.IsNode ·) := by
  induction fields with
  | nil => rfl
  | cons field rest ih =>
    obtain ⟨name, entries⟩ := field
    have hname : ¬ DumpLine.IsNode ⟨2 * d + 1, name ++ text ":"⟩ := by
      rintro ⟨heven, -⟩
      exact absurd heven (by simp)
    rw [fieldLines, List.filter_append, ih]
    change List.filter _ (if entryLines (2 * (d + 1)) entries = [] then _ else _) ++ _ =
      List.flatMap _ (presentAll entries ++ _)
    rw [List.flatMap_append, ← filter_entryLines (d + 1) entries]
    congr 1
    by_cases hempty : entryLines (2 * (d + 1)) entries = []
    · rw [if_pos hempty, hempty]
    · rw [if_neg hempty]
      exact List.filter_cons_of_neg (by simpa using hname)

/-- The lines of nodes among those of a document: its label, then those of its parts. -/
theorem filter_lines (d : Nat) {doc : Doc} (h : doc.label ≠ text "-") :
    (doc.lines (2 * d)).filter (DumpLine.IsNode ·) =
      ⟨2 * d, doc.label⟩ :: doc.parts.flatMap fun p =>
        (p.lines (2 * (d + 1))).filter (DumpLine.IsNode ·) := by
  obtain ⟨label, fields⟩ := doc
  rw [lines, List.filter_cons_of_pos, filter_fieldLines]
  · rfl
  · rw [decide_eq_true_iff]
    exact ⟨Nat.mul_mod_right 2 d, h⟩

end Doc

/-! ## Lines of fields -/

/-- A line of a node, the name of a field or the dash of an absent entry. -/
def DumpLine.HasSort (line : DumpLine) : Prop :=
  line.IsNode ∨ line.content = text "-" ∨ ∃ name, line.content = name ++ text ":"

namespace Doc

mutual

theorem hasSort_of_mem_lines (d : Nat) : ∀ doc : Doc, ∀ line ∈ doc.lines (2 * d), line.HasSort
  | .node label fields => by
    rw [lines, List.forall_mem_cons]
    refine ⟨?_, hasSort_of_mem_fieldLines d fields⟩
    by_cases hdash : label = text "-"
    · exact .inr (.inl hdash)
    · exact .inl ⟨Nat.mul_mod_right 2 d, hdash⟩

theorem hasSort_of_mem_fieldLines (d : Nat) : ∀ fields : List Field,
    ∀ line ∈ fieldLines (2 * d + 1) fields, line.HasSort
  | [] => List.forall_mem_nil _
  | .mk name entries :: fields => by
    have hentries := hasSort_of_mem_entryLines (d + 1) entries
    rw [fieldLines, List.forall_mem_append]
    refine ⟨?_, hasSort_of_mem_fieldLines d fields⟩
    change ∀ line ∈ if entryLines (2 * (d + 1)) entries = [] then [] else _, _
    split
    · exact List.forall_mem_nil _
    · exact List.forall_mem_cons.mpr ⟨.inr (.inr ⟨name, rfl⟩), hentries⟩

theorem hasSort_of_mem_entryLines (d : Nat) : ∀ entries : List Entry,
    ∀ line ∈ entryLines (2 * d) entries, line.HasSort
  | [] => List.forall_mem_nil _
  | .absent :: entries => by
    rw [entryLines, List.forall_mem_cons]
    exact ⟨.inr (.inl rfl), hasSort_of_mem_entryLines d entries⟩
  | .present doc :: entries => by
    rw [entryLines, List.forall_mem_append]
    exact ⟨hasSort_of_mem_lines d doc, hasSort_of_mem_entryLines d entries⟩

end

end Doc

/-! ## Documents of lists -/

/-- Entries that go through a list item by item are the documents of the items. -/
theorem Doc.presentAll_eq_map {α : Type} {docs : List α → List Doc.Entry} {doc : α → Doc}
    (hnil : docs [] = []) (hcons : ∀ a l, docs (a :: l) = .present (doc a) :: docs l)
    (l : List α) : Doc.presentAll (docs l) = l.map doc := by
  induction l with
  | nil => rw [hnil, Doc.presentAll_nil, List.map_nil]
  | cons a l ih => rw [hcons, Doc.presentAll_present, ih, List.map_cons]

@[simp]
theorem Doc.presentAll_map {α : Type} (doc : α → Doc) (items : List α) :
    Doc.presentAll (items.map fun item => .present (doc item)) = items.map doc :=
  Doc.presentAll_eq_map rfl (fun _ _ => rfl) items

@[simp]
theorem Expr.presentAll_docs (es : List Expr) : Doc.presentAll (Expr.docs es) = es.map Expr.doc :=
  Doc.presentAll_eq_map rfl (fun _ _ => rfl) es

@[simp]
theorem Expr.presentAll_optionalDoc (e : Option Expr) :
    Doc.presentAll (Expr.optionalDoc e) = e.toList.map Expr.doc := by
  cases e <;> rfl

@[simp]
theorem Comparison.presentAll_docs (rest : List Comparison) :
    Doc.presentAll (Comparison.docs rest) = rest.map (·.operand.doc) :=
  Doc.presentAll_eq_map rfl (fun | .mk _ _, _ => rfl) rest

@[simp]
theorem Comprehension.presentAll_docs (clauses : List Comprehension) :
    Doc.presentAll (Comprehension.docs clauses) = clauses.map Comprehension.doc :=
  Doc.presentAll_eq_map rfl (fun _ _ => rfl) clauses

@[simp]
theorem Keyword.presentAll_docs (ks : List Keyword) :
    Doc.presentAll (Keyword.docs ks) = ks.map Keyword.doc :=
  Doc.presentAll_eq_map rfl (fun _ _ => rfl) ks

@[simp]
theorem FormatSpec.presentAll_optionalDoc (spec : Option FormatSpec) :
    Doc.presentAll (FormatSpec.optionalDoc spec) = spec.toList.map (·.expr.doc) := by
  rcases spec with _ | ⟨span, values⟩ <;> rfl

@[simp]
theorem Parameter.presentAll_docs (ps : List Parameter) :
    Doc.presentAll (Parameter.docs ps) = ps.map Parameter.doc :=
  Doc.presentAll_eq_map rfl (fun _ _ => rfl) ps

@[simp]
theorem Parameter.presentAll_optionalDoc (p : Option Parameter) :
    Doc.presentAll (Parameter.optionalDoc p) = p.toList.map Parameter.doc := by
  cases p <;> rfl

@[simp]
theorem KeywordOnly.presentAll_docs (ks : List KeywordOnly) :
    Doc.presentAll (KeywordOnly.docs ks) = ks.map (·.parameter.doc) :=
  Doc.presentAll_eq_map rfl (fun | .mk _ _, _ => rfl) ks

@[simp]
theorem KeywordOnly.presentAll_defaultDocs (ks : List KeywordOnly) :
    Doc.presentAll (KeywordOnly.defaultDocs ks) =
      (ks.filterMap KeywordOnly.default).map Expr.doc := by
  induction ks with
  | nil => rfl
  | cons k rest ih =>
    obtain ⟨parameter, _ | default⟩ := k <;>
      simp [KeywordOnly.defaultDocs, List.filterMap_cons, ih]

@[simp]
theorem Pattern.presentAll_docs (ps : List Pattern) :
    Doc.presentAll (Pattern.docs ps) = ps.map Pattern.doc :=
  Doc.presentAll_eq_map rfl (fun _ _ => rfl) ps

@[simp]
theorem Pattern.presentAll_optionalDoc (p : Option Pattern) :
    Doc.presentAll (Pattern.optionalDoc p) = p.toList.map Pattern.doc := by
  cases p <;> rfl

@[simp]
theorem Pattern.presentAll_attributeDocs (attributes : List (Bytes × Pattern)) :
    Doc.presentAll (Pattern.attributeDocs attributes) = attributes.map (·.2.doc) :=
  Doc.presentAll_eq_map rfl (fun _ _ => rfl) attributes

@[simp]
theorem Pattern.presentAll_valueDocs (entries : List (Expr × Pattern)) :
    Doc.presentAll (Pattern.valueDocs entries) = entries.map (·.2.doc) :=
  Doc.presentAll_eq_map rfl (fun _ _ => rfl) entries

@[simp]
theorem Stmt.presentAll_docs (ss : List Stmt) : Doc.presentAll (Stmt.docs ss) = ss.map Stmt.doc :=
  Doc.presentAll_eq_map rfl (fun _ _ => rfl) ss

@[simp]
theorem MatchCase.presentAll_docs (cases : List MatchCase) :
    Doc.presentAll (MatchCase.docs cases) = cases.map MatchCase.doc :=
  Doc.presentAll_eq_map rfl (fun _ _ => rfl) cases

@[simp]
theorem ExceptHandler.presentAll_docs (handlers : List ExceptHandler) :
    Doc.presentAll (ExceptHandler.docs handlers) = handlers.map ExceptHandler.doc :=
  Doc.presentAll_eq_map rfl (fun _ _ => rfl) handlers

/-! ## Parts and children -/

/-- The keys and the values of a dict are those at the ends of the links of its items. -/
theorem DictItem.perm_docs (items : List DictItem) :
    (Doc.presentAll (DictItem.keyDocs items) ++ Doc.presentAll (DictItem.valueDocs items)).Perm
      ((items.flatMap DictItem.links).map (·.2.doc)) := by
  induction items with
  | nil => exact .refl _
  | cons item rest ih =>
    cases item with
    | entry key value =>
      exact (List.perm_middle.trans (ih.cons value.doc)).cons key.doc
    | unpack value => exact List.perm_middle.trans (ih.cons value.doc)

/-- The defaults of parameters that are given by keyword only stand in front of the variadic ones
and of the other defaults. -/
theorem perm_defaults {α : Type} (front defaults back more : List α) :
    (front ++ (defaults ++ (back ++ more))).Perm (front ++ (back ++ (more ++ defaults))) := by
  rw [← List.append_assoc back]
  exact List.perm_append_comm.append_left front

/-- The parts of the document of a node are the documents of its children. -/
theorem Node.perm_parts (n : Node) : n.doc.parts.Perm (n.children.map Node.doc) := by
  cases n with
  | stmt s =>
    obtain ⟨span, shape⟩ := s
    cases shape <;>
      simp [Node.doc, children, Stmt.doc, Stmt.Shape.doc, Function.comp_def, Doc.entries,
        Doc.leaf, Doc.parts, Doc.fields, Doc.Field.named]
  | expr e =>
    obtain ⟨span, shape⟩ := e
    cases shape with
    -- The dump shows the test first, the walk the body.
    | conditional test body orelse => exact List.Perm.swap body.doc test.doc [orelse.doc]
    | dict items =>
      rw [Node.children, Node.links, Expr.Shape.links, List.map_map]
      simpa [Node.doc, Expr.doc, Expr.Shape.doc, Doc.parts, Doc.fields, Doc.Field.named,
        Function.comp_def] using DictItem.perm_docs items
    | _ =>
      simp [Node.doc, children, Expr.doc, Expr.Shape.doc, Function.comp_def, Doc.leaf, Doc.parts,
        Doc.fields, Doc.Field.named]
  | pattern p =>
    obtain ⟨span, shape⟩ := p
    cases shape with
    -- The dump shows keys and patterns in two lists, the walk entry by entry.
    | mapping entries rest =>
      have hperm := entries.map_append_flatMap_perm (·.1.doc) fun entry => [entry.2.doc]
      rw [← List.map_eq_flatMap] at hperm
      simpa [Node.doc, children, Pattern.doc, Pattern.Shape.doc, Doc.parts, Doc.fields,
        Doc.Field.named, Function.comp_def, List.map_flatMap] using hperm
    | _ =>
      simp [Node.doc, children, Pattern.doc, Pattern.Shape.doc, Function.comp_def, Doc.leaf,
        Doc.parts, Doc.fields, Doc.Field.named]
  | parameters p =>
    obtain ⟨positionalOnly, positional, variadic, keywordOnly, variadicKeyword, defaults⟩ := p
    simpa [Node.doc, children, Parameters.doc, Function.comp_def, Doc.parts, Doc.fields,
      Doc.Field.named] using
      perm_defaults
        ((positionalOnly ++ positional ++ variadic.toList).map Parameter.doc ++
          keywordOnly.map (·.parameter.doc))
        ((keywordOnly.filterMap KeywordOnly.default).map Expr.doc)
        (variadicKeyword.toList.map Parameter.doc) (defaults.map Expr.doc)
  | module m =>
    simp [Node.doc, children, Module.doc, Function.comp_def, Doc.parts, Doc.fields,
      Doc.Field.named]
  | parameter p =>
    cases p
    simp [Node.doc, children, Parameter.doc, Function.comp_def, Doc.parts, Doc.fields,
      Doc.Field.named]
  | keyword k => cases k; exact .refl _
  | importAlias a => exact .refl _
  | withItem item =>
    simp [Node.doc, children, WithItem.doc, Function.comp_def, Doc.parts, Doc.fields,
      Doc.Field.named]
  | matchCase c =>
    cases c
    simp [Node.doc, children, MatchCase.doc, Function.comp_def, Doc.parts, Doc.fields,
      Doc.Field.named]
  | exceptHandler handler =>
    cases handler
    simp [Node.doc, children, ExceptHandler.doc, Function.comp_def, Doc.parts, Doc.fields,
      Doc.Field.named]
  | comprehension c =>
    cases c
    simp [Node.doc, children, Comprehension.doc, Function.comp_def, Doc.parts, Doc.fields,
      Doc.Field.named]
  | typeParam p =>
    simp [Node.doc, children, TypeParam.doc, Function.comp_def, Doc.parts, Doc.fields,
      Doc.Field.named]

/-! ## The nodes of a dump -/

/-- The label of a node is no dash. -/
theorem Node.label_ne_dash (n : Node) : n.doc.label ≠ text "-" := by
  intro h
  have hkind := n.ofLabel?_label
  rw [h, NodeKind.ofLabel?_eq_none.1] at hkind
  cases hkind

/-- The line of a node that a walk meets. -/
def Node.line (v : Nat × Node) : DumpLine := ⟨2 * v.1, v.2.doc.label⟩

/-- The lines of nodes in a document are the lines of the nodes of the walk, in some order. -/
theorem Node.perm_lines (n : Node) : ∀ depth : Nat,
    ((n.doc.lines (2 * depth)).filter (DumpLine.IsNode ·)).Perm ((n.walk depth).map Node.line) := by
  induction n using Node.induction_children with
  | h n ih =>
    intro depth
    rw [Doc.filter_lines depth n.label_ne_dash, Node.walk_eq, List.map_cons, List.map_flatMap]
    have hparts : (n.doc.parts.flatMap fun p =>
        (p.lines (2 * (depth + 1))).filter (DumpLine.IsNode ·)).Perm
        (n.children.flatMap fun c =>
          (c.doc.lines (2 * (depth + 1))).filter (DumpLine.IsNode ·)) := by
      have hperm := n.perm_parts.flatMap_right fun p : Doc =>
        (p.lines (2 * (depth + 1))).filter (DumpLine.IsNode ·)
      rwa [List.flatMap_map] at hperm
    have hchildren : (n.children.flatMap fun c =>
        (c.doc.lines (2 * (depth + 1))).filter (DumpLine.IsNode ·)).Perm
        (n.children.flatMap fun c => (c.walk (depth + 1)).map Node.line) :=
      List.Perm.flatMap_left _ fun c hc => ih c hc (depth + 1)
    exact (hparts.trans hchildren).cons _

/-- A dump consists of lines.  Apart from the names of fields and the dashes of absent entries, they
show the nodes that a walk meets, each once, four spaces further in for each step from the root.  A
walk meets what the links of nodes lead to, as far from the root as there are links on the way.  The
outline visits the same nodes, and its geometry is their number and their greatest depth.

A node holds a key and its value, a name and its pattern, or a parameter and its default as one
pair, so two lists of them never differ in length. -/
theorem Node.dump_shows_walk (n : Node) :
    n.dump = (n.doc.lines 0).flatMap DumpLine.render ∧
    (∃ printed : List (Nat × Node), printed.Perm (n.walk 0) ∧
      ((n.doc.lines 0).filter (DumpLine.IsNode ·)).map DumpLine.render =
        printed.map fun v => Bytes.spaces (4 * v.1) ++ v.2.doc.label ++ text "\n") ∧
    (∀ line ∈ n.doc.lines 0, ¬ line.IsNode →
      line.content = text "-" ∨ ∃ name, line.content = name ++ text ":") ∧
    (∀ d m, (d, m) ∈ n.walk 0 ↔ ∃ path, path.length = d ∧ n.Reaches path m) ∧
    n.outline.visits 0 = (n.walk 0).map (fun v => ⟨v.1, v.2.kind, v.2.span⟩) ∧
    n.outline.geometry.nodes = (n.walk 0).length ∧
    IsGreatest {d | ∃ m, (d, m) ∈ n.walk 0} n.outline.geometry.maxDepth := by
  refine ⟨rfl, ?_, ?_, fun _ _ => mem_walk_iff, n.visits_outline 0, n.size_outline 0, ?_⟩
  · obtain ⟨printed, hlines, hperm⟩ :=
      (congrFun (congrFun (List.eq_map_comp_perm Node.line) _) _).mpr (n.perm_lines 0)
    refine ⟨printed, hperm, ?_⟩
    rw [hlines, List.map_map]
    refine List.map_congr_left fun v _ => ?_
    change Bytes.spaces (2 * (2 * v.1)) ++ v.2.doc.label ++ text "\n" = _
    rw [← Nat.mul_assoc]
  · intro line hline hnode
    exact (Doc.hasSort_of_mem_lines 0 n.doc line hline).resolve_left hnode
  · have hgreatest := n.isGreatest_height 0
    rwa [Nat.zero_add] at hgreatest

end SyntaxTree
