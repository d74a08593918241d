import SyntaxTree.Proofs.Build.Statement
import SyntaxTree.Proofs.Grammar.Columns
import SyntaxTree.Proofs.Grammar.Whole
import SyntaxTree.Unicode.NameTable

/-
# What modules build

In every mode a source that can be read gives a well-formed tree: its nodes have the numbers of
parts that belong to them, contexts and targets agree, and what hangs below a node lies within its
span.
-/

namespace SyntaxTree

/-- The parts of a module hold, and its end is not known. -/
structure Module.IsBuilt (m : Module) : Prop where
  stop : m.span.stop = none
  links : Link.AllHold .load none (Node.module m).links

theorem Module.IsBuilt.wellFormed {m : Module} (h : m.IsBuilt) :
    (Node.module m).WellFormed none .load := by
  refine Node.Fits.wellFormed ⟨trivial, by simp, ?_⟩ (.inr ⟨?_, by simp⟩)
  · rw [Node.span, Span.room, h.stop]
    exact h.links
  · simp [h.stop]

namespace Parse.Builds

variable {known : Position → Prop} {pre : Token → Prop} {lo : Position}

theorem argumentType {read : Reading} (h : ReadingBuilds read) :
    BuildsExpr (Parse.argumentType read) := by
  intro known pre lo
  refine (accept .star).andThen fun b => ite (fun _ => (h .expression).builds) fun _ => ?_
  exact (accept .doubleStar).andThen fun _ => (h .expression).builds

variable [Unicode.CharacterNames]

theorem execModule : Builds known pre lo Parse.execModule fun _ m => m.IsBuilt := by
  refine field fun field hfield => reading fun read h => look Looks.limit fun limit => ?_
  refine (untilEnd (Looks.at? _) (statementsUpTo h hfield limit _ _ _)).bind fun body =>
    pure fun hi ⟨_, hbody⟩ => ⟨rfl, ?_⟩
  simpa [Module.empty] using fun s hs => (hbody s hs).widen (widens_none _)

theorem interactiveModule : Builds known pre lo Parse.interactiveModule fun _ m => m.IsBuilt :=
  execModule.bind fun _ => pure fun _ ⟨_, hm⟩ => ⟨hm.stop, hm.links⟩

theorem evalModule : Builds known pre lo Parse.evalModule fun _ m => m.IsBuilt := by
  refine onlyExpression.bind fun e => pure fun hi ⟨_, he⟩ => ⟨rfl, ?_⟩
  simpa [Module.empty] using he.within.widen (widens_none _)

theorem functionTypeModule :
    Builds known pre lo Parse.functionTypeModule fun _ m => m.IsBuilt := by
  refine reading fun read h => skipNewlines.andThen fun _ => (expect _ rfl).andThen fun _ => ?_
  refine (itemsUntil .closeParen (argumentType h).within).bind fun types => ?_
  refine (expect _ rfl).andThen fun _ => (expect _ rfl).andThen fun _ => ?_
  refine (h .expression).bind fun returns => skipNewlines.andThen fun _ => ifAt .endOfInput ?_
    (failHere _)
  refine pure fun hi ⟨⟨_, htypes⟩, hreturns⟩ => ⟨rfl, ?_⟩
  suffices hexprs : ∀ e ∈ types ++ [returns], (Node.expr e).WellFormed none .load by
    simpa [Module.empty] using hexprs
  exact forall_mem_concat (fun e he => (htypes e he).widen (widens_none _))
    (hreturns.within.widen (widens_none _))

theorem moduleIn :
    ∀ mode : Mode, Builds known pre lo (Parse.moduleIn mode) fun _ m => m.IsBuilt
  | .exec => execModule
  | .interactive => interactiveModule
  | .eval => evalModule
  | .functionType => functionTypeModule

end Parse.Builds

/-- The tree of a source is well formed. -/
theorem Module.wellFormed_of_ofSource [Unicode.CharacterNames] {mode : Mode} {source : Bytes}
    {m : Module} (h : Module.ofSource mode source = .ok m) :
    (Node.module m).WellFormed none .load := by
  rw [Module.ofSource, Parse.ofSource] at h
  cases htokens : tokenize false source with
  | error error =>
    rw [htokens] at h
    cases h
  | ok tokens =>
    rw [htokens] at h
    obtain ⟨hsound, ts, final, rfl, hfinal⟩ := areSound_of_tokenize htokens
    obtain ⟨c, hrun⟩ := Parse.ofTokens_eq_ok.mp h
    exact ((Parse.Builds.moduleIn mode).run_ofTokens hsound hfinal (by decide) hrun).wellFormed

/-! ## Arity -/

/-- In the tree of a source every target has the shape of one, and what has a context is stored to
or deleted exactly if a target decides how it is used. -/
theorem Module.context_iff_of_reaches [Unicode.CharacterNames] {mode : Mode} {source : Bytes}
    {m : Module} (h : Module.ofSource mode source = .ok m) {path : List Link} {n : Node}
    (hn : (Node.module m).Reaches path n) :
    (∀ l ∈ n.links, l.1.Allows l.2) ∧ ∀ context, n.context? = some context →
      (context = .store ↔ Link.target.Governs path ∨ Link.place.Governs path) ∧
        (context = .delete ↔ Link.deleted.Governs path) := by
  obtain ⟨room, hwell⟩ := (Module.wellFormed_of_ofSource h).exists_of_reaches hn
  refine ⟨hwell.allows, fun context hcontext => ?_⟩
  rw [hwell.context_eq context hcontext]
  exact ⟨Link.foldl_context_eq_store_iff path, Link.foldl_context_eq_delete_iff path⟩

open scoped Unicode.NameTable in
/-- What stands behind the star of an element is assigned to because the tuple is. -/
theorem Module.context_iff_of_reaches_starred :
    ∃ m n, Module.ofSource .exec (text "x[i], *y = z\n") = .ok m ∧
      (Node.module m).Reaches [.part, .target, .element, .element] n ∧
      n.context? = some .store ∧
      (Link.target.Governs [.part, .target, .element, .element] ∨
        Link.place.Governs [.part, .target, .element, .element]) := by
  obtain ⟨m, hm, hfound⟩ := exists_of_map_eq_ok
    (f := fun m : Module => m.body.any fun s => (Node.stmt s).links.any fun tuple =>
      tuple.1 == .target && tuple.2.links.any fun star =>
        star.1 == .element && star.2.links.any fun name =>
          name.1 == .element && name.2.context? == some .store)
    (show (Module.ofSource .exec (text "x[i], *y = z\n")).map _ = .ok true by decide +kernel)
  simp only [List.any_eq_true, Bool.and_eq_true, beq_iff_eq] at hfound
  obtain ⟨s, hs, ⟨_, tuple⟩, htuple, rfl, ⟨_, star⟩, hstar, rfl, ⟨_, name⟩, hname, rfl, hcontext⟩ :=
    hfound
  have hstmt : (Node.module m).Reaches [.part] (.stmt s) := .step .here (by simp [Link.each, hs])
  have hreaches : (Node.module m).Reaches [.part, .target, .element, .element] name :=
    .step (.step (.step hstmt htuple) hstar) hname
  exact ⟨m, name, hm, hreaches, hcontext,
    ((Module.context_iff_of_reaches hm hreaches).2 _ hcontext).1.mp rfl⟩

/-! ## Places -/

/-- In the tree of a source a node does not end before it begins, and what hangs below it, not by a
decorator, lies within its span if its place is known. -/
theorem Module.span_within_of_reaches [Unicode.CharacterNames] {mode : Mode} {source : Bytes}
    {m : Module} (h : Module.ofSource mode source = .ok m) {path : List Link} {n : Node}
    (hn : (Node.module m).Reaches path n) {stop : Position} (hstop : n.span.stop = some stop) :
    n.span.start ≤ stop ∧ ∀ below d, n.Reaches below d → Link.decorator ∉ below →
      1 ≤ d.span.start.line → n.span.start ≤ d.span.start ∧ ∀ s ∈ d.span.stop, s ≤ stop := by
  obtain ⟨room, hwell⟩ := (Module.wellFormed_of_ofSource h).exists_of_reaches hn
  have hwithin := hwell.within_span hstop
  have hplaced {d : Node} {role : Context} (hd : d.WellFormed (some ⟨n.span.start, stop⟩) role)
      (hline : 1 ≤ d.span.start.line) : d.span.IsIn (some ⟨n.span.start, stop⟩) :=
    hd.span_isIn.resolve_left fun hnone => absurd hline (by rw [hnone]; decide)
  refine ⟨?_, fun below d hd hbelow hline => (hplaced (hwithin.of_reaches hd hbelow) hline).2 _ rfl⟩
  rcases hwell.span_isIn with hnone | hin
  · rw [hnone] at hstop
    cases hstop
  · exact hin.1 stop hstop

open scoped Unicode.NameTable in
/-- A call in two lines. -/
theorem Module.span_within_of_reaches_call :
    ∃ m e, Module.ofSource .eval (text "f(\n  x)\n") = .ok m ∧
      (Node.module m).Reaches [.part] (.expr e) ∧ e.span = ⟨⟨1, 1⟩, some ⟨2, 5⟩⟩ ∧
      ∀ below d, (Node.expr e).Reaches below d → Link.decorator ∉ below → 1 ≤ d.span.start.line →
        ⟨1, 1⟩ ≤ d.span.start ∧ ∀ s ∈ d.span.stop, s ≤ ⟨2, 5⟩ := by
  obtain ⟨m, hm, hspan⟩ := exists_of_map_eq_ok
    (f := fun m : Module => m.expression.map Expr.span)
    (show (Module.ofSource .eval (text "f(\n  x)\n")).map _ = .ok (some ⟨⟨1, 1⟩, some ⟨2, 5⟩⟩) by
      decide +kernel)
  obtain ⟨e, hexpression, hspan⟩ := Option.map_eq_some_iff.mp hspan
  have hreaches : (Node.module m).Reaches [.part] (.expr e) :=
    .step .here (by simp [Link.each, hexpression])
  have hstart : (Node.expr e).span.start = ⟨1, 1⟩ := by rw [Node.span, hspan]
  have hstop : (Node.expr e).span.stop = some ⟨2, 5⟩ := by rw [Node.span, hspan]
  refine ⟨m, e, hm, hreaches, hspan, ?_⟩
  rw [← hstart]
  exact (Module.span_within_of_reaches hm hreaches hstop).2

end SyntaxTree
