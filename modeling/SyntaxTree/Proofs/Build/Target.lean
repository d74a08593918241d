import SyntaxTree.Proofs.Build.Node

/-
# Targets

An expression without a fault has the shape of a target.  A target that has been read as a value
becomes one that is assigned to or deleted by its context, which reaches the elements of a tuple or
list and what stands behind a star, and nothing else.
-/

namespace SyntaxTree

/-! ## Shapes of targets -/

theorem Expr.IsTarget.of_whole {deleted element : Bool} {e : Expr} (h : e.IsTarget deleted false) :
    e.IsTarget deleted element := by
  cases h with
  | place h => exact .place h
  | tuple h => exact .tuple h
  | list h => exact .list h

mutual

theorem Expr.isTarget_of_targetFault? {deleted : Bool} :
    ∀ e : Expr, e.targetFault? deleted = none → e.IsTarget deleted false
  | .node _ shape, h => by
    cases shape with
    | tuple elements _ =>
      rw [Expr.targetFault?] at h
      exact .tuple (isTarget_of_elementsFault? elements h)
    | list elements _ =>
      rw [Expr.targetFault?] at h
      exact .list (isTarget_of_elementsFault? elements h)
    | _ =>
      first
      | exact .place rfl
      | simp [Expr.targetFault?] at h

theorem isTarget_of_elementsFault? {deleted : Bool} :
    ∀ es : List Expr, elementsFault? deleted es = none → ∀ e ∈ es, e.IsTarget deleted true
  | [], _ => List.forall_mem_nil _
  | .node span shape :: rest, h => by
    have hwhole (h : (Expr.node span shape).targetFault? deleted = none) :=
      Expr.isTarget_of_targetFault? _ h
    cases shape with
    | starred value context =>
      simp only [elementsFault?, Option.orElse_eq_orElse, Option.orElse_eq_or,
        Option.or_eq_none_iff] at h
      obtain ⟨hfault, hrest⟩ := h
      refine List.forall_mem_cons.mpr ⟨?_, isTarget_of_elementsFault? rest hrest⟩
      cases deleted with
      | true => cases hfault
      | false => exact .starred rfl (Expr.isTarget_of_targetFault? value hfault)
    | _ =>
      simp only [elementsFault?, Option.orElse_eq_orElse, Option.orElse_eq_or,
        Option.or_eq_none_iff] at h
      exact List.forall_mem_cons.mpr
        ⟨(hwhole h.1).of_whole, isTarget_of_elementsFault? rest h.2⟩

end

/-! ## Contexts of targets -/

namespace Expr

@[simp]
theorem span_withContext (context : Context) (e : Expr) :
    (e.withContext context).span = e.span := by
  obtain ⟨span, shape⟩ := e
  cases shape <;> rfl

@[simp]
theorem isPlace_withContext (context : Context) (e : Expr) :
    (e.withContext context).isPlace = e.isPlace := by
  obtain ⟨span, shape⟩ := e
  cases shape <;> rfl

theorem elementsWithContext_eq_map (context : Context) (es : List Expr) :
    elementsWithContext context es = es.map (withContext context) := by
  induction es with
  | nil => rfl
  | cons e es ih => rw [elementsWithContext, ih, List.map_cons]

end Expr

namespace Expr.IsTarget

variable {deleted element : Bool} {e : Expr}

/-- A target in another context is a target. -/
theorem withContext (h : e.IsTarget deleted element) (context : Context) :
    (e.withContext context).IsTarget deleted element := by
  induction h with
  | place h => exact .place (by simpa using h)
  | tuple h ih =>
    rw [Expr.withContext, elementsWithContext_eq_map]
    exact .tuple (List.forall_mem_map.mpr ih)
  | list h ih =>
    rw [Expr.withContext, elementsWithContext_eq_map]
    exact .list (List.forall_mem_map.mpr ih)
  | starred hdeleted h ih => exact .starred hdeleted ih

/-- A target that is well formed as a value is so in another context, which is its role. -/
theorem wellFormed (h : e.IsTarget deleted element) {room : Option Stretch}
    (hwell : (Node.expr e).WellFormed room .load) (context : Context) :
    (Node.expr (e.withContext context)).WellFormed room context := by
  have hspan (e : Expr) : (Node.expr (e.withContext context)).span = (Node.expr e).span := by simp
  -- A part keeps its own room; only the elements share the role, and they are targets themselves.
  induction h generalizing room with
  | @place _ e h =>
    refine Node.Fits.wellFormed ?_ (hspan e ▸ hwell.span_isIn)
    rw [hspan]
    have hfits := hwell.fits
    obtain ⟨span, shape⟩ := e
    cases shape with
    | name => simp [Expr.withContext]
    | _ =>
      first
      | exact absurd h Bool.false_ne_true
      | simpa [Expr.withContext] using hfits.2.2
  | @tuple _ span elements _ h ih | @list _ span elements _ h ih =>
    refine Node.Fits.wellFormed ?_ (hspan _ ▸ hwell.span_isIn)
    rw [hspan]
    have hfits := hwell.fits
    simp only [Expr.withContext, elementsWithContext_eq_map]
    simpa using fun e he => ih e he (by simpa using hfits.2.2 _ (List.mem_map_of_mem he))
  | @starred span value _ hdeleted h ih =>
    refine Node.Fits.wellFormed ?_ (hspan _ ▸ hwell.span_isIn)
    rw [hspan]
    have hfits := hwell.fits
    simpa [Expr.withContext] using ih (by simpa using hfits.2.2)

end Expr.IsTarget

theorem Node.Stands.withContext {deleted element : Bool} {lo hi : Position} {e : Expr}
    (h : e.Stands .load lo hi) (htarget : e.IsTarget deleted element) (context : Context) :
    (e.withContext context).Stands context lo hi :=
  ⟨htarget.wellFormed h.within context, by
    have hends := h.ends
    rw [Node.span] at hends ⊢
    rwa [Expr.span_withContext]⟩

end SyntaxTree
