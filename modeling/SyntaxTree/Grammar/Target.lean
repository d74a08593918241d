import SyntaxTree.Grammar.Cursor

/-
# Targets

What can be assigned to or deleted: names, attributes and subscripts, and lists and tuples of
targets.  Reading an expression leaves every context at `load`; a target gets its own afterwards.
-/

namespace SyntaxTree

/-- What a constant is called. -/
def Constant.nature : Constant → Nature
  | none => .none
  | boolean value => if value then .true else .false
  | ellipsis => .ellipsis
  | _ => .literal

/-- What an expression is called. -/
def Expr.nature (e : Expr) : Nature :=
  match e.shape with
  | .constant value => value.nature
  | .call .. => .call
  | .compare .. => .comparison
  | .lambda .. => .lambda
  | .conditional .. => .conditional
  | .named .. => .named
  | .await .. => .await
  | .yield .. | .yieldFrom .. => .yield
  | .fstring .. | .field .. => .fstring
  | .dict .. => .dict
  | .set .. => .set
  | .list .. => .list
  | .tuple .. => .tuple
  | .listComp .. => .listComp
  | .setComp .. => .setComp
  | .dictComp .. => .dictComp
  | .generator .. => .generator
  | .starred .. => .starred
  | .slice .. => .slice
  | _ => .other

/-- Whether an expression is a name, an attribute or a subscript. -/
def Expr.isPlace (e : Expr) : Bool :=
  match e.shape with
  | .name .. | .attribute .. | .subscript .. => true
  | _ => false

/-! ## Faults of targets -/

/-- The fault of an expression that is no target at all. -/
def Expr.lonelyFault (deleted : Bool) (e : Expr) : SyntaxCause :=
  if deleted then .cannotDelete e.nature
  else if e.isStarred then .lonelyStarredTarget
  else .cannotAssign e.nature

mutual

/-- The first fault of a target, with its place; `deleted` says that it is not assigned to. -/
def Expr.targetFault? (deleted : Bool) : Expr → Option (SyntaxCause × Span)
  | .node _ (.name ..) | .node _ (.attribute ..) | .node _ (.subscript ..) => none
  | .node _ (.tuple elements _) | .node _ (.list elements _) => elementsFault? deleted elements
  | .node span shape => some (Expr.lonelyFault deleted (.node span shape), span)

/-- The first fault of the elements of a target; a star is allowed unless they are deleted. -/
def elementsFault? (deleted : Bool) : List Expr → Option (SyntaxCause × Span)
  | [] => none
  | .node span (.starred value context) :: rest =>
    let fault :=
      if deleted then
        some (Expr.lonelyFault deleted (.node span (.starred value context)), span)
      else value.targetFault? deleted
    fault <|> elementsFault? deleted rest
  | element :: rest => element.targetFault? deleted <|> elementsFault? deleted rest

end

/-! ## Contexts -/

mutual

/-- The expression in another context, which a tuple, a list and a star pass on. -/
def Expr.withContext (context : Context) : Expr → Expr
  | .node span (.name id _) => .node span (.name id context)
  | .node span (.attribute value name _) => .node span (.attribute value name context)
  | .node span (.subscript value index _) => .node span (.subscript value index context)
  | .node span (.starred value _) => .node span (.starred (value.withContext context) context)
  | .node span (.tuple elements _) =>
    .node span (.tuple (elementsWithContext context elements) context)
  | .node span (.list elements _) =>
    .node span (.list (elementsWithContext context elements) context)
  | .node span shape => .node span shape

/-- The expressions in another context. -/
def elementsWithContext (context : Context) : List Expr → List Expr
  | [] => []
  | element :: rest => element.withContext context :: elementsWithContext context rest

end

/-! ## Checked targets -/

namespace Parse

/-- The target of an assignment or a loop. -/
def storeTarget (e : Expr) : Parse Expr := do
  match e.targetFault? false with
  | some (cause, span) => failAtSpan cause span
  | none => return e.withContext .store

/-- A target that is deleted. -/
def deleteTarget (e : Expr) : Parse Expr := do
  match e.targetFault? true with
  | some (cause, span) => failAtSpan cause span
  | none => return e.withContext .delete

/-- The target of an augmented assignment. -/
def augmentedTarget (e : Expr) : Parse Expr := do
  if e.isPlace then return e.withContext .store
  else failAtSpan (.cannotAugment e.nature) e.span

/-- The target of an annotation. -/
def annotatedTarget (e : Expr) : Parse Expr := do
  if e.isPlace then return e.withContext .store
  else failAtSpan (.cannotAnnotate e.nature) e.span

/-- A value that must not be starred. -/
def plainValue (e : Expr) : Parse Expr := do
  if e.isStarred then failAtSpan .starredValue e.span else return e

end Parse

end SyntaxTree
