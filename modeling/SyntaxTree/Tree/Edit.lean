import SyntaxTree.Tree.Basic

/-
# Editing modules

Statements are put into the body of a module and taken out of it, and blocks are emptied.
-/

namespace SyntaxTree

/-! ## New statements -/

/-- Syntax that comes from no source. -/
def Expr.new (shape : Expr.Shape) : Expr := .node .none shape

/-- A statement that comes from no source. -/
def Stmt.new (shape : Stmt.Shape) : Stmt := .node .none shape

/-! ## Emptied blocks -/

/-- A case without its block. -/
def MatchCase.clear : MatchCase → MatchCase
  | .mk span pattern guard _ => .mk span pattern guard []

/-- A handler without its block. -/
def ExceptHandler.clear : ExceptHandler → ExceptHandler
  | .mk span type name _ => .mk span type name []

/-- A statement shape without its blocks, if it has any; those behind `else` and `finally` stay. -/
def Stmt.Shape.clear? : Stmt.Shape → Option Stmt.Shape
  | .functionDef isAsync name decorators typeParams parameters returns _ =>
    some (.functionDef isAsync name decorators typeParams parameters returns [])
  | .classDef name decorators typeParams bases keywords _ =>
    some (.classDef name decorators typeParams bases keywords [])
  | .forLoop isAsync target iterable _ orelse =>
    some (.forLoop isAsync target iterable [] orelse)
  | .whileLoop test _ orelse => some (.whileLoop test [] orelse)
  | .conditional test _ orelse => some (.conditional test [] orelse)
  | .withBlock isAsync items _ => some (.withBlock isAsync items [])
  | .tryBlock isStar _ handlers orelse finalbody =>
    some (.tryBlock isStar [] (handlers.map ExceptHandler.clear) orelse finalbody)
  | .matchBlock subject cases => some (.matchBlock subject (cases.map MatchCase.clear))
  | _ => none

/-- A statement without its blocks, if it has any. -/
def Stmt.clear? (stmt : Stmt) : Option Stmt := stmt.shape.clear?.map (.node stmt.span)

/-! ## The body of a module -/

namespace Module

/-- The module with more statements in front of an index, or at the end of a shorter body. -/
def insert (index : Nat) (stmts : List Stmt) (m : Module) : Module :=
  { m with body := m.body.take index ++ stmts ++ m.body.drop index }

/-- The module without the statement at an index, if there is one. -/
def remove? (index : Nat) (m : Module) : Option Module :=
  if index < m.body.length then some { m with body := m.body.eraseIdx index } else none

/-- The module with the blocks of the statement at an index emptied, if it has any. -/
def clear? (index : Nat) (m : Module) : Option Module :=
  (m.body[index]?.bind Stmt.clear?).map fun stmt => { m with body := m.body.set index stmt }

end Module

end SyntaxTree
