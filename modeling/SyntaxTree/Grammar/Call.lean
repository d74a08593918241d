import SyntaxTree.Grammar.Module
import SyntaxTree.Tree.Dump

/-
# Calls one after the other

A parser holds one list of tokens and is called again and again, for modules and for expressions.
Each call goes on where the one before has stopped, whether that has found a tree or failed.
-/

namespace SyntaxTree

/-- What a parser is called for: a module in one of the modes, or a single expression. -/
inductive Call where
  | module (mode : Mode)
  | expression
  deriving DecidableEq, Repr

namespace Call

variable [Unicode.CharacterNames]

/-- The reading of what is called for. -/
def reading : Call → Parse Node
  | module mode => return .module (← Parse.moduleIn mode)
  | expression => return .expr (← Parse.onlyExpression)

/-- The answer to a call at a cursor, and the cursor behind it. -/
def answer (call : Call) (c : Cursor) : Except SyntaxError Node × Cursor :=
  match call.reading.run c with
  | .ok tree c' => (.ok tree, c')
  | .error e c' => (.error e, c')

/-- The answers to calls in their order, and the cursor behind the last of them. -/
def answers : List Call → Cursor → List (Except SyntaxError Node) × Cursor
  | [], c => ([], c)
  | call :: rest, c =>
    let (first, c) := call.answer c
    let (more, c) := answers rest c
    (first :: more, c)

end Call

end SyntaxTree
