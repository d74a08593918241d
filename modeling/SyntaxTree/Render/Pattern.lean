import SyntaxTree.Render.Expression

/-
# Patterns as text

Sequences are always written in brackets.  Alternatives and named patterns get parentheses where
they stand within alternatives, and a named pattern also where it is named again.
-/

namespace SyntaxTree

/-- Whether a pattern is a binding. -/
def Pattern.isAs : Pattern → Bool
  | .node _ (.as ..) => true
  | _ => false

/-- The name that a pattern binds; an underscore where it binds none. -/
def bindingText (name : Option Bytes) : Bytes := name.getD (text "_")

mutual

/-- A pattern; `nested` says that parentheses go around weaker ones. -/
def Pattern.write (quote : Byte) (nested : Bool) : Pattern → Bytes
  | .node _ (.value value) => value.write quote .bitOr
  | .node _ (.singleton value) => value.constant.write quote
  | .node _ (.sequence patterns) =>
    text "[" ++ commaSeparated (Pattern.writeAll quote false patterns) ++ text "]"
  | .node _ (.mapping entries rest) =>
    let rest := match rest with
      | some name => [text "**" ++ name]
      | none => []
    text "\x7b" ++ commaSeparated (Pattern.writeEntries quote entries ++ rest) ++ text "\x7d"
  | .node _ (.record callee patterns attributes) =>
    callee.write quote .atom ++
      parenthesize (commaSeparated
        (Pattern.writeAll quote false patterns ++ Pattern.writeAttributes quote attributes))
  | .node _ (.star name) => text "*" ++ bindingText name
  | .node _ (.as none name) => bindingText name
  | .node _ (.as (some pattern) name) =>
    parenthesizeIf nested
      (pattern.write quote pattern.isAs ++ text " as " ++ bindingText name)
  | .node _ (.or patterns) =>
    parenthesizeIf nested (Bytes.joinWith (text " | ") (Pattern.writeAll quote true patterns))

/-- A list of patterns. -/
def Pattern.writeAll (quote : Byte) (nested : Bool) : List Pattern → List Bytes
  | [] => []
  | p :: rest => p.write quote nested :: Pattern.writeAll quote nested rest

/-- The entries of a mapping pattern. -/
def Pattern.writeEntries (quote : Byte) : List (Expr × Pattern) → List Bytes
  | [] => []
  | (key, pattern) :: rest =>
    (key.write quote .bitOr ++ text ": " ++ pattern.write quote false) ::
      Pattern.writeEntries quote rest

/-- The keyword patterns of a class. -/
def Pattern.writeAttributes (quote : Byte) : List (Bytes × Pattern) → List Bytes
  | [] => []
  | (name, pattern) :: rest =>
    (name ++ text "=" ++ pattern.write quote false) :: Pattern.writeAttributes quote rest

end

end SyntaxTree
