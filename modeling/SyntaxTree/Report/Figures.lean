import SyntaxTree.Text.Bytes

/-
# Figures

Counts under names, kept in the order of their names.  A count is a word of 64 bits, so sums start
over behind the largest one.
-/

namespace SyntaxTree

/-- Counts under names, the names in ascending order. -/
structure Figures where
  entries : List (Bytes × UInt64)
  deriving DecidableEq, Repr

namespace Figures

/-- No counts. -/
def empty : Figures := ⟨[]⟩

/-- Puts a count in its place; `change` makes it from the one that is there, or from zero. -/
def alterEntries (name : Bytes) (change : UInt64 → UInt64) :
    List (Bytes × UInt64) → List (Bytes × UInt64)
  | [] => [(name, change 0)]
  | (key, count) :: rest =>
    if name = key then (key, change count) :: rest
    else if name < key then (name, change 0) :: (key, count) :: rest
    else (key, count) :: alterEntries name change rest

/-- The figures with another count under a name. -/
def set (name : Bytes) (count : UInt64) (f : Figures) : Figures :=
  ⟨alterEntries name (fun _ => count) f.entries⟩

/-- The figures with a greater count under a name. -/
def add (name : Bytes) (amount : UInt64) (f : Figures) : Figures :=
  ⟨alterEntries name (· + amount) f.entries⟩

/-- The count under a name, if there is one. -/
def get? (name : Bytes) (f : Figures) : Option UInt64 := f.entries.lookup name

/-- The figures without the count under a name. -/
def erase (name : Bytes) (f : Figures) : Figures := ⟨f.entries.filter (·.1 ≠ name)⟩

/-- The names in order. -/
def names (f : Figures) : List Bytes := f.entries.map (·.1)

/-- The figures under other names; counts that meet under one name are added. -/
def rename (change : Bytes → Bytes) (f : Figures) : Figures :=
  f.entries.foldl (fun result entry => result.add (change entry.1) entry.2) empty

end Figures

end SyntaxTree
