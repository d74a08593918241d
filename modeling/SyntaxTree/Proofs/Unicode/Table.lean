import SyntaxTree.Unicode.Composition
import SyntaxTree.Unicode.Decomposition
import SyntaxTree.Unicode.Identifier

/-
# Tables of code points

Sets of code points are compared as numbers with one bit for each code point, and the decompositions
are looked up in a search tree.  Both say the same as the tables, and neither reads them from one
end to the other for every code point.
-/

namespace SyntaxTree.Unicode

/-! ## Sets -/

/-- The code points of a range as the bits of a number. -/
def mask (range : Nat × Nat) : Nat := (1 <<< (range.2 + 1 - range.1) - 1) <<< range.1

/-- The code points of some ranges as the bits of a number.  The tables are in order, so the number
stays small for as long as it can. -/
def bits (ranges : List (Nat × Nat)) : Nat := ranges.foldl (fun n range => n ||| mask range) 0

theorem testBit_mask (range : Nat × Nat) (code : Nat) :
    (mask range).testBit code = (decide (range.1 ≤ code) && decide (code ≤ range.2)) := by
  rw [mask, Nat.testBit_shiftLeft, Nat.one_shiftLeft, Nat.testBit_two_pow_sub_one, Bool.eq_iff_iff,
    Bool.and_eq_true, Bool.and_eq_true, decide_eq_true_eq, decide_eq_true_eq, decide_eq_true_eq]
  omega

theorem testBit_foldl_mask (ranges : List (Nat × Nat)) (n code : Nat) :
    (ranges.foldl (fun n range => n ||| mask range) n).testBit code =
      (n.testBit code || inRanges ranges code) := by
  induction ranges generalizing n with
  | nil => exact (Bool.or_false _).symm
  | cons range ranges ih =>
    rw [List.foldl_cons, ih, Nat.testBit_or, testBit_mask, Bool.or_assoc]
    rfl

theorem testBit_bits (ranges : List (Nat × Nat)) (code : Nat) :
    (bits ranges).testBit code = inRanges ranges code := by
  rw [bits, testBit_foldl_mask, Nat.zero_testBit, Bool.false_or]

variable {s t : List (Nat × Nat)} {code : Nat}

theorem inRanges_iff : inRanges s code ↔ ∃ range ∈ s, range.1 ≤ code ∧ code ≤ range.2 := by
  rw [inRanges, List.any_eq_true]
  simp only [Bool.and_eq_true, decide_eq_true_eq]

/-- Whether one set is part of another. -/
def isSubset (s t : List (Nat × Nat)) : Bool := bits s &&& bits t == bits s

/-- Whether two sets have nothing in common. -/
def isDisjoint (s t : List (Nat × Nat)) : Bool := bits s &&& bits t == 0

theorem inRanges_of_subset (h : isSubset s t) (hs : inRanges s code) : inRanges t code := by
  rw [isSubset, beq_iff_eq] at h
  rw [← testBit_bits, ← h, Nat.testBit_and, Bool.and_eq_true] at hs
  rw [← testBit_bits]
  exact hs.2

theorem not_inRanges_of_disjoint (h : isDisjoint s t) (hs : inRanges s code) :
    ¬ inRanges t code := by
  intro ht
  rw [isDisjoint, beq_iff_eq] at h
  have hboth := congrArg (Nat.testBit · code) h
  rw [Nat.testBit_and, testBit_bits, testBit_bits, hs, ht, Nat.zero_testBit] at hboth
  cases hboth

/-! ## Runs -/

/-- The first and the last code point of a run, and what the first decomposes into. -/
abbrev Run : Type := Nat × Nat × List Nat

namespace Run

/-- Whether a code point belongs to a run. -/
def covers (code : Nat) (run : Run) : Bool := run.1 ≤ code && code ≤ run.2.1

/-- What a code point of a run decomposes into. -/
def target (code : Nat) (run : Run) : List Nat :=
  match run.2.2 with
  | [] => []
  | first :: rest => (first + (code - run.1)) :: rest

/-- A run that holds a code point stands in front of another one. -/
def Precedes (run next : Run) : Prop := run.1 ≤ run.2.1 ∧ run.2.1 < next.1

theorem covers_eq_true {run : Run} : run.covers code ↔ run.1 ≤ code ∧ code ≤ run.2.1 := by
  rw [covers, Bool.and_eq_true, decide_eq_true_eq, decide_eq_true_eq]

/-- Whether runs that hold code points stand in order, from a first code point on. -/
def areSorted : Nat → List Run → Bool
  | _, [] => true
  | low, run :: runs => low ≤ run.1 && (run.1 ≤ run.2.1 && areSorted (run.2.1 + 1) runs)

theorem pairwise_of_areSorted {low : Nat} {runs : List Run} (h : areSorted low runs) :
    (∀ run ∈ runs, low ≤ run.1) ∧ runs.Pairwise Precedes := by
  induction runs generalizing low with
  | nil => exact ⟨List.forall_mem_nil _, .nil⟩
  | cons run runs ih =>
    simp only [areSorted, Bool.and_eq_true, decide_eq_true_eq] at h
    obtain ⟨hlow, hrun, hruns⟩ := h
    obtain ⟨hbehind, hsorted⟩ := ih hruns
    refine ⟨List.forall_mem_cons.mpr ⟨hlow, fun next hnext => ?_⟩, .cons ?_ hsorted⟩
    · have hnext := hbehind next hnext
      omega
    · exact fun next hnext => ⟨hrun, hbehind next hnext⟩

end Run

theorem tableDecomposition?_eq (code : Nat) :
    tableDecomposition? code = (decompositions.find? (Run.covers code)).map (Run.target code) :=
  rfl

/-! ## Search trees -/

/-- A search tree of runs. -/
inductive RunTree where
  | empty
  | node (left : RunTree) (run : Run) (right : RunTree)

namespace RunTree

/-- The runs of a tree, from left to right. -/
def toList : RunTree → List Run
  | empty => []
  | node left run right => left.toList ++ run :: right.toList

/-- The run of a tree to which a code point belongs. -/
def find? (code : Nat) : RunTree → Option Run
  | empty => none
  | node left run right =>
    if code < run.1 then left.find? code
    else if code ≤ run.2.1 then some run
    else right.find? code

/-- A tree of the first runs of a list, up to a height, and the runs behind them. -/
def ofList : Nat → List Run → RunTree × List Run
  | 0, runs => (empty, runs)
  | height + 1, runs =>
    match ofList height runs with
    | (left, []) => (left, [])
    | (left, run :: rest) =>
      let (right, rest) := ofList height rest
      (node left run right, rest)

theorem toList_ofList (height : Nat) (runs : List Run) :
    (ofList height runs).1.toList ++ (ofList height runs).2 = runs := by
  fun_induction ofList height runs with
  | case1 runs => rfl
  | case2 height runs left hleft ih =>
    rw [hleft] at ih
    exact ih
  | case3 height runs left run rest hleft right behind hright ihleft ihright =>
    rw [hleft] at ihleft
    rw [hright] at ihright
    rw [toList, List.append_assoc, List.cons_append, ihright]
    exact ihleft

/-- In a sorted tree the search finds what the list of its runs holds. -/
theorem find?_eq {tree : RunTree} (h : tree.toList.Pairwise Run.Precedes) (code : Nat) :
    tree.find? code = tree.toList.find? (Run.covers code) := by
  induction tree with
  | empty => rfl
  | node left run right ihleft ihright =>
    obtain ⟨hleft, hright, hbetween⟩ := List.pairwise_append.mp h
    obtain ⟨hrun, hright⟩ := List.pairwise_cons.mp hright
    have hleftOut (hlow : run.1 ≤ code) : left.toList.find? (Run.covers code) = none := by
      refine List.find?_eq_none.mpr fun other hother hcovers => ?_
      have hbelow := (hbetween other hother run List.mem_cons_self).2
      exact absurd (Run.covers_eq_true.mp hcovers).2 (by omega)
    rw [find?, toList, List.find?_append, List.find?_cons]
    by_cases hlow : code < run.1
    · have hrunOut : run.covers code = false :=
        Bool.eq_false_iff.mpr fun hcovers => absurd (Run.covers_eq_true.mp hcovers).1 (by omega)
      have hrightOut : right.toList.find? (Run.covers code) = none := by
        refine List.find?_eq_none.mpr fun other hother hcovers => ?_
        have hnext := hrun other hother
        exact absurd (Run.covers_eq_true.mp hcovers).1 (by have := hnext.1; have := hnext.2; omega)
      rw [if_pos hlow, hrunOut, hrightOut, ihleft hleft, Option.or_none]
    rw [if_neg hlow, hleftOut (Nat.not_lt.mp hlow), Option.none_or]
    by_cases hhigh : code ≤ run.2.1
    · have hcovers : run.covers code := Run.covers_eq_true.mpr ⟨Nat.not_lt.mp hlow, hhigh⟩
      rw [if_pos hhigh, hcovers]
    · have hrunOut : run.covers code = false :=
        Bool.eq_false_iff.mpr fun hcovers => hhigh (Run.covers_eq_true.mp hcovers).2
      rw [if_neg hhigh, hrunOut, ihright hright]

end RunTree

/-- The runs of all decompositions as a tree. -/
def decompositionTree : RunTree := (RunTree.ofList 12 decompositions).1

theorem toList_decompositionTree : decompositionTree.toList = decompositions := by
  have hall : (RunTree.ofList 12 decompositions).2.isEmpty = true := by decide +kernel
  have htree := RunTree.toList_ofList 12 decompositions
  rw [List.isEmpty_iff.mp hall, List.append_nil] at htree
  exact htree

theorem pairwise_decompositions : decompositions.Pairwise Run.Precedes := by
  have hsorted : Run.areSorted 0 decompositions := by decide +kernel
  exact (Run.pairwise_of_areSorted hsorted).2

theorem tableDecomposition?_eq_find? (code : Nat) :
    tableDecomposition? code = (decompositionTree.find? code).map (Run.target code) := by
  have hsorted : decompositionTree.toList.Pairwise Run.Precedes := by
    rw [toList_decompositionTree]
    exact pairwise_decompositions
  rw [tableDecomposition?_eq, RunTree.find?_eq hsorted, toList_decompositionTree]

end SyntaxTree.Unicode
