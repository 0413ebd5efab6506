import Scorekeeper.Sorting.Insertion
import Scorekeeper.Text.Blank

/-!
# Qualifiers

A score may carry one-character marks, such as a water hazard or a penalty.
They form a multiset, kept as the sorted list of its characters without blanks,
so that equal multisets are equal values and have one text.
-/

namespace Scorekeeper

open Text Sorting

/-- A multiset of marks: characters in ascending order, none of them blank. -/
structure Qualifiers where
  marks : List Char
  ordered : marks.Pairwise (· ≤ ·)
  noBlank : ∀ c ∈ marks, isBlank c = false
  deriving DecidableEq

namespace Qualifiers

def charLe (a b : Char) : Bool :=
  decide (a ≤ b)

theorem pairwise_sort_charLe (cs : List Char) : (sort charLe cs).Pairwise (· ≤ ·) := by
  have h := @pairwise_sort _ charLe
    (fun a b => by simpa [charLe] using Char.le_total a b)
    (fun a b c hab hbc => by
      simp only [charLe, decide_eq_true_eq] at *
      exact Char.le_trans hab hbc) cs
  simpa [charLe] using h

/-- The marks of raw input: its blanks are dropped, everything else counts. -/
def ofChars (cs : List Char) : Qualifiers where
  marks := sort charLe (cs.filter fun c => !isBlank c)
  ordered := pairwise_sort_charLe _
  noBlank := by
    intro c hc
    have := (List.mem_filter.1 (mem_sort.1 hc)).2
    simpa using this

def ofString (raw : String) : Qualifiers :=
  ofChars raw.toList

def empty : Qualifiers where
  marks := []
  ordered := .nil
  noBlank := by simp

/-- All marks of several multisets, duplicates kept. -/
def concat (sets : List Qualifiers) : Qualifiers where
  marks := sort charLe (sets.flatMap marks)
  ordered := pairwise_sort_charLe _
  noBlank := by
    intro c hc
    obtain ⟨set, -, hset⟩ := List.mem_flatMap.1 (mem_sort.1 hc)
    exact set.noBlank c hset

def text (set : Qualifiers) : String :=
  String.ofList set.marks

/-- The number of marks, duplicates included. -/
def size (set : Qualifiers) : Nat :=
  set.marks.length

def isEmpty (set : Qualifiers) : Bool :=
  set.marks.isEmpty

end Qualifiers

end Scorekeeper
