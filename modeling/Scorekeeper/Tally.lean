import Scorekeeper.Rank

/-!
# Tallies

A tally counts how many holes of a player have each rank.  Every rank has a
count, so the counts add up to the number of holes.  A tally can be built from a
list of ranks at once, or moved along as a hole changes its rank.
-/

namespace Scorekeeper

structure Tally where
  counts : Vector UInt32 8
  deriving DecidableEq

namespace Tally

def zero : Tally :=
  ⟨Vector.replicate 8 0⟩

def count (tally : Tally) (rank : Rank) : UInt32 :=
  tally.counts[rank.index]

def put (tally : Tally) (rank : Rank) (n : UInt32) : Tally :=
  ⟨tally.counts.set rank.index n⟩

/-- `holes` holes, none of them ranked; the number is taken modulo 2^32. -/
def unranked (holes : Nat) : Tally :=
  zero.put .unranked (UInt32.ofNat holes)

def increment (tally : Tally) (rank : Rank) : Tally :=
  tally.put rank (tally.count rank + 1)

/-- One less under `rank`, but never below zero. -/
def decrement (tally : Tally) (rank : Rank) : Tally :=
  tally.put rank (if tally.count rank = 0 then 0 else tally.count rank - 1)

/-- Moves one hole from one rank to another. -/
def shift (tally : Tally) (before after : Rank) : Tally :=
  if before = after then tally else (tally.decrement before).increment after

def ofRanks (ranks : List Rank) : Tally :=
  ranks.foldl increment zero

/-- Every rank with its count, in display order. -/
def entries (tally : Tally) : List (Rank × UInt32) :=
  Rank.all.map fun rank => (rank, tally.count rank)

/-- The sum of the counts, modulo 2^32. -/
def total (tally : Tally) : UInt32 :=
  tally.entries.foldr (fun entry sum => entry.2 + sum) 0

theorem count_put (tally : Tally) (a b : Rank) (n : UInt32) :
    (tally.put a n).count b = if b = a then n else tally.count b := by
  by_cases h : b = a
  · subst h; simp [put, count]
  · have hne : a.index ≠ b.index := fun e => h (Rank.index_injective e).symm
    have : (a.index : Nat) ≠ b.index := fun e => hne (Fin.ext e)
    simp [put, count, h, this]

end Tally

end Scorekeeper
