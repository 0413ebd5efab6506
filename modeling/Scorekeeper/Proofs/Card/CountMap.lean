import Mathlib.Data.List.Basic
import Scorekeeper.Json.Codec
import Scorekeeper.Tally

/-!
# Tallies as maps

Counts can be kept in a map whose keys stay where they were put first.  Every rank is put into
it at the beginning, in display order, and from then on a count only takes the place of another
one, so that no key is ever moved or lost.  This file does with such a map all that is done with
a tally, and shows that the entries of the tally are what the map holds, in the same order.
-/

namespace Scorekeeper

open Json

/-- Counts in the order in which their ranks were put first. -/
abbrev CountMap := List (Rank × UInt32)

namespace CountMap

def put (map : CountMap) (rank : Rank) (n : UInt32) : CountMap :=
  Codec.putEntry rank n map

/-- A rank that was never put has no holes. -/
def count (map : CountMap) (rank : Rank) : UInt32 :=
  (map.lookup rank).getD 0

def empty : CountMap :=
  Rank.all.foldl (fun map rank => map.put rank 0) []

def unranked (holes : Nat) : CountMap :=
  empty.put .unranked (UInt32.ofNat holes)

def increment (map : CountMap) (rank : Rank) : CountMap :=
  map.put rank (map.count rank + 1)

def decrement (map : CountMap) (rank : Rank) : CountMap :=
  match map.lookup rank with
  | some n => map.put rank (if n = 0 then 0 else n - 1)
  | none => map

def shift (map : CountMap) (before after : Rank) : CountMap :=
  if before = after then map else (map.decrement before).increment after

def ofRanks (ranks : List Rank) : CountMap :=
  ranks.foldl increment empty

end CountMap

/-- What happens to the counts of a row. -/
inductive Recount where
  /-- One hole changes its rank. -/
  | shift (before after : Rank)
  /-- All holes are counted again. -/
  | rebuild (ranks : List Rank)
  deriving DecidableEq, Repr

def CountMap.recount (map : CountMap) : Recount → CountMap
  | .shift before after => map.shift before after
  | .rebuild ranks => .ofRanks ranks

def Tally.recount (tally : Tally) : Recount → Tally
  | .shift before after => tally.shift before after
  | .rebuild ranks => .ofRanks ranks

namespace Tally

/-- A value that is put under a key of a map takes the place of the one there. -/
theorem putEntry_map {rank : Rank} {ranks : List Rank} (hdistinct : ranks.Nodup)
    (hmem : rank ∈ ranks) (values : Rank → UInt32) (n : UInt32) :
    Codec.putEntry rank n (ranks.map fun other => (other, values other)) =
      ranks.map fun other => (other, if other = rank then n else values other) := by
  induction ranks with
  | nil => cases hmem
  | cons first ranks ih =>
      rw [List.nodup_cons] at hdistinct
      rw [List.map_cons, List.map_cons, Codec.putEntry]
      by_cases hfirst : first = rank
      · subst hfirst
        rw [if_pos (beq_self_eq_true first), if_pos rfl]
        congr 1
        apply List.map_congr_left
        intro other hother
        rw [if_neg]
        rintro rfl
        exact hdistinct.1 hother
      · have hrest := List.mem_of_ne_of_mem (Ne.symm hfirst) hmem
        rw [if_neg (by simpa using hfirst), if_neg hfirst, ih hdistinct.2 hrest]

theorem lookup_entries (tally : Tally) (rank : Rank) :
    tally.entries.lookup rank = some (tally.count rank) :=
  List.lookup_graph tally.count rank.mem_all

theorem entries_put (tally : Tally) (rank : Rank) (n : UInt32) :
    (tally.put rank n).entries = CountMap.put tally.entries rank n := by
  rw [CountMap.put, entries, entries, putEntry_map (by decide) rank.mem_all]
  apply List.map_congr_left
  intro other _
  rw [count_put]

theorem count_entries (tally : Tally) (rank : Rank) :
    CountMap.count tally.entries rank = tally.count rank := by
  rw [CountMap.count, lookup_entries, Option.getD_some]

/-- All the ranks that are put at the beginning are there, in display order. -/
theorem entries_zero : zero.entries = CountMap.empty := by
  decide

theorem entries_unranked (holes : Nat) : (unranked holes).entries = CountMap.unranked holes := by
  rw [unranked, entries_put, entries_zero, CountMap.unranked]

theorem entries_increment (tally : Tally) (rank : Rank) :
    (tally.increment rank).entries = CountMap.increment tally.entries rank := by
  rw [increment, entries_put, CountMap.increment, count_entries]

theorem entries_decrement (tally : Tally) (rank : Rank) :
    (tally.decrement rank).entries = CountMap.decrement tally.entries rank := by
  rw [decrement, entries_put, CountMap.decrement, lookup_entries]

/-- Moving a hole from one rank to another in a tally does the same to its map. -/
theorem entries_shift (tally : Tally) (before after : Rank) :
    (tally.shift before after).entries = CountMap.shift tally.entries before after := by
  rw [shift, CountMap.shift]
  split
  · rfl
  · rw [entries_increment, entries_decrement]

/-- A tally and a map that are built from the same ranks list the same counts in the same
order. -/
theorem entries_ofRanks (ranks : List Rank) :
    (ofRanks ranks).entries = CountMap.ofRanks ranks := by
  have hfold (tally : Tally) : (ranks.foldl increment tally).entries =
      ranks.foldl CountMap.increment tally.entries := by
    induction ranks generalizing tally with
    | nil => rfl
    | cons rank ranks ih => rw [List.foldl_cons, List.foldl_cons, ih, entries_increment]
  rw [ofRanks, hfold, entries_zero, CountMap.ofRanks]

theorem entries_recount (tally : Tally) (change : Recount) :
    (tally.recount change).entries = CountMap.recount tally.entries change := by
  cases change with
  | shift before after => exact tally.entries_shift before after
  | rebuild ranks => exact entries_ofRanks ranks

/-- Through all changes of a row, its tally lists what a map holds that goes through the same
changes, and in the same order. -/
theorem entries_recounts (holes : Nat) (changes : List Recount) :
    (changes.foldl recount (unranked holes)).entries =
      changes.foldl CountMap.recount (CountMap.unranked holes) := by
  rw [← entries_unranked]
  generalize unranked holes = tally
  induction changes generalizing tally with
  | nil => rfl
  | cons change changes ih => rw [List.foldl_cons, List.foldl_cons, ih, entries_recount]

end Tally

end Scorekeeper
