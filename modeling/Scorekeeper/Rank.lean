/-!
# Ranks

A hole score is ranked by comparing it with the par of the hole.  An ace always
wins, even on a par-1 hole, and nothing is ranked before both a score and a par
are known.
-/

namespace Scorekeeper

/-- How a hole score stands to its par. -/
inductive Rank where
  | holeInOne
  | twoUnderOrBetter
  | oneUnder
  | even
  | oneOver
  | twoOver
  | threeOverOrWorse
  | unranked
  deriving DecidableEq, Repr

namespace Rank

/-- Every rank, in display order. -/
def all : List Rank :=
  [.holeInOne, .twoUnderOrBetter, .oneUnder, .even, .oneOver, .twoOver, .threeOverOrWorse,
    .unranked]

/-- The place of a rank in the display order. -/
def index : Rank → Fin 8
  | .holeInOne => 0
  | .twoUnderOrBetter => 1
  | .oneUnder => 2
  | .even => 3
  | .oneOver => 4
  | .twoOver => 5
  | .threeOverOrWorse => 6
  | .unranked => 7

/-- The name of a rank in stored documents. -/
def key : Rank → String
  | .holeInOne => "hole_in_one"
  | .twoUnderOrBetter => "two_under_or_better"
  | .oneUnder => "one_under"
  | .even => "even"
  | .oneOver => "one_over"
  | .twoOver => "two_over"
  | .threeOverOrWorse => "three_over_or_worse"
  | .unranked => "none"

/-- The golfer's word for a rank. -/
def label : Rank → String
  | .holeInOne => "Ace"
  | .twoUnderOrBetter => "Eagle+"
  | .oneUnder => "Birdie"
  | .even => "Par"
  | .oneOver => "Bogey"
  | .twoOver => "Double"
  | .threeOverOrWorse => "Triple+"
  | .unranked => "-"

def ofKey? (key : String) : Option Rank :=
  all.find? fun rank => rank.key == key

/-- Ranks `score` on a hole of par `par`. -/
def classify (score par : Int) : Rank :=
  if par ≤ 0 ∨ score ≤ 0 then .unranked
  else if score = 1 then .holeInOne
  else if score = par then .even
  else if score = par + 1 then .oneOver
  else if score = par + 2 then .twoOver
  else if par + 3 ≤ score then .threeOverOrWorse
  else if score = par - 1 then .oneUnder
  else .twoUnderOrBetter

theorem mem_all (rank : Rank) : rank ∈ all := by
  cases rank <;> decide

theorem ofKey?_key (rank : Rank) : ofKey? rank.key = some rank := by
  cases rank <;> decide

theorem index_injective {a b : Rank} (h : a.index = b.index) : a = b := by
  revert h
  cases a <;> cases b <;> decide

end Rank

end Scorekeeper
