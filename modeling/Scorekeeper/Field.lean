import Scorekeeper.CardError
import Scorekeeper.Qualifiers
import Scorekeeper.Rank

/-!
# Fields

A field is one number on the card with its marks: the score of a player on a
hole, the par of a hole, or a total.  Only hole scores are ranked.
-/

namespace Scorekeeper

structure Field where
  value : UInt32
  qualifiers : Qualifiers
  /-- The number of the player who owns the field; pars and their total have none. -/
  owner : Option UInt32
  hole : Nat
  /-- The rank last worked out; pars and totals are never ranked. -/
  rank : Option Rank
  deriving DecidableEq

/-- A stroke count or par as it was entered, if a field may hold it. -/
def checkValue (value : Int) : Except CardError UInt32 :=
  if 0 ≤ value ∧ value ≤ maxValue then .ok (UInt32.ofNat value.toNat)
  else .error (.invalidValue value)

namespace Field

/-- The score of player `owner` on `hole`, nothing entered yet. -/
def score (owner : UInt32) (hole : Nat) : Field :=
  { value := 0, qualifiers := .empty, owner := some owner, hole, rank := some .unranked }

def par (hole : Nat) (value : UInt32) : Field :=
  { value, qualifiers := .empty, owner := none, hole, rank := none }

/-- A total; that of the pars has no owner. -/
def total (owner : Option UInt32) : Field :=
  { value := 0, qualifiers := .empty, owner, hole := 0, rank := none }

def isRanked (field : Field) : Bool :=
  field.rank.isSome

def write (field : Field) (value : UInt32) (qualifiers : Qualifiers) : Field :=
  { field with value, qualifiers }

/-- Ranks a hole score against `par` again; other fields stay as they are. -/
def rerank (field : Field) (par : UInt32) : Field :=
  { field with rank := field.rank.map fun _ => Rank.classify field.value.toNat par.toNat }

/-- The sum of the values, modulo 2^32. -/
def sum (fields : List Field) : UInt32 :=
  fields.foldr (fun field sum => field.value + sum) 0

/-- The rank a field counts under. -/
def countedRank (field : Field) : Rank :=
  field.rank.getD .unranked

end Field

end Scorekeeper
