import Scorekeeper.Field
import Scorekeeper.Tally

/-!
# Players

A player's row holds one score per hole and three things derived from the
scores: their ranks, the total with all marks, and the tally of ranks.  Setting
a score moves the tally along; ranking against a new list of pars rebuilds it.
-/

namespace Scorekeeper

open Text

structure Player where
  number : UInt32
  name : String
  scores : List Field
  total : Field
  tally : Tally
  deriving DecidableEq

namespace Player

def defaultName (number : UInt32) : String :=
  s!"Player {number}"

/-- The name a row gets: the one asked for, trimmed, or the default one when that is blank. -/
def chosenName (number : UInt32) (name : Option String) : String :=
  match name.map trim with
  | some name => if name.isEmpty then defaultName number else name
  | none => defaultName number

/-- A new row with one empty score per hole. -/
def new (number : UInt32) (name : Option String) (holes : Nat) : Player :=
  { number
    name := chosenName number name
    scores := (List.range holes).map (Field.score number)
    total := .total (some number)
    tally := .unranked holes }

def rename (player : Player) (name : String) : Except CardError Player :=
  if (trim name).isEmpty then .error .blankName
  else .ok { player with name := trim name }

/-- Adds up the scores and gathers their marks again. -/
def updateTotal (player : Player) : Player :=
  let marks := Qualifiers.concat (player.scores.map Field.qualifiers)
  { player with total := player.total.write (Field.sum player.scores) marks }

/-- Enters a score for `hole`, ranked against `par`.  The value is checked before the hole. -/
def setScore (player : Player) (hole : Nat) (value : Int) (qualifiers : String) (par : UInt32) :
    Except CardError (Rank × Player) :=
  match checkValue value with
  | .error e => .error e
  | .ok value =>
    match player.scores[hole]? with
    | none => .error (.holeOutOfRange hole player.scores.length)
    | some field =>
      let entered := (field.write value (.ofString qualifiers)).rerank par
      let rank := entered.countedRank
      let tally :=
        match field.rank with
        | some before => player.tally.shift before rank
        | none => player.tally
      .ok (rank, ({ player with scores := player.scores.set hole entered, tally }).updateTotal)

/-- Ranks every hole against `pars` and counts the ranks from scratch. -/
def updateRanks (player : Player) (pars : List UInt32) : Except CardError Player :=
  if pars.length ≠ player.scores.length then
    .error (.lengthMismatch .holePars player.scores.length pars.length)
  else
    let scores := player.scores.zipWith Field.rerank pars
    .ok { player with scores, tally := .ofRanks (scores.map Field.countedRank) }

end Player

end Scorekeeper
