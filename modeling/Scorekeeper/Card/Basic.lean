import Scorekeeper.Course
import Scorekeeper.Player
import Scorekeeper.ScorecardId

/-!
# Cards

A card is one round on one course: the pars as edited for this round, and a row
for each player.  It keeps the total of its pars beside them.
-/

namespace Scorekeeper

structure Card where
  id : ScorecardId
  course : Course
  pars : List Field
  parTotal : Field
  players : List Player
  notes : String
  deriving DecidableEq

namespace Card

def parFields (pars : List UInt32) : List Field :=
  pars.mapIdx Field.par

def parValues (card : Card) : List UInt32 :=
  card.pars.map Field.value

def holes (card : Card) : Nat :=
  card.pars.length

/-- Adds up the pars again. -/
def updateParTotal (card : Card) : Card :=
  { card with parTotal := { card.parTotal with value := Field.sum card.pars } }

/-- A card on `course` before anyone plays: no rows, no notes. -/
def blank (id : ScorecardId) (course : Course) (pars : List UInt32) (notes : String) : Card :=
  updateParTotal
    { id, course, pars := parFields pars, parTotal := .total none, players := [], notes }

/-- Starts a card with one player on an enabled course. -/
def start (course : Course) (space : Option UserspaceId) (draw : Draw) : Except CardError Card :=
  if course.enabled then
    let card := blank (.issue space draw) course course.pars ""
    .ok { card with players := [.new 1 none course.holes] }
  else .error (.disabledCourse course.id)

def player? (card : Card) (number : UInt32) : Option Player :=
  card.players.find? fun player => player.number == number

end Card

end Scorekeeper
