import Scorekeeper.Card.Basic

/-!
# Editing a card

Every edit returns its answer together with the card it leaves behind, also when
it is refused: overriding a par writes the par first and ranks the rows after it,
so what a refusal leaves behind is a question of its own and not one that the
types settle.
-/

namespace Scorekeeper.Card

variable {A : Type}

/-- The rows after `edit` has been applied to the first one numbered `number`. -/
def editRow (number : UInt32) (edit : Player → Except CardError (A × Player)) :
    List Player → Except CardError (A × List Player)
  | [] => .error (.unknownPlayer number)
  | player :: rest =>
    if player.number = number then
      (edit player).map fun (answer, player) => (answer, player :: rest)
    else
      (editRow number edit rest).map fun (answer, rest) => (answer, player :: rest)

def editPlayer (card : Card) (number : UInt32) (edit : Player → Except CardError (A × Player)) :
    Except CardError A × Card :=
  match editRow number edit card.players with
  | .ok (answer, players) => (.ok answer, { card with players })
  | .error e => (.error e, card)

/-- Enters a score.  The hole is checked first, then the player, then the value. -/
def setScore (card : Card) (number : UInt32) (hole : Nat) (value : Int) (qualifiers : String) :
    Except CardError Rank × Card :=
  match card.pars[hole]? with
  | none => (.error (.holeOutOfRange hole card.holes), card)
  | some par =>
    card.editPlayer number fun player => player.setScore hole value qualifiers par.value

/-- Ranks one row after the other, up to the first that does not fit the pars. -/
def rerankRows (pars : List UInt32) : List Player → Except CardError Unit × List Player
  | [] => (.ok (), [])
  | player :: rest =>
    match player.updateRanks pars with
    | .error e => (.error e, player :: rest)
    | .ok player =>
      let (result, rest) := rerankRows pars rest
      (result, player :: rest)

/-- Overrides the par of `hole` for this round.  The value is checked before the hole. -/
def setPar (card : Card) (hole : Nat) (value : Int) : Except CardError Unit × Card :=
  match checkValue value with
  | .error e => (.error e, card)
  | .ok value =>
    match card.pars[hole]? with
    | none => (.error (.holeOutOfRange hole card.holes), card)
    | some par =>
      let card := updateParTotal { card with pars := card.pars.set hole { par with value } }
      let (result, players) := rerankRows card.parValues card.players
      (result, { card with players })

/-- The number that the next row gets: one above the largest, modulo 2^32. -/
def nextNumber (card : Card) : UInt32 :=
  (card.players.map Player.number).foldl max 0 + 1

def addPlayer (card : Card) (name : Option String) : UInt32 × Card :=
  let number := card.nextNumber
  (number, { card with players := card.players ++ [.new number name card.holes] })

/-- Removes the last row, unless it is the only one; tells whether it did. -/
def removePlayer (card : Card) : Bool × Card :=
  if card.players.length ≤ 1 then (false, card)
  else (true, { card with players := card.players.dropLast })

def rename (card : Card) (number : UInt32) (name : String) : Except CardError Unit × Card :=
  card.editPlayer number fun player => (player.rename name).map fun player => ((), player)

def setNotes (card : Card) (notes : String) : Card :=
  { card with notes }

/-- Which rows to add up again. -/
inductive Rows where
  | all
  | only (number : UInt32)
  deriving DecidableEq

def updateTotals (card : Card) : Rows → Except CardError Unit × Card
  | .all => (.ok (), { card with players := card.players.map Player.updateTotal })
  | .only number => card.editPlayer number fun player => .ok ((), player.updateTotal)

end Scorekeeper.Card
