import Scorekeeper.Card.Basic
import Scorekeeper.Documents

/-!
# Storing a card

A card is stored as a document and made again from one.  Derived values in a
document are not trusted: ranks, tallies and totals are worked out from the hole
values, and so is the total of the pars.
-/

namespace Scorekeeper

namespace Course

def document (course : Course) : CourseDocument :=
  { courseId := course.id
    holeNumbers := course.labels
    holePars := course.pars
    enabled := course.enabled }

def ofDocument (doc : CourseDocument) : Except CardError Course :=
  make doc.courseId doc.holeNumbers doc.holePars doc.enabled

end Course

namespace Field

def document (field : Field) : ScoreDocument :=
  { value := field.value, qualifiers := field.qualifiers.text }

end Field

namespace Player

def document (player : Player) : PlayerDocument :=
  { playerNumber := player.number
    name := player.name
    holeScores := player.scores.map Field.document
    totalScore := player.total.document
    stats := player.tally.entries }

/-- Enters the stored scores one hole after the other, from `hole` on. -/
def enterScores (player : Player) (hole : Nat) :
    List ScoreDocument → List UInt32 → Except CardError Player
  | score :: scores, par :: pars => do
    let (_, player) ← player.setScore hole score.value.toNat score.qualifiers par
    enterScores player (hole + 1) scores pars
  | _, _ => .ok player

/-- A row made from its document, ranked against `pars`. -/
def ofDocument (doc : PlayerDocument) (pars : List UInt32) : Except CardError Player :=
  if doc.holeScores.length ≠ pars.length then
    .error (.lengthMismatch .playerScores pars.length doc.holeScores.length)
  else
    (new doc.playerNumber (some doc.name) pars.length).enterScores 0 doc.holeScores pars

end Player

namespace Card

def document (card : Card) : ScorecardDocument :=
  { scorecardId := card.id.text
    course := card.course.document
    holeNumbers := card.course.labels
    holePars := card.parValues
    holesParTotal := card.parTotal.value
    players := card.players.map Player.document
    notes := card.notes }

def checkLength (list : HoleList) (expected actual : Nat) : Except CardError Unit :=
  if actual = expected then .ok () else .error (.lengthMismatch list expected actual)

/-- Checks that the rows are numbered on from `position`, modulo 2^32. -/
def checkNumbering (position : UInt32) : List PlayerDocument → Except CardError Unit
  | [] => .ok ()
  | doc :: docs =>
    if doc.playerNumber = position then checkNumbering (position + 1) docs
    else .error (.playerNumbering position doc.playerNumber)

/-- The card that a document describes.  The checks come in a fixed order, and the first that
fails names the defect. -/
def ofDocument (doc : ScorecardDocument) : Except CardError Card := do
  let id ← ScorecardId.parse doc.scorecardId
  let course ← Course.ofDocument doc.course
  checkLength .holeNumbers course.holes doc.holeNumbers.length
  checkLength .holePars course.holes doc.holePars.length
  if doc.players.isEmpty then throw .noPlayers
  doc.holePars.forM fun par => discard (checkValue par.toNat)
  checkNumbering 1 doc.players
  let players ← doc.players.mapM fun player => Player.ofDocument player doc.holePars
  return { blank id course doc.holePars doc.notes with players }

/-- The text that is uploaded and queued for a card. -/
def payload (card : Card) : String :=
  ScorecardDocument.codec.print card.document

/-- Writes a card, with its id, to be uploaded. -/
def serialize (card : Card) : Except Json.Obstacle (ScorecardId × String) :=
  (ScorecardDocument.codec.write card.document).map fun payload => (card.id, payload)

end Card

end Scorekeeper
