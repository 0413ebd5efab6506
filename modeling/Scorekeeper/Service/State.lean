import Scorekeeper.Config
import Scorekeeper.Save.World
import Scorekeeper.Service.View
import Scorekeeper.Service.Visit

/-!
# The service

The service holds one active card, the open userspace with its courses, and one
session that saves cards.  A request becomes an action; performing it gives an
answer or a refusal and leaves a new state.  What the store, the file system and
the clock contribute is passed in.
-/

namespace Scorekeeper.Service

open Queue Remote Save Files

/-- What the outside contributes to a request. -/
structure Outside where
  download : DocumentKey → Except StorageError (Option Json)
  probe : Except StorageError Unit
  /-- The luck of reading the queue. -/
  luck : Luck
  draw : Draw

structure State where
  world : World 1
  cells : Cells
  card : Option Card

/-- A request with its parameters and its body. -/
inductive Action where
  | health
  | followStatus
  | openUserspace (request : OpenUserspace)
  | listCourses
  | createCard (request : CreateCard)
  | loadCard (id : String)
  | viewCard
  | setScore (number : UInt32) (hole : Nat) (request : SetScore)
  | setPar (hole : Nat) (request : SetPar)
  | addPlayer (request : AddPlayer)
  | removePlayer
  | renamePlayer (number : UInt32) (request : RenamePlayer)
  | setNotes (request : SetNotes)
  | saveCard
  deriving DecidableEq, Repr

inductive Answer where
  | value (status : Nat) (body : Json)
  /-- A stream of status events. -/
  | stream

namespace State

def new (config : Config) (head : PathHead := .temporary) : State where
  world := .new (.absent head) #v[.new config.baseKey config.retryMillis 1]
  cells := { userspace := none, courses := [] }
  card := none

def session (state : State) : Session :=
  state.world.sessions.get sole

def status (state : State) : Status :=
  state.session.status

/-- What clients are shown of a card now. -/
def cardView (state : State) (card : Card) : Json :=
  viewCard card state.status

def openUserspace (state : State) (outside : Outside) (request : OpenUserspace) :
    Except Refusal Json × State :=
  match UserspaceId.ofPassphrase request.passphrase with
  | .error e => (.error (.card e), state)
  | .ok userspace =>
    match readCatalog (outside.download (.courses userspace.text)) with
    | .error refusal => (.error refusal, state)
    | .ok courses =>
      (.ok (viewUserspace userspace courses),
        { state with cells := { userspace := some userspace, courses } })

def createCard (state : State) (outside : Outside) (request : CreateCard) :
    Except Refusal Json × State :=
  match chooseCourse state.cells.courses request with
  | .error refusal => (.error refusal, state)
  | .ok course =>
    match startCard request course state.cells.userspace outside.draw with
    | .error e => (.error (.card e), state)
    | .ok card => (.ok (state.cardView card), { state with card := some card })

/-- The stored document of a card.  A copy that waits in the queue is newer than the one in the
store and wins; a queue that cannot be read is passed over. -/
def fetch (state : State) (outside : Outside) (id : ScorecardId) :
    Except Refusal ScorecardDocument :=
  let queued :=
    match get outside.luck (keyFor state.session.base id.text) state.world.folder with
    | .ok payload => payload
    | .error _ => none
  match queued with
  | some payload =>
    (ScorecardDocument.codec.readText payload).mapError (.malformed .queuedCard)
  | none =>
    match outside.download (.scorecard id.text) with
    | .error e => .error (.storage e)
    | .ok none => .error (.unknownCard id)
    | .ok (some data) =>
      (ScorecardDocument.codec.readJson data).mapError (.malformed .remoteCard)

/-- The stored card of an id. -/
def load (state : State) (outside : Outside) (text : String) : Except Refusal Card := do
  let id ← (ScorecardId.parse text).mapError .card
  let document ← state.fetch outside id
  let card ← (Card.ofDocument document).mapError .card
  if card.id = id then return card else throw (.foreignCard card.id id)

def loadCard (state : State) (outside : Outside) (text : String) : Except Refusal Json × State :=
  match state.load outside text with
  | .ok card => (.ok (state.cardView card), { state with card := some card })
  | .error refusal => (.error refusal, state)

/-- Edits the active card; what a refused edit leaves of it is kept. -/
def edit (state : State) (change : Card → Except CardError Json × Card) :
    Except Refusal Json × State :=
  match state.card with
  | none => (.error .noActiveCard, state)
  | some card =>
    let (result, card) := change card
    (result.mapError .card, { state with card := some card })

def viewRow (card : Card) (number : UInt32) : Except CardError Json :=
  match card.player? number with
  | some player => .ok (viewPlayer player)
  | none => .error (.unknownPlayer number)

def setScore (state : State) (number : UInt32) (hole : Nat) (request : SetScore) :
    Except Refusal Json × State :=
  state.edit fun card =>
    match card.setScore number hole request.value request.qualifiers with
    | (.ok _, card) => (viewRow card number, card)
    | (.error e, card) => (.error e, card)

def setPar (state : State) (hole : Nat) (request : SetPar) : Except Refusal Json × State :=
  state.edit fun card =>
    match card.setPar hole request.value with
    | (.ok (), card) => (.ok (state.cardView card), card)
    | (.error e, card) => (.error e, card)

def addPlayer (state : State) (request : AddPlayer) : Except Refusal Json × State :=
  state.edit fun card =>
    let (_, card) := card.addPlayer request.name
    (.ok (state.cardView card), card)

def removePlayer (state : State) : Except Refusal Json × State :=
  state.edit fun card =>
    let (_, card) := card.removePlayer
    (.ok (state.cardView card), card)

def renamePlayer (state : State) (number : UInt32) (request : RenamePlayer) :
    Except Refusal Json × State :=
  state.edit fun card =>
    match card.rename number request.name with
    | (.ok (), card) => (viewRow card number, card)
    | (.error e, card) => (.error e, card)

def setNotes (state : State) (request : SetNotes) : Except Refusal Json × State :=
  state.edit fun card =>
    let card := card.setNotes request.notes
    (.ok (state.cardView card), card)

/-- The state while a snapshot is being saved. -/
def save (state : State) (snapshot : Snapshot) : State :=
  { state with world := state.world.step (.save sole snapshot) }

/-- Starts a save of the active card, which goes on in the background. -/
def saveCard (state : State) : Except Refusal Json × State :=
  match state.card with
  | none => (.error .noActiveCard, state)
  | some card =>
    match card.updateParTotal.updateTotals .all with
    | (.error e, card) => (.error (.card e), { state with card := some card })
    | (.ok (), card) =>
      let state := { state with card := some card }
      match card.serialize with
      | .error obstacle => (.error (.unwritten obstacle), state)
      | .ok (id, payload) => (.ok (viewSaveAccepted id), state.save { id, payload })

def health (state : State) (outside : Outside) : Json :=
  let waiting := size outside.luck state.session.base state.world.folder
  viewHealth outside.probe.isOk waiting.toOption state.status

/-- Performs `act` unless the request has defects. -/
def checked (state : State) (defects : Defects) (act : Except Refusal Json × State) :
    Except Refusal Json × State :=
  if defects.isEmpty then act else (.error (.unfit defects), state)

def values (status : Nat) (outcome : Except Refusal Json × State) :
    Except Refusal Answer × State :=
  (outcome.1.map (.value status), outcome.2)

def perform (state : State) (outside : Outside) : Action → Except Refusal Answer × State
  | .health => (.ok (.value 200 (state.health outside)), state)
  | .followStatus => (.ok .stream, state)
  | .openUserspace request =>
    values 200 (state.checked request.defects (state.openUserspace outside request))
  | .listCourses => (.ok (.value 200 (viewCourses state.cells.courses)), state)
  | .createCard request =>
    values 200 (state.checked request.defects (state.createCard outside request))
  | .loadCard id => values 200 (state.loadCard outside id)
  | .viewCard => values 200 (state.edit fun card => (.ok (state.cardView card), card))
  | .setScore number hole request =>
    values 200 (state.checked request.defects (state.setScore number hole request))
  | .setPar hole request =>
    values 200 (state.checked request.defects (state.setPar hole request))
  | .addPlayer request =>
    values 200 (state.checked request.defects (state.addPlayer request))
  | .removePlayer => values 200 state.removePlayer
  | .renamePlayer number request =>
    values 200 (state.checked request.defects (state.renamePlayer number request))
  | .setNotes request =>
    values 200 (state.checked request.defects (state.setNotes request))
  | .saveCard => values 202 state.saveCard

end State

end Scorekeeper.Service
