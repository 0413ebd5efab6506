import Scorekeeper.Card.Archive
import Scorekeeper.Card.Edit
import Scorekeeper.Service.Failure

/-!
# Opening a userspace and starting a card

Two cells hold the open userspace and the courses of its catalog.  Opening a
userspace writes one after the other, and starting a card reads one after the
other; each access locks only its own cell.  A `Visit` is one of these requests
under way, and its steps are the accesses.
-/

namespace Scorekeeper.Service

open Remote

/-- The open userspace and the courses on offer. -/
structure Cells where
  userspace : Option UserspaceId
  courses : List Course
  deriving DecidableEq

inductive Visit where
  /-- Waits for the catalog. -/
  | downloading (userspace : UserspaceId)
  | enteringUserspace (userspace : UserspaceId) (courses : List Course)
  | enteringCourses (userspace : UserspaceId) (courses : List Course)
  | opened (userspace : UserspaceId) (courses : List Course)
  /-- Looks for the course. -/
  | choosing (request : CreateCard)
  /-- Looks for the userspace that the id is to carry. -/
  | naming (request : CreateCard) (course : Course)
  | created (card : Card)
  | refused (refusal : Refusal)

/-- The playable courses of a catalog, in its order; other entries are passed over. -/
def playable (catalog : CatalogDocument) : List Course :=
  catalog.courses.filterMap fun doc => (Course.ofDocument doc).toOption

/-- The courses in a downloaded catalog; a userspace without one has no courses. -/
def readCatalog : Except StorageError (Option Json) → Except Refusal (List Course)
  | .error e => .error (.storage e)
  | .ok none => .ok []
  | .ok (some data) =>
    match CatalogDocument.codec.readJson data with
    | .error problem => .error (.malformed .catalog problem)
    | .ok catalog => .ok (playable catalog)

/-- The first course with an id. -/
def findCourse (courses : List Course) (id : String) : Option Course :=
  courses.find? fun course => course.id == id

/-- The course that a request asks for; blanks around its id do not count. -/
def chooseCourse (courses : List Course) (request : CreateCard) : Except Refusal Course :=
  let id := Text.trim request.courseId
  match findCourse courses id with
  | some course => .ok course
  | none => .error (.unknownCourse id)

/-- A card with the players of a request.  The first name renames the player that every card
starts with. -/
def lineUp (card : Card) : List String → Except CardError Card
  | [] => .ok card
  | first :: rest =>
    match card.rename 1 first with
    | (.error e, _) => .error e
    | (.ok (), card) => .ok (rest.foldl (fun card name => (card.addPlayer (some name)).2) card)

def startCard (request : CreateCard) (course : Course) (space : Option UserspaceId)
    (draw : Draw) : Except CardError Card := do
  lineUp (← Card.start course space draw) request.playerNames

namespace Visit

def ofPassphrase (request : OpenUserspace) : Visit :=
  match UserspaceId.ofPassphrase request.passphrase with
  | .ok userspace => .downloading userspace
  | .error e => .refused (.card e)

def create (request : CreateCard) : Visit :=
  .choosing request

/-- The next access of a visit, given what a download would answer and what is fresh about an id;
a visit that has ended does nothing. -/
def step (download : DocumentKey → Except StorageError (Option Json)) (draw : Draw)
    (visit : Visit) (cells : Cells) : Visit × Cells :=
  match visit with
  | .downloading userspace =>
    match readCatalog (download (.courses userspace.text)) with
    | .ok courses => (.enteringUserspace userspace courses, cells)
    | .error refusal => (.refused refusal, cells)
  | .enteringUserspace userspace courses =>
    (.enteringCourses userspace courses, { cells with userspace := some userspace })
  | .enteringCourses userspace courses => (.opened userspace courses, { cells with courses })
  | .choosing request =>
    match chooseCourse cells.courses request with
    | .ok course => (.naming request course, cells)
    | .error refusal => (.refused refusal, cells)
  | .naming request course =>
    match startCard request course cells.userspace draw with
    | .ok card => (.created card, cells)
    | .error e => (.refused (.card e), cells)
  | visit => (visit, cells)

end Visit

/-- Any number of visits and the cells that they share. -/
structure Hall where
  cells : Cells
  visits : List Visit

namespace Hall

inductive Event where
  | enter (visit : Visit)
  /-- A visit makes its next access. -/
  | step (visit : Nat) (download : DocumentKey → Except StorageError (Option Json)) (draw : Draw)

def step (hall : Hall) : Event → Hall
  | .enter visit => { hall with visits := hall.visits ++ [visit] }
  | .step i download draw =>
    match hall.visits[i]? with
    | none => hall
    | some visit =>
      let (visit, cells) := visit.step download draw hall.cells
      { cells, visits := hall.visits.set i visit }

def run (hall : Hall) (events : List Event) : Hall :=
  events.foldl step hall

end Hall

end Scorekeeper.Service
