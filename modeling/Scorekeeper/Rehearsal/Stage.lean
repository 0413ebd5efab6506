import Scorekeeper.Rehearsal.QueueCommand
import Scorekeeper.Service.Feed

/-!
# Rehearsals

A rehearsal runs the service against a store that follows a script.  The script
says which calls fail, may hold an upload back, and may tamper with the queue
while an upload is under way.  After each command every task runs on until it is
finished or held back, and retry timers expire only when time is told to go by.
-/

namespace Scorekeeper.Rehearsal

open Queue Remote Save Service Files

/-- How the store takes a kind of call. -/
inductive Mood where
  | willing
  | unavailable
  | rejecting
  deriving DecidableEq, Repr

namespace Mood

def check : Mood → Except StorageError Unit
  | .willing => .ok ()
  | .unavailable => .error (.unavailable "offline")
  | .rejecting => .error (.rejected "read only")

end Mood

/-- An upload that is to be held back. -/
structure Hold where
  name : String
  /-- Whether its release tells what became of the save. -/
  tells : Bool
  deriving DecidableEq, Repr

structure Script where
  upload : Mood
  download : Mood
  probe : Mood
  /-- The paths whose uploads are rejected. -/
  failing : List String
  /-- A file to delete at the next upload, and whether a folder takes its place. -/
  steal : Option (FileName × Bool)
  /-- A file to write at the next upload. -/
  overwrite : Option (FileName × ByteArray)
  /-- How the next upload is held back. -/
  hold : Option Hold

structure Stage where
  state : State
  script : Script
  /-- The jobs whose uploads are held back. -/
  held : List (Hold × Nat)
  feed : Option Feed
  /-- How many uploads have been told. -/
  told : Nat

inductive Command where
  | request (request : HttpRequest) (draw : Draw) (hold : Option String)
  /-- New moods and failing paths; what is not given stays. -/
  | store (upload download probe : Option Mood) (failing : Option (List String))
  | putDocument (path text : String)
  | getDocument (path : String)
  /-- The uploads since they were last told. -/
  | uploads
  | steal (name : FileName) (leaveFolder : Bool)
  | overwrite (name : FileName) (content : ByteArray)
  | save (id payload : String)
  | saveActive
  /-- Saves in the background, the upload held back. -/
  | spawn (hold id payload : String)
  | release (name : String)
  | retry
  | resume
  | cancel
  | schedule
  | advance (duration : Nat)
  | readFeed
  | queue (command : QueueCommand)

namespace Stage

def new (config : Config) : Stage where
  state := .new config
  script :=
    { upload := .willing, download := .willing, probe := .willing, failing := []
      steal := none, overwrite := none, hold := none }
  held := []
  feed := none
  told := 0

def world (stage : Stage) : World 1 :=
  stage.state.world

def session (stage : Stage) : Session :=
  stage.state.session

def setWorld (stage : Stage) (world : World 1) : Stage :=
  { stage with state := { stage.state with world } }

def setFolder (stage : Stage) (folder : Folder) : Stage :=
  stage.setWorld { stage.world with folder }

def step (stage : Stage) (event : Save.Event 1) : Stage :=
  stage.setWorld (stage.world.step event)

/-- A stored text as a download gives it. -/
def readDocument (text : String) : Except StorageError (Option Json) :=
  match Json.Codec.any.readText text with
  | .ok value => .ok (some value)
  | .error _ => .error (.rejected "bad document")

def download (stage : Stage) (key : DocumentKey) : Except StorageError (Option Json) := do
  stage.script.download.check
  match stage.world.documents.lookup key.path with
  | none => return none
  | some text => readDocument text

def outside (stage : Stage) (draw : Draw) : Outside where
  download := stage.download
  probe := stage.script.probe.check
  luck := .fine
  draw := draw

/-- What the script does to the queue when an upload begins. -/
def tamper (stage : Stage) : Stage :=
  let stage :=
    match stage.script.steal with
    | none => stage
    | some (name, leaveFolder) =>
      let (_, folder) := stage.world.folder.deleteFile .fine name
      stage.setFolder (if leaveFolder then QueueCommand.plantFolderIn name folder else folder)
  let stage :=
    match stage.script.overwrite with
    | none => stage
    | some (name, content) =>
      stage.setFolder (stage.world.folder.writeFile .fine name content).2
  { stage with script := { stage.script with steal := none, overwrite := none } }

/-- How the store answers an upload now. -/
def uploadAnswer (stage : Stage) (path : String) : Except StorageError Unit :=
  if path ∈ stage.script.failing then .error (.rejected "failing") else stage.script.upload.check

def answerUpload (stage : Stage) (job : Nat) : Stage :=
  match (stage.world.jobs[job]?).bind fun job => job.task.upload? with
  | none => stage
  | some (key, _) => stage.step (.answer job (stage.uploadAnswer key.path))

/-- Runs a job on until it is finished or held back; the number bounds its steps. -/
def drive : Nat → Nat → Stage → Stage
  | 0, _, stage => stage
  | fuel + 1, job, stage =>
    match stage.world.jobs[job]? with
    | none => stage
    | some { task, .. } =>
      if task.isFinished then stage
      else if task.upload?.isSome then
        let stage := stage.tamper
        match stage.script.hold with
        | some hold =>
          { stage with
            held := (hold, job) :: stage.held
            script := { stage.script with hold := none } }
        | none => drive fuel job (stage.answerUpload job)
      else drive fuel job (stage.step (.call job .fine))

/-- How many steps a task may still take. -/
def stepsLeft (folder : Folder) : Task → Nat
  | .listing => 3 * ((folder.listNames .fine).toOption.getD []).length + 8
  | .reading _ _ pass | .resending _ _ _ pass | .dropping _ _ pass _ => 3 * pass.rest.length + 8
  | _ => 8

def driveJob (job : Nat) (stage : Stage) : Stage :=
  match stage.world.jobs[job]? with
  | none => stage
  | some { task, .. } => drive (stepsLeft stage.world.folder task) job stage

/-- Takes an event and runs on the job that it starts, if any. -/
def launch (stage : Stage) (event : Save.Event 1) : Stage :=
  driveJob stage.world.jobs.length (stage.step event)

/-- What became of a job. -/
def jobResult (stage : Stage) (job : Nat) : Result :=
  match stage.world.jobs[job]? with
  | some { task := .saved _ outcome, .. } => .outcome outcome
  | some { task := .passed report, .. } => .report report
  | some { task := .resumed answer, .. } => .ofQueue .count answer
  | _ => .nothing

/-- Takes an event and tells what became of the job that it starts. -/
def perform (stage : Stage) (event : Save.Event 1) : Result × Stage :=
  let job := stage.world.jobs.length
  let stage := stage.launch event
  (stage.jobResult job, stage)

def hold (stage : Stage) (hold : Hold) : Stage :=
  { stage with script := { stage.script with hold := some hold } }

/-- Answers a request and runs on the job that it starts, if any. -/
def request (stage : Stage) (request : HttpRequest) (draw : Draw) : Result × Stage :=
  let job := stage.world.jobs.length
  let (reply, state) := stage.state.respond (stage.outside draw) request
  let stage := { stage with state }
  let stage :=
    match reply.content with
    | .stream isOpen => { stage with feed := if isOpen then some (.new stage.world.now) else none }
    | _ => stage
  (.reply reply, driveJob job stage)

def saveText (stage : Stage) (id payload : String) : Result × Stage :=
  match ScorecardId.parse id with
  | .error e => (.refused e, stage)
  | .ok id => stage.perform (.save sole { id, payload })

/-- Calls off a hold that no upload has met. -/
def callOff (stage : Stage) (name : String) : Stage :=
  let hold := stage.script.hold.filter fun hold => hold.name != name
  { stage with script := { stage.script with hold } }

/-- Lets the upload go on that is held back under a name, or the one that would be. -/
def release (stage : Stage) (name : String) : Result × Stage :=
  let stage := stage.callOff name
  match stage.held.find? fun entry => entry.1.name == name with
  | none => (.nothing, stage)
  | some (hold, job) =>
    let stage := { stage with held := stage.held.filter fun entry => entry.1.name != name }
    let stage := driveJob job (stage.answerUpload job)
    (if hold.tells then stage.jobResult job else .nothing, stage)

/-- The timer that expires first, if one does by `time`. -/
def nextTimer (time : Nat) (timers : List Timer) : Option Timer :=
  (timers.filter fun timer => timer.due ≤ time).foldl
    (fun first timer =>
      match first with
      | some other => if timer.due < other.due then some timer else some other
      | none => some timer)
    none

/-- Lets timers expire one after the other up to `time`; the first number bounds how many. -/
def expireUntil : Nat → Nat → Stage → Stage
  | 0, _, stage => stage
  | fuel + 1, time, stage =>
    match nextTimer time stage.session.alarm.timers with
    | none => stage
    | some timer =>
      let stage := stage.step (.wait (timer.due - stage.world.now))
      expireUntil fuel time (stage.launch (.expire sole timer.generation))

def advance (stage : Stage) (duration : Nat) : Stage :=
  let time := stage.world.now + duration
  let session := stage.session
  let stage :=
    expireUntil (session.alarm.timers.length + duration / session.interval + 1) time stage
  stage.step (.wait (time - stage.world.now))

def readFeed (stage : Stage) : Result × Stage :=
  match stage.feed with
  | none => (.nothing, stage)
  | some feed =>
    let (piece, feed) := feed.read stage.session stage.world.now
    (.text piece, { stage with feed := some feed })

def queue (stage : Stage) (command : QueueCommand) : Result × Stage :=
  let world := stage.world
  let stamp := { process := stage.session.process, serial := world.serial }
  let (result, folder) := command.run stage.session.base stamp world.folder
  (result, stage.setWorld { world with folder, serial := world.serial + 1 })

def run (stage : Stage) : Command → Result × Stage
  | .request request draw none => stage.request request draw
  | .request request draw (some name) =>
    (stage.hold { name, tells := false }).request request draw
  | .store upload download probe failing =>
    let script := stage.script
    let script :=
      { script with
        upload := upload.getD script.upload
        download := download.getD script.download
        probe := probe.getD script.probe
        failing := failing.getD script.failing }
    (.nothing, { stage with script })
  | .putDocument path text =>
    let world := stage.world
    (.nothing, stage.setWorld
      { world with documents := Save.putDocument path text world.documents })
  | .getDocument path => (.text (stage.world.documents.lookup path), stage)
  | .uploads =>
    let uploads := stage.world.uploads
    (.uploads (uploads.drop stage.told), { stage with told := uploads.length })
  | .steal name leaveFolder =>
    (.nothing, { stage with script := { stage.script with steal := some (name, leaveFolder) } })
  | .overwrite name content =>
    (.nothing, { stage with script := { stage.script with overwrite := some (name, content) } })
  | .save id payload => stage.saveText id payload
  | .saveActive =>
    match stage.state.card.map Card.serialize with
    | some (.ok (id, payload)) => stage.perform (.save sole { id, payload })
    | _ => (.nothing, stage)
  | .spawn hold id payload =>
    match ScorecardId.parse id with
    | .error e => (.refused e, stage)
    | .ok id =>
      let stage := stage.hold { name := hold, tells := true }
      (.nothing, stage.launch (.save sole { id, payload }))
  | .release name => stage.release name
  | .retry => stage.perform (.retry sole)
  | .resume => stage.perform (.resume sole)
  | .cancel => (.flag stage.session.isArmed, stage.step (.cancel sole))
  | .schedule => (.nothing, stage.step (.schedule sole))
  | .advance duration => (.nothing, stage.advance duration)
  | .readFeed => stage.readFeed
  | .queue command => stage.queue command

end Stage

end Scorekeeper.Rehearsal
