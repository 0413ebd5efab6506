import Scorekeeper.Queue.Entry
import Scorekeeper.Remote.Gateway
import Scorekeeper.Save.Alarm
import Scorekeeper.Save.Status
import Scorekeeper.ScorecardId

/-!
# Saving

A session uploads cards and keeps what could not be uploaded in the queue.  A
save, a retry pass and a resumption are tasks: each waits for the store or for
the file system, and between two waits it changes the session in one move.  The
moves are the functions here; they say what becomes of the session and what the
task waits for next.
-/

namespace Scorekeeper.Save

open Queue Remote Files

/-- A card as it was when it was saved. -/
structure Snapshot where
  id : ScorecardId
  payload : String
  deriving DecidableEq

/-- What became of a save. -/
inductive Outcome where
  | saved
  | queued
  /-- Neither the store nor the queue took the payload. -/
  | notQueued
  deriving DecidableEq, Repr

/-- The count of a retry pass. -/
structure Report where
  uploaded : Nat
  /-- Entries that were gone before they could be read. -/
  skipped : Nat
  failed : Nat
  deriving DecidableEq, Repr

namespace Report

def zero : Report :=
  ⟨0, 0, 0⟩

def addUploaded (report : Report) : Report :=
  { report with uploaded := report.uploaded + 1 }

def addSkipped (report : Report) : Report :=
  { report with skipped := report.skipped + 1 }

def addFailed (report : Report) : Report :=
  { report with failed := report.failed + 1 }

end Report

/-- What is left of a retry pass. -/
structure Pass where
  rest : List String
  report : Report
  deriving DecidableEq, Repr

/-- A task and what it waits for, or how it ended. -/
inductive Task where
  /-- A save waits for the store. -/
  | uploading (snapshot : Snapshot)
  /-- The store took the payload; an entry that holds it is removed. -/
  | clearing (snapshot : Snapshot) (stage : Removal.Stage)
  /-- The store did not take the payload; it is written to the queue. -/
  | keeping (snapshot : Snapshot) (stamp : Stamp) (stage : Put.Stage)
  | saved (snapshot : Snapshot) (outcome : Outcome)
  /-- A pass waits for the keys in the queue. -/
  | listing
  | reading (key suffix : String) (pass : Pass)
  | resending (key suffix payload : String) (pass : Pass)
  | dropping (key payload : String) (pass : Pass) (stage : Removal.Stage)
  | passed (report : Report)
  /-- A resumption waits for the number of entries. -/
  | counting
  | resumed (answer : Except QueueError Nat)

namespace Task

def isFinished : Task → Bool
  | .saved _ _ | .passed _ | .resumed _ => true
  | _ => false

/-- The document that the task is uploading, and its text. -/
def upload? : Task → Option (DocumentKey × String)
  | .uploading snapshot => some (.scorecard snapshot.id.text, snapshot.payload)
  | .resending _ suffix payload _ => some (.scorecard suffix, payload)
  | _ => none

end Task

/-- One user of the store and of a queue folder. -/
structure Session where
  /-- The base of the keys of its entries. -/
  base : String
  /-- Milliseconds between a failure and the next pass. -/
  interval : Nat
  process : UInt32
  status : Status
  /-- How often the status has been set. -/
  revision : Nat
  alarm : Alarm

namespace Session

def new (base : String) (interval : Nat) (process : UInt32) : Session :=
  { base, interval, process, status := .idle, revision := 0, alarm := .silent }

/-- Whether a retry timer is armed. -/
def isArmed (session : Session) : Bool :=
  session.alarm.isArmed

def setStatus (session : Session) (status : Status) : Session :=
  { session with status, revision := session.revision + 1 }

/-- Leaves `saving`: the status follows the retry timer. -/
def settle (session : Session) : Session :=
  session.setStatus (if session.isArmed then .queued else .idle)

/-- Arms the retry timer, in the place of one that is armed. -/
def schedule (session : Session) (now : Nat) : Session :=
  { session with alarm := session.alarm.schedule (now + session.interval) }

/-- Disarms the retry timer; tells whether one was armed. -/
def cancel (session : Session) : Bool × Session :=
  (session.isArmed, { session with alarm := session.alarm.cancel.2 })

/-- Shows that entries wait, and arms the timer for them. -/
def await (session : Session) (now : Nat) : Session :=
  (session.setStatus .queued).schedule now

def entryOf (session : Session) (snapshot : Snapshot) : String :=
  keyFor session.base snapshot.id.text

def removalOf (session : Session) (snapshot : Snapshot) : Removal :=
  { key := session.entryOf snapshot, payload := snapshot.payload }

def putOf (session : Session) (snapshot : Snapshot) (stamp : Stamp) : Put :=
  { key := session.entryOf snapshot, payload := snapshot.payload, stamp }

/-- Starts a save.  The armed timer is disarmed first. -/
def beginSave (session : Session) (snapshot : Snapshot) : Session × Task :=
  (session.cancel.2.setStatus .saving, .uploading snapshot)

def endSave (session : Session) (now : Nat) (snapshot : Snapshot) (outcome : Outcome) :
    Session × Task :=
  match outcome with
  | .queued => (session.await now, .saved snapshot outcome)
  | _ => (session.settle, .saved snapshot outcome)

/-- After the call that cleared the entry, however it ended. -/
def afterClearing (session : Session) (now : Nat) (snapshot : Snapshot) : Session × Task :=
  session.endSave now snapshot .saved

def afterKeeping (session : Session) (now : Nat) (snapshot : Snapshot) :
    Except QueueError String → Session × Task
  | .ok _ => session.endSave now snapshot .queued
  | .error _ => session.endSave now snapshot .notQueued

/-- Starts a retry pass. -/
def beginPass (session : Session) : Session × Task :=
  (session.setStatus .saving, .listing)

def endPass (session : Session) (now : Nat) (report : Report) : Session × Task :=
  if 0 < report.failed then (session.await now, .passed report)
  else (session.settle, .passed report)

/-- Goes on with the next key that belongs to the queue. -/
def nextEntry (session : Session) (now : Nat) (report : Report) :
    List String → Session × Task
  | [] => session.endPass now report
  | key :: rest =>
    match suffixOf session.base key with
    | some suffix => (session, .reading key suffix { rest, report })
    | none => nextEntry session now report rest

def afterListing (session : Session) (now : Nat) :
    Except QueueError (List String) → Session × Task
  | .ok keys => session.nextEntry now .zero keys
  | .error _ => session.endPass now Report.zero.addFailed

def afterReading (session : Session) (now : Nat) (key suffix : String) (pass : Pass) :
    Except QueueError (Option String) → Session × Task
  | .ok (some payload) => (session, .resending key suffix payload pass)
  | .ok none => session.nextEntry now pass.report.addSkipped pass.rest
  | .error _ => session.nextEntry now pass.report.addFailed pass.rest

/-- After the call that removed an uploaded entry, however it ended. -/
def afterDropping (session : Session) (now : Nat) (pass : Pass) : Session × Task :=
  session.nextEntry now pass.report.addUploaded pass.rest

/-- Arms the timer when an earlier session left entries behind. -/
def afterCounting (session : Session) (now : Nat) : Except QueueError Nat → Session × Task
  | .ok 0 => (session, .resumed (.ok 0))
  | .ok n => (session.await now, .resumed (.ok n))
  | .error e => (session, .resumed (.error e))

/-- The store has answered the upload that the task waits for. -/
def afterUpload (session : Session) (now : Nat) (stamp : Stamp)
    (answer : Except StorageError Unit) (task : Task) : Session × Task :=
  match task, answer with
  | .uploading snapshot, .ok () => (session, .clearing snapshot .comparing)
  | .uploading snapshot, .error _ =>
    match (session.putOf snapshot stamp).init with
    | .done answer => session.afterKeeping now snapshot answer
    | stage => (session, .keeping snapshot stamp stage)
  | .resending key _ payload pass, .ok () => (session, .dropping key payload pass .comparing)
  | .resending _ _ _ pass, .error _ =>
    session.nextEntry now pass.report.addFailed pass.rest
  | task, _ => (session, task)

/-- The next call of the file system that the task waits for. -/
def fileStep (session : Session) (now : Nat) (luck : Luck) (folder : Folder) (task : Task) :
    Folder × Session × Task :=
  match task with
  | .clearing snapshot stage =>
    match (session.removalOf snapshot).step luck stage folder with
    | (.done _, folder) => (folder, session.afterClearing now snapshot)
    | (stage, folder) => (folder, session, .clearing snapshot stage)
  | .keeping snapshot stamp stage =>
    match (session.putOf snapshot stamp).step luck stage folder with
    | (.done answer, folder) => (folder, session.afterKeeping now snapshot answer)
    | (stage, folder) => (folder, session, .keeping snapshot stamp stage)
  | .listing => (folder, session.afterListing now (keys luck session.base folder))
  | .reading key suffix pass =>
    (folder, session.afterReading now key suffix pass (get luck key folder))
  | .dropping key payload pass stage =>
    match ({ key, payload } : Removal).step luck stage folder with
    | (.done _, folder) => (folder, session.afterDropping now pass)
    | (stage, folder) => (folder, session, .dropping key payload pass stage)
  | .counting => (folder, session.afterCounting now (size luck session.base folder))
  | task => (folder, session, task)

/-- The luck of a whole call of the queue. -/
structure Chances where
  look : Luck
  removal : Removal.Chances
  put : Put.Chances
  deriving DecidableEq, Repr

def Chances.fine : Chances :=
  ⟨.fine, .fine, .fine⟩

/-- The whole call of the queue that the task waits for, nobody else acting meanwhile.  A call
that has begun cannot be taken as a whole. -/
def callStep (session : Session) (now : Nat) (chances : Chances) (folder : Folder)
    (task : Task) : Folder × Session × Task :=
  match task with
  | .clearing snapshot .comparing =>
    let (_, folder) := (session.removalOf snapshot).run chances.removal folder
    (folder, session.afterClearing now snapshot)
  | .keeping snapshot stamp .making =>
    let (answer, folder) := (session.putOf snapshot stamp).run chances.put folder
    (folder, session.afterKeeping now snapshot answer)
  | .listing => session.fileStep now chances.look folder .listing
  | .reading key suffix pass => session.fileStep now chances.look folder (.reading key suffix pass)
  | .dropping key payload pass .comparing =>
    let (_, folder) := ({ key, payload } : Removal).run chances.removal folder
    (folder, session.afterDropping now pass)
  | .counting => session.fileStep now chances.look folder .counting
  | task => (folder, session, task)

end Session

end Scorekeeper.Save
