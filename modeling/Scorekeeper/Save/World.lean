import Scorekeeper.Save.Session

/-!
# Sessions side by side

Any number of sessions share a queue folder and a store, and any number of tasks
run in each.  An event is one step of one of them.  Tasks may be stepped one call
of the file system at a time, or one call of the queue at a time; the store
answers whenever it likes.
-/

namespace Scorekeeper.Save

open Queue Remote Files

/-- A task and the session that it belongs to. -/
structure Job (n : Nat) where
  session : Fin n
  task : Task

/-- An upload that the store has answered. -/
structure Upload where
  path : String
  payload : String
  accepted : Bool
  deriving DecidableEq, Repr

structure World (n : Nat) where
  folder : Folder
  sessions : Vector Session n
  /-- Every task ever started, in order. -/
  jobs : List (Job n)
  /-- The documents of the store by path. -/
  documents : List (String × String)
  /-- Every upload that was answered, in order. -/
  uploads : List Upload
  /-- Milliseconds. -/
  now : Nat
  /-- The number of the next temporary file. -/
  serial : UInt64

inductive Event (n : Nat) where
  | save (session : Fin n) (snapshot : Snapshot)
  | retry (session : Fin n)
  | resume (session : Fin n)
  | schedule (session : Fin n)
  | cancel (session : Fin n)
  /-- A timer of the session expires. -/
  | expire (session : Fin n) (generation : UInt64)
  /-- The store answers the upload of a job. -/
  | answer (job : Nat) (result : Except StorageError Unit)
  /-- A job makes its next call of the file system. -/
  | file (job : Nat) (luck : Luck)
  /-- A job makes its next call of the queue. -/
  | call (job : Nat) (chances : Session.Chances)
  /-- Time goes by. -/
  | wait (duration : Nat)

/-- Puts a document in the place of the one at the same path, if there is one. -/
def putDocument (path text : String) : List (String × String) → List (String × String)
  | [] => [(path, text)]
  | (other, old) :: rest =>
    if other = path then (path, text) :: rest else (other, old) :: putDocument path text rest

/-- The session of a world that has no other. -/
def sole : Fin 1 :=
  Fin.last 0

namespace World

variable {n : Nat}

def new (folder : Folder) (sessions : Vector Session n) : World n :=
  { folder, sessions, jobs := [], documents := [], uploads := [], now := 0, serial := 0 }

def setSession (world : World n) (i : Fin n) (session : Session) : World n :=
  { world with sessions := world.sessions.set i session }

/-- Starts a task in a session. -/
def launch (world : World n) (i : Fin n) (start : Session × Task) : World n :=
  let world := world.setSession i start.1
  { world with jobs := world.jobs ++ [{ session := i, task := start.2 }] }

/-- Puts a task on after a move of its session. -/
def proceed (world : World n) (job : Nat) (i : Fin n) (move : Folder × Session × Task) :
    World n :=
  let world := world.setSession i move.2.1
  { world with
    folder := move.1
    jobs := world.jobs.set job { session := i, task := move.2.2 } }

def record (world : World n) (path payload : String) (accepted : Bool) : World n :=
  { world with
    uploads := world.uploads ++ [{ path, payload, accepted }]
    documents :=
      if accepted then putDocument path payload world.documents else world.documents }

/-- The store answers the upload that a job waits for. -/
def answer (world : World n) (job : Nat) (result : Except StorageError Unit) : World n :=
  match world.jobs[job]? with
  | none => world
  | some { session := i, task } =>
    match task.upload? with
    | none => world
    | some (key, payload) =>
      let session := world.sessions.get i
      let stamp := { process := session.process, serial := world.serial }
      let move := session.afterUpload world.now stamp result task
      let world := world.record key.path payload result.isOk
      { world.proceed job i (world.folder, move) with serial := world.serial + 1 }

def step (world : World n) : Event n → World n
  | .save i snapshot => world.launch i ((world.sessions.get i).beginSave snapshot)
  | .retry i => world.launch i (world.sessions.get i).beginPass
  | .resume i => world.launch i (world.sessions.get i, .counting)
  | .schedule i => world.setSession i ((world.sessions.get i).schedule world.now)
  | .cancel i => world.setSession i (world.sessions.get i).cancel.2
  | .expire i generation =>
    let session := world.sessions.get i
    match session.alarm.expire generation with
    | (true, alarm) => world.launch i { session with alarm }.beginPass
    | (false, alarm) => world.setSession i { session with alarm }
  | .answer job result => world.answer job result
  | .file job luck =>
    match world.jobs[job]? with
    | none => world
    | some { session := i, task } =>
      world.proceed job i ((world.sessions.get i).fileStep world.now luck world.folder task)
  | .call job chances =>
    match world.jobs[job]? with
    | none => world
    | some { session := i, task } =>
      world.proceed job i ((world.sessions.get i).callStep world.now chances world.folder task)
  | .wait duration => { world with now := world.now + duration }

def run (world : World n) (events : List (Event n)) : World n :=
  events.foldl step world

end World

end Scorekeeper.Save
