import Scorekeeper.Queue.Key

/-!
# Writing an entry

A payload is written in steps: make the folder, write a temporary file, and
rename it over the entry.  Other processes may act between the steps, so the call
is given as a stage together with what the next step does to the folder; the call
as a whole takes the steps one after the other.  When the renaming fails the
temporary file is deleted again.
-/

namespace Scorekeeper.Queue

open Files

/-- One call: the key, what to write under it, and the stamp of the temporary file. -/
structure Put where
  key : String
  payload : String
  stamp : Stamp
  deriving DecidableEq, Repr

namespace Put

/-- What a call does next, or what it has answered. -/
inductive Stage where
  | making
  | writing
  | renaming
  | discarding
  | done (answer : Except QueueError String)

def init (put : Put) : Stage :=
  if isSafeKey put.key.toList then .making else .done (.error (.invalidKey put.key))

/-- The next step of a call; a call that has answered does nothing. -/
def step (put : Put) (luck : Luck) (stage : Stage) (folder : Folder) : Stage × Folder :=
  match stage with
  | .making =>
    match folder.makeFolder luck with
    | (.ok (), folder) => (.writing, folder)
    | (.error _, folder) => (.done (.error (.io .folder)), folder)
  | .writing =>
    match folder.writeFile luck (temporaryName put.key put.stamp) put.payload.toByteArray with
    | (.ok (), folder) => (.renaming, folder)
    | (.error _, folder) => (.done (.error (.io (.temporary put.key put.stamp))), folder)
  | .renaming =>
    match folder.rename luck (temporaryName put.key put.stamp) (entryName put.key) with
    | (.ok (), folder) => (.done (.ok put.key), folder)
    | (.error _, folder) => (.discarding, folder)
  | .discarding =>
    (.done (.error (.io (.entry put.key))),
      (folder.deleteFile luck (temporaryName put.key put.stamp)).2)
  | .done answer => (.done answer, folder)

/-- The luck of each step of a call. -/
structure Chances where
  make : Luck
  write : Luck
  rename : Luck
  discard : Luck
  deriving DecidableEq, Repr

def Chances.fine : Chances :=
  ⟨.fine, .fine, .fine, .fine⟩

def Chances.at (chances : Chances) : Stage → Luck
  | .making => chances.make
  | .writing => chances.write
  | .renaming => chances.rename
  | .discarding => chances.discard
  | .done _ => .fine

def stepAt (put : Put) (chances : Chances) (state : Stage × Folder) : Stage × Folder :=
  put.step (chances.at state.1) state.1 state.2

def answer (put : Put) : Stage → Except QueueError String
  | .done answer => answer
  | _ => .ok put.key

/-- The whole call, nobody else acting meanwhile. -/
def run (put : Put) (chances : Chances) (folder : Folder) : Except QueueError String × Folder :=
  let step := put.stepAt chances
  let (stage, folder) := step (step (step (step (put.init, folder))))
  (put.answer stage, folder)

end Put

end Scorekeeper.Queue
