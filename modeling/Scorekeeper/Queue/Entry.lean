import Scorekeeper.Sorting.Bytes
import Scorekeeper.Sorting.Insertion
import Scorekeeper.Queue.Put

/-!
# Reading, listing and removing entries

An entry that is missing is no failure: another process may have dealt with it.
Removing an entry only if it still holds a known payload takes two steps, reading
it and deleting it.
-/

namespace Scorekeeper.Queue

open Files Sorting

/-- The payload under a key, `none` when there is no entry. -/
def get (luck : Luck) (key : String) (folder : Folder) : Except QueueError (Option String) :=
  if isSafeKey key.toList then
    match folder.readText luck (entryName key) with
    | .ok payload => .ok (some payload)
    | .error .notFound => .ok none
    | .error .other => .error (.io (.entry key))
  else .error (.invalidKey key)

/-- Deletes the entry of a key; tells whether there was one. -/
def remove (luck : Luck) (key : String) (folder : Folder) : Except QueueError Bool × Folder :=
  if isSafeKey key.toList then
    match folder.deleteFile luck (entryName key) with
    | (.ok (), folder) => (.ok true, folder)
    | (.error .notFound, folder) => (.ok false, folder)
    | (.error .other, folder) => (.error (.io (.entry key)), folder)
  else (.error (.invalidKey key), folder)

/-- Removing the entry of `key` if it still holds `payload`. -/
structure Removal where
  key : String
  payload : String
  deriving DecidableEq, Repr

namespace Removal

inductive Stage where
  | comparing
  | deleting
  | done (answer : Except QueueError Bool)

def step (removal : Removal) (luck : Luck) (stage : Stage) (folder : Folder) : Stage × Folder :=
  match stage with
  | .comparing =>
    match get luck removal.key folder with
    | .error e => (.done (.error e), folder)
    | .ok current =>
      if current = some removal.payload then (.deleting, folder) else (.done (.ok false), folder)
  | .deleting =>
    let (answer, folder) := remove luck removal.key folder
    (.done answer, folder)
  | .done answer => (.done answer, folder)

/-- The luck of each step of a call. -/
structure Chances where
  compare : Luck
  delete : Luck
  deriving DecidableEq, Repr

def Chances.fine : Chances :=
  ⟨.fine, .fine⟩

/-- The whole call, nobody else acting meanwhile. -/
def run (removal : Removal) (chances : Chances) (folder : Folder) :
    Except QueueError Bool × Folder :=
  match removal.step chances.compare .comparing folder with
  | (.done answer, folder) => (answer, folder)
  | (_, folder) => remove chances.delete removal.key folder

end Removal

/-- Every key of the queue with this base, in ascending order of bytes. -/
def keys (luck : Luck) (base : String) (folder : Folder) : Except QueueError (List String) :=
  match folder.listNames luck with
  | .ok names => .ok (sort textLe (names.filterMap (listedKey base)))
  | .error .notFound => .ok []
  | .error .other => .error (.io .folder)

/-- The number of entries. -/
def size (luck : Luck) (base : String) (folder : Folder) : Except QueueError Nat :=
  (keys luck base folder).map List.length

/-- Whether there is no entry. -/
def isEmpty (luck : Luck) (base : String) (folder : Folder) : Except QueueError Bool :=
  (size luck base folder).map (· == 0)

end Scorekeeper.Queue
