import Scorekeeper.Rehearsal.Result

/-!
# Commands on the queue

A rehearsal may call the queue directly, and it may act on the folder the way
another process would: plant files and folders in it, or put a file in its place.
-/

namespace Scorekeeper.Rehearsal

open Queue Files

inductive QueueCommand where
  | keyFor (suffix : String)
  | suffixOf (key : String)
  | put (suffix payload : String)
  | get (key : String)
  | remove (key : String)
  | removeIf (key payload : String)
  | keys
  | size
  | plantFile (name : FileName) (content : ByteArray)
  | plantFolder (name : FileName)
  /-- Deletes the folder and puts a file in its place. -/
  | block
  /-- Deletes the file in the place of the folder. -/
  | unblock
  | names

namespace QueueCommand

/-- Puts an empty folder into the queue folder, unless the name is taken. -/
def plantFolderIn (name : FileName) (folder : Folder) : Folder :=
  match folder.resolve name with
  | .error _ => folder
  | .ok entries =>
    match entries.get? name with
    | some _ => folder
    | none => .present (entries.put name .folder)

def unblocked : Folder → Folder
  | .blocked => .absent
  | folder => folder

def run (base : String) (stamp : Stamp) (folder : Folder) : QueueCommand → Result × Folder
  | .keyFor suffix => (.text (Queue.keyFor base suffix), folder)
  | .suffixOf key => (.text (Queue.suffixOf base key), folder)
  | .put suffix payload =>
    let call : Put := { key := Queue.keyFor base suffix, payload, stamp }
    let (answer, folder) := call.run .fine folder
    (.ofQueue (fun key => .text (some key)) answer, folder)
  | .get key => (.ofQueue .text (Queue.get .fine key folder), folder)
  | .remove key =>
    let (answer, folder) := Queue.remove .fine key folder
    (.ofQueue .flag answer, folder)
  | .removeIf key payload =>
    let (answer, folder) := ({ key, payload } : Removal).run .fine folder
    (.ofQueue .flag answer, folder)
  | .keys => (.ofQueue .texts (Queue.keys .fine base folder), folder)
  | .size => (.ofQueue .size (Queue.size .fine base folder), folder)
  | .plantFile name content =>
    (.nothing, ((folder.makeFolder .fine).2.writeFile .fine name content).2)
  | .plantFolder name => (.nothing, plantFolderIn name (folder.makeFolder .fine).2)
  | .block => (.nothing, .blocked)
  | .unblock => (.nothing, unblocked folder)
  | .names => (.names ((folder.listNames .fine).toOption.getD []), folder)

end QueueCommand

end Scorekeeper.Rehearsal
