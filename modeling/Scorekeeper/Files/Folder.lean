/-!
# The queue folder

The queue keeps its entries as files of one folder, which other processes may
use at the same time.  A `Folder` is what stands at its place on disk, and each
operation here is one call of the file system.  Any call may fail for reasons
that the folder does not show, and a write may stop half-way; its `Luck` says
which.
-/

namespace Scorekeeper.Files

/-- File names are bytes; most of them are the bytes of a text. -/
abbrev FileName := ByteArray

instance : DecidableEq FileName :=
  ByteArray.instDecidableEq

/-- The longest file name in bytes. -/
def nameLimit : Nat := 255

/-- No path has this many bytes. -/
def pathLimit : Nat := 4096

/-- The bytes in front of the names in the paths of the files of a folder.  They leave room for
every name that a file can have. -/
structure PathHead where
  size : Nat
  fits : size + nameLimit < pathLimit

/-- The folder `pending` of a temporary folder. -/
def PathHead.temporary : PathHead where
  size := "/tmp/.tmp______/pending/".utf8ByteSize
  fits := by decide

theorem PathHead.size_temporary : temporary.size = 24 := rfl

inductive Node where
  | file (content : ByteArray)
  | folder
  deriving DecidableEq

/-- The files and folders of a folder, each name once. -/
structure Entries where
  list : List (FileName × Node)
  nodup : (list.map Prod.fst).Nodup

namespace Entries

def empty : Entries where
  list := []
  nodup := .nil

def find (name : FileName) : List (FileName × Node) → Option Node
  | [] => none
  | (other, node) :: rest => if other = name then some node else find name rest

def get? (entries : Entries) (name : FileName) : Option Node :=
  find name entries.list

def names (entries : Entries) : List FileName :=
  entries.list.map Prod.fst

def without (name : FileName) (list : List (FileName × Node)) : List (FileName × Node) :=
  list.filter fun entry => decide (entry.1 ≠ name)

theorem nodup_without {name : FileName} {list : List (FileName × Node)}
    (h : (list.map Prod.fst).Nodup) : ((without name list).map Prod.fst).Nodup :=
  h.sublist (List.filter_sublist.map _)

theorem not_mem_without (name : FileName) (list : List (FileName × Node)) :
    name ∉ (without name list).map Prod.fst := by
  simp [without]

def erase (entries : Entries) (name : FileName) : Entries where
  list := without name entries.list
  nodup := nodup_without entries.nodup

def put (entries : Entries) (name : FileName) (node : Node) : Entries where
  list := (name, node) :: without name entries.list
  nodup := List.nodup_cons.2 ⟨not_mem_without name entries.list, nodup_without entries.nodup⟩

theorem find_without (name other : FileName) (list : List (FileName × Node)) :
    find other (without name list) = if other = name then none else find other list := by
  induction list with
  | nil => simp [without, find]
  | cons entry list ih =>
    obtain ⟨first, node⟩ := entry
    simp only [without] at ih
    by_cases hf : first = name
    · subst hf
      by_cases ho : other = first
      · subst ho; simpa [without, find] using ih
      · have hne : first ≠ other := fun e => ho e.symm
        simpa [without, find, ho, hne] using ih
    · by_cases ho : other = name
      · subst ho; simpa [without, find, hf] using ih
      · by_cases hfo : first = other
        · subst hfo; simp [without, find, hf]
        · simpa [without, find, hf, hfo, ho] using ih

theorem get?_erase (entries : Entries) (name other : FileName) :
    (entries.erase name).get? other = if other = name then none else entries.get? other :=
  find_without name other entries.list

theorem get?_put (entries : Entries) (name other : FileName) (node : Node) :
    (entries.put name node).get? other
      = if other = name then some node else entries.get? other := by
  by_cases h : other = name
  · subst h; simp [get?, put, find]
  · have hne : name ≠ other := fun e => h e.symm
    simp [get?, put, find, find_without, h, hne]

theorem mem_names_iff (entries : Entries) (name : FileName) :
    name ∈ entries.names ↔ (entries.get? name).isSome := by
  obtain ⟨list, nodup⟩ := entries
  simp only [names, get?]
  clear nodup
  induction list with
  | nil => simp [find]
  | cons entry list ih =>
    by_cases h : entry.1 = name
    · simp [find, h]
    · have hne : name ≠ entry.1 := fun e => h e.symm
      simpa [find, h, hne] using ih

end Entries

/-- What stands in the place of the queue folder. -/
inductive Folder where
  /-- Nothing is in its place; a name is too long here only if its whole path is. -/
  | absent (head : PathHead := .temporary)
  /-- A regular file is in its place. -/
  | blocked
  | present (entries : Entries)

inductive FileError where
  | notFound
  | other
  deriving DecidableEq, Repr

/-- What befalls a call of the file system. -/
inductive Luck where
  | fine
  | fails
  /-- A write ends after so many bytes. -/
  | stops (written : Nat)
  deriving DecidableEq, Repr

namespace Folder

def get? (folder : Folder) (name : FileName) : Option Node :=
  match folder with
  | .present entries => entries.get? name
  | _ => none

/-- Whether no file can have this name, wherever it is looked for: names hold no zero byte and no
slash, are not empty, and one or two points alone stand for folders. -/
def isImpossible (name : FileName) : Bool :=
  (name.data.toList.any fun b => b == 0 || b == 0x2F)
    || ["", ".", ".."].any fun other => name == other.toByteArray

/-- The entries among which `name` is looked up. -/
def resolve (folder : Folder) (name : FileName) : Except FileError Entries :=
  if isImpossible name then .error .other
  else
    match folder with
    | .absent head => .error (if pathLimit ≤ head.size + name.size then .other else .notFound)
    | .blocked => .error .other
    | .present entries => if nameLimit < name.size then .error .other else .ok entries

/-- Whether nothing is in the place of the folder. -/
def IsAbsent (folder : Folder) : Prop :=
  ∃ head, folder = .absent head

/-- Makes the folder unless it is there. -/
def makeFolder (luck : Luck) (folder : Folder) : Except FileError Unit × Folder :=
  match luck, folder with
  | .fine, .absent _ => (.ok (), .present .empty)
  | .fine, .present entries => (.ok (), .present entries)
  | _, folder => (.error .other, folder)

/-- Reads a file as text. -/
def readText (luck : Luck) (name : FileName) (folder : Folder) : Except FileError String :=
  if luck ≠ .fine then .error .other
  else
    match folder.resolve name with
    | .error e => .error e
    | .ok entries =>
      match entries.get? name with
      | none => .error .notFound
      | some .folder => .error .other
      | some (.file content) =>
        match String.fromUTF8? content with
        | some text => .ok text
        | none => .error .other

/-- Creates or empties a file and writes `content` to it. -/
def writeFile (luck : Luck) (name : FileName) (content : ByteArray) (folder : Folder) :
    Except FileError Unit × Folder :=
  match folder.resolve name with
  | .error e => (.error e, folder)
  | .ok entries =>
    match entries.get? name with
    | some .folder => (.error .other, folder)
    | _ =>
      match luck with
      | .fine => (.ok (), .present (entries.put name (.file content)))
      | .fails => (.error .other, folder)
      | .stops n => (.error .other, .present (entries.put name (.file (content.extract 0 n))))

/-- Gives the file `source` the name `target`, in the place of a file that has it.  Nobody sees a
state in between. -/
def rename (luck : Luck) (source target : FileName) (folder : Folder) :
    Except FileError Unit × Folder :=
  if luck ≠ .fine then (.error .other, folder)
  else
    match folder.resolve source, folder.resolve target with
    | .error e, _ => (.error e, folder)
    | .ok _, .error e => (.error e, folder)
    | .ok entries, .ok _ =>
      match entries.get? source, entries.get? target with
      | none, _ => (.error .notFound, folder)
      | some _, some .folder => (.error .other, folder)
      | some node, _ => (.ok (), .present ((entries.erase source).put target node))

/-- Deletes a file. -/
def deleteFile (luck : Luck) (name : FileName) (folder : Folder) :
    Except FileError Unit × Folder :=
  if luck ≠ .fine then (.error .other, folder)
  else
    match folder.resolve name with
    | .error e => (.error e, folder)
    | .ok entries =>
      match entries.get? name with
      | none => (.error .notFound, folder)
      | some .folder => (.error .other, folder)
      | some (.file _) => (.ok (), .present (entries.erase name))

/-- The names in the folder, in no particular order. -/
def listNames (luck : Luck) (folder : Folder) : Except FileError (List FileName) :=
  match luck, folder with
  | .fine, .absent _ => .error .notFound
  | .fine, .present entries => .ok entries.names
  | _, _ => .error .other

end Folder

end Scorekeeper.Files
