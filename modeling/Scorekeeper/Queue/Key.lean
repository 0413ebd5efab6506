import Scorekeeper.Files.Folder
import Scorekeeper.Text.Affix
import Scorekeeper.Text.Numeral

/-!
# Keys of queued payloads

An entry is kept under the key `BASE.SUFFIX` in the file `BASE.SUFFIX.json`.  A
payload is first written to a temporary file, whose name begins with a point and
holds the process and a serial number, so that no two writers share one.  Keys
that would lead out of the folder are refused.
-/

namespace Scorekeeper.Queue

open Text Files

def keyFor (base suffix : String) : String :=
  base ++ "." ++ suffix

/-- The suffix of a key made from `base`, if it is not empty. -/
def suffixOf (base key : String) : Option String :=
  match dropHead (base ++ ".").toList key.toList with
  | some [] => none
  | some suffix => some (.ofList suffix)
  | none => none

/-- Whether the file of a key stays in the folder, and is not hidden. -/
def isSafeKey (cs : List Char) : Bool :=
  !cs.isEmpty && cs.head? != some '.' && !cs.contains '/' && !cs.contains '\\' && !hasDoubleDot cs

/-- Whether a setting will do as the base of keys. -/
def isBaseKey (cs : List Char) : Bool :=
  !cs.isEmpty && cs.all fun c => c != '/' && c != '\\' && c != '.'

def entryText (key : String) : String :=
  key ++ ".json"

def entryName (key : String) : FileName :=
  (entryText key).toByteArray

/-- The key that a file is the entry of, if its name is a text that ends like one. -/
def keyOfName (name : FileName) : Option String :=
  (String.fromUTF8? name).bind fun text => (dropTail ".json".toList text.toList).map .ofList

/-- The key of a file that is an entry of the queue with this base. -/
def listedKey (base : String) (name : FileName) : Option String :=
  (keyOfName name).filter fun key => (suffixOf base key).isSome

/-- Tells the temporary files of different writers apart. -/
structure Stamp where
  process : UInt32
  serial : UInt64
  deriving DecidableEq, Repr

def temporaryText (key : String) (stamp : Stamp) : String :=
  "." ++ key ++ ".tmp." ++ String.ofList (digits stamp.process.toNat) ++ "."
    ++ String.ofList (digits stamp.serial.toNat)

def temporaryName (key : String) (stamp : Stamp) : FileName :=
  (temporaryText key stamp).toByteArray

/-- The file or folder that a failed call was about. -/
inductive Place where
  | folder
  | entry (key : String)
  | temporary (key : String) (stamp : Stamp)
  deriving DecidableEq, Repr

namespace Place

/-- The path of a place, given that of the queue folder. -/
def path (folder : String) : Place → String
  | .folder => folder
  | .entry key => folder ++ "/" ++ entryText key
  | .temporary key stamp => folder ++ "/" ++ temporaryText key stamp

end Place

inductive QueueError where
  | invalidKey (key : String)
  | io (place : Place)
  deriving DecidableEq, Repr

namespace QueueError

/-- The wording, given the path of the queue folder. -/
def message (folder : String) : QueueError → String
  | .invalidKey key => s!"invalid fallback queue key `{key}`"
  | .io place => s!"fallback queue I/O failed for `{place.path folder}`"

end QueueError

end Scorekeeper.Queue
