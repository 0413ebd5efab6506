import Scorekeeper.Json.Record
import Scorekeeper.Queue.Key
import Scorekeeper.Text.Blank

/-!
# Configuration

The settings come from a file of the document format.  A file that is missing or
cannot be read leaves the defaults, and so does each setting that is missing or
will not do.
-/

namespace Scorekeeper

open Json Text

structure Config where
  /-- Seconds between a failed save and the next pass over the queue. -/
  retrySeconds : UInt64
  queueFolder : String
  /-- The base of the keys of queued payloads. -/
  baseKey : String
  baseKey_ok : Queue.isBaseKey baseKey.toList = true

namespace Config

def default : Config where
  retrySeconds := 15
  queueFolder := "data/pending"
  baseKey := "scorecard"
  baseKey_ok := by decide

/-- The settings as written. -/
structure Draft where
  retrySeconds : Option UInt64
  queueFolder : Option String
  baseKey : Option String
  deriving DecidableEq, Repr

def Draft.codec : Codec Draft :=
  ((Record.of Draft.mk)
    |>.fieldOption "retry_interval_secs" .word64 Draft.retrySeconds
    |>.fieldOption "queue_dir" .text Draft.queueFolder
    |>.fieldOption "queue_base_key" .text Draft.baseKey).codec

/-- Sets the base key to a text, trimmed, if that will do. -/
def withBaseKey (config : Config) (key : String) : Config :=
  if h : Queue.isBaseKey (trim key).toList = true then
    { config with baseKey := trim key, baseKey_ok := h }
  else config

/-- No timer runs for more seconds than this: thirty years of 365 days. -/
def longestWait : Nat := 946080000

/-- Milliseconds between a failed save and the next pass. -/
def retryMillis (config : Config) : Nat :=
  1000 * min config.retrySeconds.toNat longestWait

/-- The defaults with the settings of a draft; a retry interval of zero will not do. -/
def ofDraft (draft : Draft) : Config :=
  let config := { default with
    retrySeconds := if draft.retrySeconds.getD 0 = 0 then 15 else draft.retrySeconds.getD 0
    queueFolder := draft.queueFolder.getD default.queueFolder }
  match draft.baseKey with
  | some key => config.withBaseKey key
  | none => config

/-- The configuration that a file holds; `none` stands for a file that cannot be read. -/
def ofFile (content : Option ByteArray) : Config :=
  match content.bind String.fromUTF8? with
  | none => default
  | some text =>
    match Draft.codec.readText text with
    | .ok draft => ofDraft draft
    | .error _ => default

/-- The path of the configuration file, given the variable that may override it. -/
def path (override : Option String) : String :=
  match override with
  | some path => if path.isEmpty then "config/app.json" else path
  | none => "config/app.json"

/-- Loads the configuration with the help of a function that reads a file. -/
def load (override : Option String) (readFile : String → Option ByteArray) : Config :=
  ofFile (readFile (path override))

/-- The parts of a path that matter: empty parts and single points count for nothing, except a
point at the start of a relative path. -/
def pathParts (path : String) : Bool × List (List Char) :=
  let parts := split '/' path.toList
  let isRooted := path.toList.head? == some '/'
  match parts with
  | first :: rest =>
    let rest := rest.filter fun part => !part.isEmpty && part != ['.']
    (isRooted, if first.isEmpty then rest else first :: rest)
  | [] => (isRooted, [])

/-- Whether these are the default settings; paths are compared by their parts. -/
def isDefault (config : Config) : Bool :=
  config.retrySeconds == default.retrySeconds
    && config.baseKey == default.baseKey
    && pathParts config.queueFolder == pathParts default.queueFolder

end Config

end Scorekeeper
