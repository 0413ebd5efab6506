import Scorekeeper.Json.Record
import Scorekeeper.Text.Blank

/-!
# Requests

The bodies of requests, and what may be wrong with them beyond their form.  A
request is checked field by field, and every defect is reported under the name of
its field.
-/

namespace Scorekeeper.Service

open Json Text

def maxPassphraseLength : Nat := 256

def maxNameLength : Nat := 64

def maxStartingPlayers : Nat := 16

def maxNotesLength : Nat := 4000

def maxQualifiers : Nat := 16

/-- What is wrong with a field of a request. -/
inductive Defect where
  /-- The number is not between the bounds. -/
  | range (min max value : Int)
  /-- The number of characters is not between the bounds. -/
  | length (min : Option Nat) (max : Nat) (value : String)
  | blankCourseId
  | tooManyPlayers (count : Nat)
  | unfitPlayerName
  | tooManyQualifiers (count : Nat) (value : String)
  | controlQualifier (value : String)
  deriving DecidableEq, Repr

namespace Defect

def code : Defect → String
  | .range _ _ _ => "range"
  | .length _ _ _ => "length"
  | .blankCourseId => "course_id_empty"
  | .tooManyPlayers _ => "player_names_count"
  | .unfitPlayerName => "player_names_length"
  | .tooManyQualifiers _ _ => "qualifiers_length"
  | .controlQualifier _ => "qualifiers_format"

def message : Defect → Option String
  | .range _ _ _ => none
  | .length _ _ _ => none
  | .blankCourseId => some "Course ID must not be empty"
  | .tooManyPlayers count =>
      some s!"At most {maxStartingPlayers} players are allowed (got {count})"
  | .unfitPlayerName => some "Player names must be between 1 and 64 characters"
  | .tooManyQualifiers count _ =>
      some s!"At most {maxQualifiers} qualifiers are allowed per hole (got {count})"
  | .controlQualifier _ => some "Qualifiers must be printable characters"

/-- The bounds and the value that the defect is about. -/
def params : Defect → List (String × Json)
  | .range min max value => [("min", .int min), ("max", .int max), ("value", .int value)]
  | .length min max value =>
      (min.map fun n => ("min", Json.ofNat n)).toList
        ++ [("max", .ofNat max), ("value", .str value)]
  | .tooManyQualifiers _ value => [("value", .str value)]
  | .controlQualifier value => [("value", .str value)]
  | _ => []

end Defect

/-- The defects of a request, by field; fields without one are left out. -/
abbrev Defects := List (String × List Defect)

def onField (field : String) (defects : List Defect) : Defects :=
  if defects.isEmpty then [] else [(field, defects)]

def checkRange (min max value : Int) : List Defect :=
  if min ≤ value ∧ value ≤ max then [] else [.range min max value]

/-- Characters are counted before any trimming. -/
def checkLength (min : Option Nat) (max : Nat) (value : String) : List Defect :=
  let n := value.toList.length
  if min.getD 0 ≤ n ∧ n ≤ max then [] else [.length min max value]

/-- At most one defect of the marks of a score: too many, or one that cannot be printed.  Blanks
do not count, but control characters that are blank are refused all the same. -/
def qualifierDefect (value : String) : Option Defect :=
  let count := (value.toList.filter fun c => !isBlank c).length
  if maxQualifiers < count then some (.tooManyQualifiers count value)
  else if value.toList.any isControl then some (.controlQualifier value)
  else none

structure OpenUserspace where
  passphrase : String
  deriving DecidableEq, Repr

namespace OpenUserspace

def codec : Codec OpenUserspace :=
  ((Record.of OpenUserspace.mk)
    |>.field "passphrase" .text passphrase).codec

def defects (request : OpenUserspace) : Defects :=
  onField "passphrase" (checkLength (some 1) maxPassphraseLength request.passphrase)

end OpenUserspace

structure CreateCard where
  courseId : String
  playerNames : List String
  deriving DecidableEq, Repr

namespace CreateCard

def codec : Codec CreateCard :=
  ((Record.of CreateCard.mk)
    |>.field "course_id" .text courseId
    |>.fieldOr "player_names" (.list .text) [] playerNames).codec

def isFitName (name : String) : Bool :=
  !(trim name).isEmpty && decide (name.toList.length ≤ maxNameLength)

def nameDefects (names : List String) : List Defect :=
  (if maxStartingPlayers < names.length then [.tooManyPlayers names.length] else [])
    ++ (if names.all isFitName then [] else [.unfitPlayerName])

def defects (request : CreateCard) : Defects :=
  onField "course_id" (if (trim request.courseId).isEmpty then [.blankCourseId] else [])
    ++ onField "player_names" (nameDefects request.playerNames)

end CreateCard

structure SetScore where
  value : Int
  qualifiers : String
  deriving DecidableEq, Repr

namespace SetScore

def codec : Codec SetScore :=
  ((Record.of SetScore.mk)
    |>.field "value" .signed64 value
    |>.fieldOr "qualifiers" .text "" qualifiers).codec

def defects (request : SetScore) : Defects :=
  onField "value" (checkRange 0 999 request.value)
    ++ onField "qualifiers" (qualifierDefect request.qualifiers).toList

end SetScore

structure SetPar where
  value : Int
  deriving DecidableEq, Repr

namespace SetPar

def codec : Codec SetPar :=
  ((Record.of SetPar.mk)
    |>.field "value" .signed64 value).codec

def defects (request : SetPar) : Defects :=
  onField "value" (checkRange 0 999 request.value)

end SetPar

structure AddPlayer where
  name : Option String
  deriving DecidableEq, Repr

namespace AddPlayer

def codec : Codec AddPlayer :=
  ((Record.of AddPlayer.mk)
    |>.fieldOption "name" .text name).codec

def defects (request : AddPlayer) : Defects :=
  onField "name"
    (match request.name with
     | some name => checkLength (some 1) maxNameLength name
     | none => [])

end AddPlayer

structure RenamePlayer where
  name : String
  deriving DecidableEq, Repr

namespace RenamePlayer

def codec : Codec RenamePlayer :=
  ((Record.of RenamePlayer.mk)
    |>.field "name" .text name).codec

def defects (request : RenamePlayer) : Defects :=
  onField "name" (checkLength (some 1) maxNameLength request.name)

end RenamePlayer

structure SetNotes where
  notes : String
  deriving DecidableEq, Repr

namespace SetNotes

def codec : Codec SetNotes :=
  ((Record.of SetNotes.mk)
    |>.field "notes" .text notes).codec

def defects (request : SetNotes) : Defects :=
  onField "notes" (checkLength none maxNotesLength request.notes)

end SetNotes

end Scorekeeper.Service
