import Scorekeeper.Json.Basic

/-!
# Values to be written

A value is taken apart before it is written: into lists, into records with names of
their own, and into maps, whose keys are values again.  The members of a document
are named by text, so a map can be written only if each of its keys has a name.
-/

namespace Scorekeeper.Json

/-- A value that has been taken apart. -/
inductive Datum where
  /-- A value that is written as it stands. -/
  | plain (value : Json)
  /-- One of finitely many values that have names. -/
  | choice (name : String)
  | list (items : List Datum)
  | record (fields : List (String × Datum))
  | map (entries : List (Datum × Datum))

/-- Why a value cannot be written. -/
inductive Obstacle where
  /-- A key of a map has no name. -/
  | namelessKey
  deriving DecidableEq, Repr

def Obstacle.message : Obstacle → String
  | .namelessKey => "key must be a string"

namespace Datum

/-- The name of the member whose key is the value. -/
def name? : Datum → Option String
  | .choice name => some name
  | .plain (.str text) => some text
  | .plain (.bool value) => some (Json.bool value).text
  | .plain (.int n) => some (Json.int n).text
  | .plain (.real numeral) => some (Json.real numeral).text
  | _ => none

mutual

/-- The document value that is written. -/
def json : Datum → Except Obstacle Json
  | .plain value => .ok value
  | .choice name => .ok (.str name)
  | .list items => (jsonItems items).map .arr
  | .record fields => (jsonFields fields).map .obj
  | .map entries => (jsonEntries entries).map .obj

def jsonItems : List Datum → Except Obstacle (List Json)
  | [] => .ok []
  | item :: items => do
    let value ← json item
    let values ← jsonItems items
    return value :: values

def jsonFields : List (String × Datum) → Except Obstacle (List (String × Json))
  | [] => .ok []
  | (name, field) :: fields => do
    let value ← json field
    let members ← jsonFields fields
    return (name, value) :: members

def jsonEntries : List (Datum × Datum) → Except Obstacle (List (String × Json))
  | [] => .ok []
  | (key, value) :: entries =>
    match key.name? with
    | none => .error .namelessKey
    | some name => do
      let value ← json value
      let members ← jsonEntries entries
      return (name, value) :: members

end

end Datum

end Scorekeeper.Json
