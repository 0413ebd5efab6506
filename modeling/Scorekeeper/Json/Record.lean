import Scorekeeper.Json.Codec

/-!
# Records

A record is written as an object with its fields in their order.  It is read from
an object whose members come in any order, or from a list of its fields.  Each
field looks for its own member, so the fields are read independently; every
problem is found together with its place, and the one that comes first in the
text is the one reported.
-/

namespace Scorekeeper.Json

/-- A problem, and the number of entries before it. -/
structure Finding where
  place : Nat
  problem : Problem
  deriving DecidableEq, Repr

namespace Finding

def earlier (a b : Finding) : Finding :=
  if b.place < a.place then b else a

end Finding

/-- Members with their names read as far as they can be. -/
abbrev Members := List (Except Problem String × Tree)

namespace Members

/-- The place and the value of the first member named `name`. -/
def locate (name : String) : Members → Option (Nat × Tree)
  | [] => none
  | (.ok other, tree) :: rest =>
    if other = name then some (0, tree)
    else (locate name rest).map fun (place, tree) => (place + 1, tree)
  | (.error _, _) :: rest => (locate name rest).map fun (place, tree) => (place + 1, tree)

/-- The first problem that is not in the value of a field: a name that cannot be read, a field
that comes again, a value passed over, or the end of the object. -/
def firstFlaw (fields : List String) (tail : Option Problem) :
    Nat → List String → Members → Option Finding
  | place, _, [] => tail.map fun problem => { place, problem }
  | place, _, (.error problem, _) :: _ => some { place, problem }
  | place, seen, (.ok name, tree) :: rest =>
    if name ∈ fields then
      if name ∈ seen then some { place, problem := .mismatch }
      else firstFlaw fields tail (place + 1) (name :: seen) rest
    else
      match tree.skip with
      | some problem => some { place, problem }
      | none => firstFlaw fields tail (place + 1) seen rest

end Members

/-- How to read an `A` from the members of an object, and how to write the fields it is made of
from a `B`. -/
structure Record (B A : Type) where
  names : List String
  read : Nat → Members → Except Finding A
  write : B → List (String × Json)
  /-- The fields, taken apart to be written. -/
  fields : B → List (String × Datum)

namespace Record

variable {A B C : Type}

/-- No fields yet. -/
def of (make : A) : Record B A where
  names := []
  read _ _ := .ok make
  write _ := []
  fields _ := []

/-- Both readings, or the earlier problem. -/
def apply (f : Except Finding (A → C)) (a : Except Finding A) : Except Finding C :=
  match f, a with
  | .ok f, .ok a => .ok (f a)
  | .error e, .ok _ => .error e
  | .ok _, .error e => .error e
  | .error e, .error e' => .error (e.earlier e')

/-- Reads one field; a missing one is noticed only after everything else. -/
def readField (name : String) (codec : Codec A) (default? : Option A) (depth : Nat)
    (members : Members) : Except Finding A :=
  match members.locate name, default? with
  | some (place, tree), _ =>
    match codec.decode depth tree with
    | .ok value => .ok value
    | .error problem => .error { place, problem }
  | none, some value => .ok value
  | none, none => .error { place := members.length + 1, problem := .mismatch }

/-- Adds a field at the end. -/
def add (record : Record B (A → C)) (name : String) (codec : Codec A) (default? : Option A)
    (get : B → A) : Record B C where
  names := record.names ++ [name]
  read depth members :=
    apply (record.read depth members) (readField name codec default? depth members)
  write b := record.write b ++ [(name, codec.encode (get b))]
  fields b := record.fields b ++ [(name, codec.datum (get b))]

/-- A field that must be there. -/
def field (record : Record B (A → C)) (name : String) (codec : Codec A) (get : B → A) :
    Record B C :=
  record.add name codec none get

/-- A field that may be missing. -/
def fieldOr (record : Record B (A → C)) (name : String) (codec : Codec A) (default : A)
    (get : B → A) : Record B C :=
  record.add name codec (some default) get

/-- An optional field, which may be missing or `null`. -/
def fieldOption (record : Record B (Option A → C)) (name : String) (codec : Codec A)
    (get : B → Option A) : Record B C :=
  record.fieldOr name codec.optional none get

def readMembers (record : Record B A) (depth : Nat) (members : Members) (tail : Option Problem) :
    Except Problem A :=
  match members.firstFlaw record.names tail 0 [], record.read depth members with
  | none, .ok value => .ok value
  | some flaw, .ok _ => .error flaw.problem
  | none, .error e => .error e.problem
  | some flaw, .error e => .error (flaw.earlier e).problem

/-- The members of a record that is written as a list. -/
def positional (names : List String) (items : List Tree) : Members :=
  names.zipWith (fun name item => (.ok name, item)) items

def codec (record : Record A A) : Codec A where
  decode depth tree :=
    match tree with
    | .object members tail =>
      enter depth fun depth =>
        record.readMembers depth (members.map fun (key, tree) => (key.read, tree)) tail
    | .array items tail =>
      enter depth fun depth =>
        record.readMembers depth (positional record.names items)
          (if record.names.length < items.length then some .malformed else tail)
    | tree => .error tree.refusal
  encode value := .obj (record.write value)
  datum value := .record (record.fields value)

end Record

end Scorekeeper.Json
