import Scorekeeper.Json.Datum
import Scorekeeper.Json.Reader

/-!
# Codecs

A codec says how the values of a type are written as document values and how they
are read from trees.  Writing takes a value apart first, and may meet a key that has
no name.  Reading visits a tree from left to right and stops at the
first problem.  At most `depthLimit` lists and objects may be nested where their
content is read; what is passed over may nest to any depth.
-/

namespace Scorekeeper.Json

structure Codec (A : Type) where
  /-- Reads a value; the number says how many more lists and objects may be nested. -/
  decode : Nat → Tree → Except Problem A
  encode : A → Json
  /-- Takes a value apart to be written. -/
  datum : A → Datum

def depthLimit : Nat := 127

/-- Reads the content of a list or object one level deeper. -/
def enter {A : Type} (depth : Nat) (read : Nat → Except Problem A) : Except Problem A :=
  match depth with
  | 0 => .error .malformed
  | depth + 1 => read depth

/-- Succeeds if there is no problem. -/
def unlessProblem {A : Type} (problem : Option Problem) (value : A) : Except Problem A :=
  match problem with
  | some problem => .error problem
  | none => .ok value

namespace Codec

variable {A B : Type}

/-- Reads a whole text: one value, and nothing after it but white space. -/
def readSource (codec : Codec A) (source : Source) : Except Problem A :=
  let (tree, rest) := readFirst source
  match codec.decode depthLimit tree with
  | .error problem => .error problem
  | .ok value =>
    match rest with
    | some rest => if rest.skipSpace.isEmpty then .ok value else .error .malformed
    | none => .error .malformed

def readText (codec : Codec A) (text : String) : Except Problem A :=
  codec.readSource (.ofString text)

def readBytes (codec : Codec A) (bytes : ByteArray) : Except Problem A :=
  codec.readSource (.ofBytes bytes)

/-- Reads a value that was never text; all its problems are mismatches. -/
def readJson (codec : Codec A) (value : Json) : Except Problem A :=
  match codec.decode depthLimit value.tree with
  | .ok value => .ok value
  | .error _ => .error .mismatch

def print (codec : Codec A) (value : A) : String :=
  (codec.encode value).text

/-- Writes a value, if nothing in it stands in the way. -/
def write (codec : Codec A) (value : A) : Except Obstacle String :=
  (codec.datum value).json.map Json.text

def text : Codec String where
  decode _ tree :=
    match tree with
    | .text pieces => Piece.read pieces
    | tree => .error tree.refusal
  encode := .str
  datum value := .plain (.str value)

def flag : Codec Bool where
  decode _ tree :=
    match tree with
    | .bool value => .ok value
    | tree => .error tree.refusal
  encode := .bool
  datum value := .plain (.bool value)

/-- Integers that `ofInt?` accepts. -/
def integer (ofInt? : Int → Option A) (toInt : A → Int) : Codec A where
  decode _ tree :=
    match tree with
    | .number numeral =>
      match numeral.integer? with
      | some n =>
        match ofInt? n with
        | some value => .ok value
        | none => .error .mismatch
      | none => .error tree.refusal
    | tree => .error tree.refusal
  encode value := .int (toInt value)
  datum value := .plain (.int (toInt value))

def word32 : Codec UInt32 :=
  integer (fun n => if 0 ≤ n ∧ n < UInt32.size then some (UInt32.ofNat n.toNat) else none)
    fun value => value.toNat

def word64 : Codec UInt64 :=
  integer (fun n => if 0 ≤ n ∧ n < UInt64.size then some (UInt64.ofNat n.toNat) else none)
    fun value => value.toNat

/-- Signed 64-bit integers. -/
def signed64 : Codec Int :=
  integer (fun n => if -Nat.pow 2 63 ≤ n ∧ n < Nat.pow 2 63 then some n else none) id

/-- A value that may be `null`. -/
def optional (codec : Codec A) : Codec (Option A) where
  decode depth tree :=
    match tree with
    | .null => .ok none
    | tree => (codec.decode depth tree).map some
  encode value := .ofOption (value.map codec.encode)
  datum
    | some value => codec.datum value
    | none => .plain .null

def list (codec : Codec A) : Codec (List A) where
  decode depth tree :=
    match tree with
    | .array items tail =>
      enter depth fun depth => do
        let values ← items.mapM (codec.decode depth)
        unlessProblem tail values
    | tree => .error tree.refusal
  encode values := .arr (values.map codec.encode)
  datum values := .list (values.map codec.datum)

/-- The value that must stand beside the name of a choice. -/
def readUnit : Tree → Except Problem Unit
  | .null => .ok ()
  | tree => .error tree.refusal

/-- Reads the name of a choice: a string, or an object with that one member, whose value is
`null`.  What is neither is malformed, except where no text was read. -/
def chooseWith (ofName? : String → Option A) (depth : Nat) : Tree → Except Problem A
  | .text pieces => do
    match ofName? (← Piece.read pieces) with
    | some value => .ok value
    | none => .error .mismatch
  | .object members tail =>
    enter depth fun _ =>
      match members with
      | [] => .error (tail.getD .malformed)
      | (key, tree) :: more => do
        match ofName? (← key.read) with
        | some value => do
          readUnit tree
          if more.isEmpty then unlessProblem tail value else .error .malformed
        | none => .error .mismatch
  | .broken fragment => .error fragment.whenChosen
  | _ => .error .malformed

/-- One of finitely many values that have names. -/
def choice (ofName? : String → Option A) (name : A → String) : Codec A where
  decode := chooseWith ofName?
  encode value := .str (name value)
  datum value := .choice (name value)

mutual

/-- Reads any value whatever.  Members come out in order of their names, the last of several with
one name. -/
def decodeAny : Nat → Tree → Except Problem Json
  | _, .null => .ok .null
  | _, .bool value => .ok (.bool value)
  | _, .number numeral =>
    if numeral.inRange then
      match numeral.integer? with
      | some n => .ok (.int n)
      | none => .ok (.real numeral)
    else .error .malformed
  | _, .text pieces => (Piece.read pieces).map .str
  | depth, .array items tail =>
    match depth with
    | 0 => .error .malformed
    | depth + 1 => do
      let values ← decodeAnyItems depth items
      unlessProblem tail (.arr values)
  | depth, .object members tail =>
    match depth with
    | 0 => .error .malformed
    | depth + 1 => do
      let values ← decodeAnyMembers depth members
      unlessProblem tail (.obj (sortMembers values))
  | _, .broken fragment => .error fragment.whenRead

def decodeAnyItems : Nat → List Tree → Except Problem (List Json)
  | _, [] => .ok []
  | depth, item :: items => do
    let value ← decodeAny depth item
    let values ← decodeAnyItems depth items
    return value :: values

def decodeAnyMembers : Nat → List (Key × Tree) → Except Problem (List (String × Json))
  | _, [] => .ok []
  | depth, (key, tree) :: members => do
    let name ← key.read
    let value ← decodeAny depth tree
    let values ← decodeAnyMembers depth members
    return (name, value) :: values

end

/-- Any document value. -/
def any : Codec Json where
  decode := decodeAny
  encode := id
  datum := .plain

/-- Puts an entry at the end, or in the place of the one with the same key. -/
def putEntry [BEq A] (key : A) (value : B) : List (A × B) → List (A × B)
  | [] => [(key, value)]
  | (other, old) :: rest =>
    if other == key then (key, value) :: rest else (other, old) :: putEntry key value rest

/-- Reads the members of a map one by one, each into its place. -/
def decodeEntries [BEq A] (ofName? : String → Option A) (read : Tree → Except Problem B) :
    List (Key × Tree) → List (A × B) → Except Problem (List (A × B))
  | [], entries => .ok entries
  | (key, tree) :: members, entries => do
    match ofName? (← key.read) with
    | some name => do
      let value ← read tree
      decodeEntries ofName? read members (putEntry name value entries)
    | none => .error .mismatch

/-- An object whose names are drawn from a fixed set, in the order written.  A name that comes
again keeps its first place and takes the last value. -/
def entries [BEq A] (ofName? : String → Option A) (name : A → String) (codec : Codec B) :
    Codec (List (A × B)) where
  decode depth tree :=
    match tree with
    | .object members tail =>
      enter depth fun depth => do
        let values ← decodeEntries ofName? (codec.decode depth) members []
        unlessProblem tail values
    | tree => .error tree.refusal
  encode values := .obj (values.map fun (key, value) => (name key, codec.encode value))
  datum values := .map (values.map fun (key, value) => (.choice (name key), codec.datum value))

end Codec

end Scorekeeper.Json
