import Scorekeeper.Json.Numeral

/-!
# Document values

Everything the store, the queue and the clients see is a value of this type.
Members of an object have an order, which the text keeps.  The text is compact,
and only quotes, backslashes and control characters are escaped in it.
-/

namespace Scorekeeper

open Text

inductive Json where
  | null
  | bool (value : Bool)
  | int (value : Int)
  /-- A number that is no 64-bit integer, as it was written. -/
  | real (numeral : Json.Numeral)
  | str (value : String)
  | arr (items : List Json)
  | obj (members : List (String × Json))
  deriving Repr

namespace Json

def ofNat (n : Nat) : Json :=
  .int n

def ofOption : Option Json → Json
  | some value => value
  | none => .null

def isNull : Json → Bool
  | .null => true
  | _ => false

/-- The value of the member named `name`, if the value is an object with such a member. -/
def get? (name : String) : Json → Option Json
  | .obj members => members.lookup name
  | _ => none

/-- How one character is written inside quotes. -/
def escapeChar (c : Char) : List Char :=
  if c = '"' then ['\\', '"']
  else if c = '\\' then ['\\', '\\']
  else if c.toNat = 8 then ['\\', 'b']
  else if c.toNat = 9 then ['\\', 't']
  else if c.toNat = 10 then ['\\', 'n']
  else if c.toNat = 12 then ['\\', 'f']
  else if c.toNat = 13 then ['\\', 'r']
  else if c.toNat < 32 then
    ['\\', 'u', '0', '0', hexDigit (c.toNat / 16), hexDigit (c.toNat % 16)]
  else [c]

def quote (cs : List Char) : List Char :=
  '"' :: cs.flatMap escapeChar ++ ['"']

mutual

/-- The compact text of a value. -/
def print : Json → List Char
  | .null => ['n', 'u', 'l', 'l']
  | .bool true => ['t', 'r', 'u', 'e']
  | .bool false => ['f', 'a', 'l', 's', 'e']
  | .int n => intDigits n
  | .real numeral => numeral.chars
  | .str s => quote s.toList
  | .arr [] => ['[', ']']
  | .arr (item :: items) => '[' :: print item ++ printItems items
  | .obj [] => ['{', '}']
  | .obj ((name, value) :: members) =>
    '{' :: quote name.toList ++ ':' :: print value ++ printMembers members

/-- The items after the first one, and the closing bracket. -/
def printItems : List Json → List Char
  | [] => [']']
  | item :: items => ',' :: print item ++ printItems items

/-- The members after the first one, and the closing brace. -/
def printMembers : List (String × Json) → List Char
  | [] => ['}']
  | (name, value) :: members =>
    ',' :: quote name.toList ++ ':' :: print value ++ printMembers members

end

def text (value : Json) : String :=
  String.ofList value.print

/-- Puts a member in its place among members with ascending names, where it replaces one of the
same name. -/
def insertMember (name : String) (value : Json) : List (String × Json) → List (String × Json)
  | [] => [(name, value)]
  | (other, old) :: rest =>
    if name < other then (name, value) :: (other, old) :: rest
    else if name = other then (name, value) :: rest
    else (other, old) :: insertMember name value rest

/-- The members with ascending names, the last of several with one name. -/
def sortMembers (members : List (String × Json)) : List (String × Json) :=
  members.foldl (fun sorted member => insertMember member.1 member.2 sorted) []

end Json

end Scorekeeper
