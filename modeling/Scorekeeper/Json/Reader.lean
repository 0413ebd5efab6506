import Scorekeeper.Json.Source
import Scorekeeper.Json.Tree

/-!
# Reading a document

The reader turns a source into a tree and what is left of the source; when the
text breaks off inside the value, nothing is left.  Each step consumes at least
one character before it reads a nested value, so twice the length of the source
bounds the recursion.
-/

namespace Scorekeeper.Json

open Text

/-- The problem of a place where something should follow. -/
def endProblem (source : Source) : Problem :=
  if source.isEmpty then .truncated else .malformed

/-- The outcome of reading a string, after its opening quote. -/
inductive TextScan where
  | closed (pieces : List Piece) (rest : Source)
  | broken (pieces : List Piece) (problem : Problem)

namespace TextScan

def push (piece : Piece) : TextScan → TextScan
  | .closed pieces rest => .closed (piece :: pieces) rest
  | .broken pieces problem => .broken (piece :: pieces) problem

end TextScan

/-- The character of a two-character escape. -/
def escaped? (c : Char) : Option Char :=
  if c = '"' ∨ c = '\\' ∨ c = '/' then some c
  else if c = 'b' then some (Char.ofNat 8)
  else if c = 't' then some (Char.ofNat 9)
  else if c = 'n' then some (Char.ofNat 10)
  else if c = 'f' then some (Char.ofNat 12)
  else if c = 'r' then some (Char.ofNat 13)
  else none

/-- The number written by hexadecimal digits. -/
def hexNumber? (cs : List (Option Char)) : Option Nat :=
  cs.foldl (fun n c => n.bind fun n => (c.bind hexValue?).map (n * 16 + ·)) (some 0)

/-- The piece that the escape of a 16-bit unit writes. -/
def pieceOfUnit (unit : Nat) : Piece :=
  if 0xD800 ≤ unit ∧ unit < 0xDC00 then .high (Fin.ofNat 1024 (unit - 0xD800))
  else if 0xDC00 ≤ unit ∧ unit < 0xE000 then .low (Fin.ofNat 1024 (unit - 0xDC00))
  else .char (Char.ofNat unit)

/-- Reads up to the closing quote.  A unit needs four bytes of text for its digits, whatever they
are, before its digits are looked at. -/
def scanText : Source → TextScan
  | [] => .broken [] .truncated
  | none :: rest => (scanText rest).push .strayByte
  | some c :: rest =>
    if c = '"' then .closed [] rest
    else if c = '\\' then
      match rest with
      | [] => .broken [] .truncated
      | none :: _ => .broken [] .malformed
      | some e :: rest =>
        if e = 'u' then
          match rest with
          | d₁ :: d₂ :: d₃ :: d₄ :: rest =>
            match hexNumber? [d₁, d₂, d₃, d₄] with
            | some unit => (scanText rest).push (pieceOfUnit unit)
            | none => .broken [] .malformed
          | rest => .broken [] (if Source.byteSize rest < 4 then .truncated else .malformed)
        else
          match escaped? e with
          | some c => (scanText rest).push (.char c)
          | none => .broken [] .malformed
    else if c.toNat < 32 then .broken [] .malformed
    else (scanText rest).push (.char c)

/-- The digits at the start of the source, and the rest. -/
def takeDigits : Source → List Char × Source
  | some c :: rest =>
    if isDigit c then
      let (ds, rest) := takeDigits rest
      (c :: ds, rest)
    else ([], some c :: rest)
  | source => ([], source)

/-- Digits after a point or an exponent mark, where there must be some. -/
def someDigits (source : Source) : Except Problem (List Char × Source) :=
  let (ds, rest) := takeDigits source
  if ds.isEmpty then .error (endProblem rest) else .ok (ds, rest)

/-- Digits without a leading zero. -/
def wholePart (source : Source) : Except Problem (List Char × Source) := do
  let (ds, rest) ← someDigits source
  if ds.head? = some '0' ∧ ds.length ≠ 1 then .error .malformed else .ok (ds, rest)

def fractionPart : Source → Except Problem (Option (List Char) × Source)
  | some '.' :: rest => do
    let (ds, rest) ← someDigits rest
    return (some ds, rest)
  | source => .ok (none, source)

def isExponentMark (c : Option Char) : Bool :=
  c == some 'e' || c == some 'E'

/-- The sign of an exponent, whether it is a minus sign, and the rest. -/
def exponentSign : Source → Bool × Source
  | some '+' :: rest => (false, rest)
  | some '-' :: rest => (true, rest)
  | source => (false, source)

def exponentPart (source : Source) : Except Problem (Option (Bool × List Char) × Source) :=
  match source with
  | [] => .ok (none, [])
  | c :: rest =>
    if isExponentMark c then do
      let (negative, rest) := exponentSign rest
      let (ds, rest) ← someDigits rest
      return (some (negative, ds), rest)
    else .ok (none, source)

/-- The minus sign of a number, whether there is one, and the rest. -/
def minusSign : Source → Bool × Source
  | some '-' :: rest => (true, rest)
  | source => (false, source)

def scanNumber (source : Source) : Except Problem (Numeral × Source) := do
  let (negative, rest) := minusSign source
  let (whole, rest) ← wholePart rest
  let (fraction, rest) ← fractionPart rest
  let (exponent, rest) ← exponentPart rest
  return ({ negative, whole, fraction, exponent }, rest)

/-- Matches the characters of a word one by one. -/
def scanWord : List Char → Source → Except Problem Source
  | [], source => .ok source
  | _ :: _, [] => .error .truncated
  | c :: cs, d :: rest => if d = some c then scanWord cs rest else .error .malformed

def wordTree (word : String) (tree : Tree) (source : Source) : Tree × Option Source :=
  match scanWord word.toList source with
  | .ok rest => (tree, some rest)
  | .error problem => (.broken (.word problem), none)

def textTree (source : Source) : Tree × Option Source :=
  match scanText source with
  | .closed pieces rest => (.text pieces, some rest)
  | .broken pieces problem => (.broken (.text (Piece.brokenRead problem pieces) problem), none)

def numberTree (source : Source) : Tree × Option Source :=
  match scanNumber source with
  | .ok (numeral, rest) => (.number numeral, some rest)
  | .error problem => (.broken (.number problem), none)

def beginsNumber (c : Char) : Bool :=
  c == '-' || isDigit c

/-- Reads a name and the colon after it.  What stands in the place of the value when the colon is
missing comes in place of the rest. -/
def scanKey (source : Source) : Key × Except Fragment Source :=
  match source.skipSpace with
  | [] => (.nothing, .error .nothing)
  | c :: rest =>
    if c = some '"' then
      match scanText rest with
      | .broken pieces problem =>
        (.cut (Piece.brokenRead problem pieces) problem, .error .nothing)
      | .closed pieces rest =>
        match Source.skipSpace rest with
        | [] => (.name pieces, .error .nothing)
        | d :: rest => (.name pieces, if d = some ':' then .ok rest else .error .stray)
    else (.stray, .error .nothing)

mutual

def readValue : Nat → Source → Tree × Option Source
  | 0, _ => (.broken .nothing, none)
  | fuel + 1, source =>
    match source.skipSpace with
    | [] => (.broken .nothing, none)
    | none :: _ => (.broken .stray, none)
    | some c :: rest =>
      if c = 'n' then wordTree "ull" .null rest
      else if c = 't' then wordTree "rue" (.bool true) rest
      else if c = 'f' then wordTree "alse" (.bool false) rest
      else if c = '"' then textTree rest
      else if beginsNumber c then numberTree (some c :: rest)
      else if c = '[' then
        match Source.skipSpace rest with
        | [] => (.array [] (some .truncated), none)
        | d :: after =>
          if d = some ']' then (.array [] none, some after)
          else
            let (items, tail, rest) := readItems fuel rest
            (.array items tail, rest)
      else if c = '{' then
        match Source.skipSpace rest with
        | [] => (.object [] (some .truncated), none)
        | d :: after =>
          if d = some '}' then (.object [] none, some after)
          else
            let (members, tail, rest) := readMembers fuel rest
            (.object members tail, rest)
      else (.broken .stray, none)

/-- Reads an item and all after it. -/
def readItems : Nat → Source → List Tree × Option Problem × Option Source
  | 0, _ => ([], some .truncated, none)
  | fuel + 1, source =>
    match readValue fuel source with
    | (item, none) => ([item], none, none)
    | (item, some rest) =>
      match Source.skipSpace rest with
      | [] => ([item], some .truncated, none)
      | c :: rest =>
        if c = some ',' then
          let (items, tail, rest) := readItems fuel rest
          (item :: items, tail, rest)
        else if c = some ']' then ([item], none, some rest)
        else ([item], some .malformed, none)

/-- Reads a member and all after it. -/
def readMembers : Nat → Source → List (Key × Tree) × Option Problem × Option Source
  | 0, _ => ([], some .truncated, none)
  | fuel + 1, source =>
    match scanKey source with
    | (key, .error fragment) => ([(key, .broken fragment)], none, none)
    | (key, .ok rest) =>
      match readValue fuel rest with
      | (value, none) => ([(key, value)], none, none)
      | (value, some rest) =>
        match Source.skipSpace rest with
        | [] => ([(key, value)], some .truncated, none)
        | c :: rest =>
          if c = some ',' then
            let (members, tail, rest) := readMembers fuel rest
            ((key, value) :: members, tail, rest)
          else if c = some '}' then ([(key, value)], none, some rest)
          else ([(key, value)], some .malformed, none)

end

/-- Reads the first value of a source. -/
def readFirst (source : Source) : Tree × Option Source :=
  readValue (2 * source.length + 2) source

end Scorekeeper.Json
