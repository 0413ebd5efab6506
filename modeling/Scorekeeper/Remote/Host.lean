import Scorekeeper.Text.HostName
import Scorekeeper.Text.Percent

/-!
# Hosts

A host is a name or the number of a machine.  Numbers of 32 bits are written as
one to four parts with points between them, in any base, and numbers of 128 bits
in brackets, as eight pieces with colons between them.
-/

namespace Scorekeeper.Remote

open Text

inductive Host where
  /-- A number of 32 bits. -/
  | short (number : Nat)
  /-- A number of 128 bits, by its eight pieces. -/
  | long (pieces : List Nat)
  | name (text : List Char)
  deriving DecidableEq, Repr

/-- Reads digits of a base up to 16; no digits stand for zero. -/
def readInBase (base : Nat) (cs : List Char) : Option Nat :=
  if cs.all fun c => (hexValue? c).any (· < base) then
    some (cs.foldl (fun n c => base * n + (hexValue? c).getD 0) 0)
  else none

/-- Reads a part of a short number: hexadecimal after a zero and an x, octal after a zero, and
decimal otherwise. -/
def readPart : List Char → Option Nat
  | [] => none
  | '0' :: 'x' :: digits => readInBase 16 digits
  | '0' :: digits => readInBase 8 digits
  | digits => readInBase 10 digits

/-- The parts of a host, without the empty one after a point at its end. -/
def hostParts (cs : List Char) : List (List Char) :=
  match (split '.' cs).reverse with
  | [] :: part :: parts => (part :: parts).reverse
  | parts => parts.reverse

/-- Whether a host is meant as a number: its last part is one, or has digits only. -/
def isMeantAsNumber (cs : List Char) : Bool :=
  match (hostParts cs).getLast? with
  | none => false
  | some last => (!last.isEmpty && last.all isDigit) || (readPart last).isSome

/-- Reads a short number.  All parts but the last are bytes, and the last one takes up the rest. -/
def readShort (cs : List Char) : Option Nat := do
  let numbers ← (hostParts cs).mapM readPart
  match numbers.reverse with
  | [] => none
  | last :: front =>
    let room := Nat.pow 256 (4 - front.length)
    if front.length < 4 ∧ front.all (· < 256) ∧ last < room then
      some (front.foldr (fun byte n => 256 * n + byte) 0 * room + last)
    else none

/-- Reads a piece of a long number. -/
def readPiece (cs : List Char) : Option Nat :=
  if 0 < cs.length ∧ cs.length ≤ 4 then readInBase 16 cs else none

/-- Reads a decimal byte without idle zeros. -/
def readByte (cs : List Char) : Option Nat :=
  if cs.all isDigit ∧ (cs.length = 1 ∨ (cs.length ≤ 3 ∧ cs.take 1 ≠ ['0'] ∧ cs ≠ []))
      ∧ natOfDigits cs < 256 then
    some (natOfDigits cs)
  else none

/-- Reads pieces; four decimal bytes may stand for the last two of them if `atEnd`. -/
def readPieces (atEnd : Bool) (cs : List Char) : Option (List Nat) :=
  match (split ':' cs).reverse with
  | [[]] => some []
  | [] => some []
  | last :: front => do
    let front ← front.reverse.mapM readPiece
    match atEnd, (split '.' last).mapM readByte with
    | true, some [a, b, c, d] => some (front ++ [256 * a + b, 256 * c + d])
    | _, _ => (readPiece last).map fun piece => front ++ [piece]

/-- What stands before the first two colons in a row, and what follows them, if they stand
there. -/
def cutGap : List Char → List Char × Option (List Char)
  | [] => ([], none)
  | ':' :: ':' :: rest => ([], some rest)
  | c :: rest =>
    let (before, after) := cutGap rest
    (c :: before, after)

/-- Reads a long number.  Two colons in a row stand for at least one piece of zero. -/
def readLong (cs : List Char) : Option (List Nat) :=
  match cutGap cs with
  | (whole, none) => (readPieces true whole).filter fun pieces => pieces.length == 8
  | (before, some after) => do
    let before ← readPieces false before
    let after ← readPieces true after
    let known := before.length + after.length
    if known < 8 then some (before ++ List.replicate (8 - known) 0 ++ after) else none

/-- The pieces in lower-case hexadecimal, with colons between them. -/
def writePieces (pieces : List Nat) : List Char :=
  List.intercalate [':'] (pieces.map (Nat.toDigits 16))

/-- Writes a long number.  Two colons stand for the first of the longest runs of zeros, if it has
two or more. -/
def writeLong (pieces : List Nat) : List Char :=
  let runs := (List.range pieces.length).map fun i => ((pieces.drop i).takeWhile (· == 0)).length
  let longest := runs.foldl max 0
  let start := runs.idxOf longest
  if longest < 2 then writePieces pieces
  else writePieces (pieces.take start) ++ [':', ':'] ++ writePieces (pieces.drop (start + longest))

/-- The plain characters that hosts are made of. -/
def isHostChar (c : Char) : Bool :=
  isDigit c || c.isAlpha || "!$&'()*+,-.;=_~".toList.contains c

namespace Host

/-- Reads a host.  What ends like a number is one or nothing. -/
def read? (cs : List Char) : Option Host :=
  match cs with
  | '[' :: rest => ((dropTail [']'] rest).bind readLong).map .long
  | _ => do
    let name ← nameText? (← percentText? cs).toList
    if name = [] then none
    else if isMeantAsNumber name then (readShort name).map .short
    else if (name.filter isPlain).all isHostChar ∧ isHostName name then some (.name name)
    else none

/-- Reads a host that stands as it is: a long number, or a plain name that is never a number. -/
def readBare? (cs : List Char) : Option Host :=
  match cs with
  | '[' :: rest => ((dropTail [']'] rest).bind readLong).map .long
  | _ => if cs ≠ [] ∧ cs.all isHostChar then some (.name cs) else none

/-- Writes a host in its usual form; names keep their own script. -/
def text : Host → List Char
  | .short n =>
    List.intercalate ['.'] ([n / Nat.pow 256 3, n / Nat.pow 256 2, n / 256, n].map fun m =>
      digits (m % 256))
  | .long pieces => '[' :: writeLong pieces ++ [']']
  | .name text => text

/-- Whether the machine is known without asking for its number: this machine, or a number. -/
def isKnown : Host → Bool
  | .name text => text == "localhost".toList
  | _ => true

end Host

end Scorekeeper.Remote
