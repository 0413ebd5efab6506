/-!
# Text to be read

A document arrives as a text or as bytes.  Bytes that belong to no character are
kept as such, because they do harm only where a string is read.
-/

namespace Scorekeeper.Json

/-- Characters still to be read; `none` stands for a byte that belongs to no character. -/
abbrev Source := List (Option Char)

namespace Source

def ofString (s : String) : Source :=
  s.toList.map some

/-- The character that the bytes begin with. -/
def firstChar? (bytes : List UInt8) : Option Char :=
  [1, 2, 3, 4].findSome? fun n =>
    (String.fromUTF8? ⟨(bytes.take n).toArray⟩).bind fun s => s.toList.head?

/-- Reads one character after the other and passes over bytes that begin none. -/
def ofStrayBytes : Nat → List UInt8 → Source
  | 0, _ => []
  | _, [] => []
  | fuel + 1, bytes@(_ :: rest) =>
    match firstChar? bytes with
    | some c => some c :: ofStrayBytes fuel (bytes.drop c.utf8Size)
    | none => none :: ofStrayBytes fuel rest

def ofBytes (bytes : ByteArray) : Source :=
  match String.fromUTF8? bytes with
  | some s => ofString s
  | none => ofStrayBytes bytes.size bytes.data.toList

/-- The number of bytes that the source came from. -/
def byteSize (source : Source) : Nat :=
  source.foldr (fun c size => (c.map Char.utf8Size).getD 1 + size) 0

def isSpace (c : Option Char) : Bool :=
  c == some ' ' || c == some '\t' || c == some '\n' || c == some '\r'

def skipSpace (source : Source) : Source :=
  source.dropWhile isSpace

end Source

end Scorekeeper.Json
