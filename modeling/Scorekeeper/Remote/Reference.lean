import Scorekeeper.Remote.Address

/-!
# References

A reference names an address by itself, or by what differs from the address where
it stands.  A request can be sent on to where a reference points if the address
is not too long and says at which host the document is.
-/

namespace Scorekeeper.Remote

open Text

/-- The part of a target that a reference keeps. -/
def keptTarget (target : List Char) : List Char → List Char
  | [] | '#' :: _ => target
  | '?' :: _ => (cut '?' target).1
  | c :: _ =>
    if isSlash c then [] else ((cut '?' target).1.reverse.dropWhile (· != '/')).reverse

namespace Address

/-- The address that a reference without a scheme names at `base`. -/
def refer? (base : Address) (cs : List Char) : Option Address :=
  let slashes := cs.takeWhile isSlash
  if 2 ≤ slashes.length then
    readWeb base.scheme ((dropHead ['/', '/'] cs).getD (cs.drop slashes.length))
  else
    let rest := keptTarget base.target cs ++ cs
    some { base with target := Remote.target rest, fragment := Remote.fragment? rest }

/-- The address that a reference with a scheme names at `base`.  The scheme may be that of `base`
and say nothing, if no two slashes follow it. -/
def resolve? (base : Address) (name rest : List Char) : Option Address :=
  let slashes := rest.takeWhile isSlash
  match Scheme.ofName name with
  | .other _ => (dropHead ['/', '/'] rest).bind (readOther name)
  | .file => if 2 ≤ slashes.length then readFile (rest.drop 2) else none
  | scheme =>
    if scheme = base.scheme ∧ slashes.length < 2 then base.refer? rest
    else readWeb scheme (rest.drop slashes.length)

/-- Whether an address can be written where a request is sent. -/
def isWritable (address : Address) : Bool :=
  address.text.length ≤ addressLimit && address.scheme.name.length ≤ schemeLimit

end Address

/-- How far a text has been read as a host and port with a name and password before them. -/
structure Reach where
  /-- The colons since the last `@` or bracket. -/
  colons : Nat
  /-- Whether a byte is written by its number since then. -/
  isEncoded : Bool
  isOpened : Bool
  isClosed : Bool
  /-- Whether the last character was an `@`. -/
  isAfterUser : Bool

namespace Reach

def start : Reach where
  colons := 0
  isEncoded := false
  isOpened := false
  isClosed := false
  isAfterUser := false

def next? (reach : Reach) (c : Char) : Option Reach :=
  let reach := { reach with isAfterUser := c == '@' }
  match c with
  | ':' => if reach.colons < 8 then some { reach with colons := reach.colons + 1 } else none
  | '@' => some { reach with colons := 0, isEncoded := false }
  | '%' => some { reach with isEncoded := true }
  | '[' => if reach.isEncoded || reach.isOpened then none else some { reach with isOpened := true }
  | ']' =>
    if reach.isOpened && !reach.isClosed then
      some { reach with colons := 0, isEncoded := false, isClosed := true }
    else none
  | c => if isHostChar c then some reach else none

/-- Whether a host and port may end here. -/
def isEnd (reach : Reach) : Bool :=
  reach.colons ≤ 1 && !reach.isEncoded && reach.isOpened == reach.isClosed && !reach.isAfterUser

end Reach

/-- Whether a text can be taken for a host and port. -/
def isPlace (cs : List Char) : Bool :=
  (cs.foldlM Reach.next? Reach.start).any Reach.isEnd

/-- What follows a scheme that is not known, if no slashes do.  Blanks are left as they are. -/
def encodeBare (cs : List Char) : List Char :=
  cs.flatMap fun c => if c == ' ' then [c] else encodePart [] [c]

/-- Whether a request can be sent on to where a reference at `base` points.  A scheme that is not
known, a colon and what follows it are taken for a host and port where no slashes follow. -/
def leadsOn (base : Address) (reference : List Char) : Bool :=
  match cutScheme (tidy reference) with
  | none => (base.refer? (tidy reference)).any Address.isWritable
  | some (name, rest) =>
    let place := name ++ ':' :: encodeBare rest
    (base.resolve? name rest).any Address.isWritable
      || (Scheme.ofName name == .other name && place.length ≤ addressLimit && isPlace place)

end Scorekeeper.Remote
