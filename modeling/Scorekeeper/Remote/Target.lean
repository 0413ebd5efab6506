import Scorekeeper.Text.Affix
import Scorekeeper.Text.Percent

/-!
# Request targets

The target of a request is the path and query of its address in written form:
blanks and control characters around it are dropped, points that stand for a
folder are resolved, a fragment is left out, and what may not stand in an address
is percent-encoded byte by byte.
-/

namespace Scorekeeper.Remote

open Text

/-- An upper-case hexadecimal digit; `n` should be below 16. -/
def upperHexDigit (n : Nat) : Char :=
  if n < 10 then Char.ofNat (48 + n) else Char.ofNat (55 + n)

def percentEncode (c : Char) : List Char :=
  (bytesOfChar c).flatMap fun b =>
    ['%', upperHexDigit (b.toNat / 16), upperHexDigit (b.toNat % 16)]

def needsEncoding (extra : List Char) (c : Char) : Bool :=
  c.toNat ≤ 0x20 || 0x7F ≤ c.toNat || extra.contains c

def encodePart (extra : List Char) (cs : List Char) : List Char :=
  cs.flatMap fun c => if needsEncoding extra c then percentEncode c else [c]

/-- Points that stand for this folder, in any spelling. -/
def isSingleDot (part : List Char) : Bool :=
  part == ['.'] || part == ['%', '2', 'e'] || part == ['%', '2', 'E']

/-- Points that stand for the folder above, in any spelling. -/
def isDoubleDot (part : List Char) : Bool :=
  [1, 3].any fun n => isSingleDot (part.take n) && isSingleDot (part.drop n)

/-- Whether a part names a drive: one letter and a mark. -/
def isDrive : List Char → Bool
  | [letter, mark] => letter.isAlpha && (mark == ':' || mark == '|')
  | _ => false

/-- Goes up one folder from the parts so far, last first.  A drive is never left. -/
def goUp : List (List Char) → List (List Char)
  | [] => []
  | part :: parts => if isDrive part then part :: parts else parts

/-- Resolves points among the parts of a path; `done` holds the parts so far, last first. -/
def resolveDots (done : List (List Char)) : List (List Char) → List (List Char)
  | [] => done.reverse
  | [part] =>
    if isDoubleDot part then ([] :: goUp done).reverse
    else if isSingleDot part then ([] :: done).reverse
    else (part :: done).reverse
  | part :: parts =>
    if isDoubleDot part then resolveDots (goUp done) parts
    else if isSingleDot part then resolveDots done parts
    else resolveDots (part :: done) parts

/-- An address without the blanks and control characters around it, and without tabs and line
breaks anywhere. -/
def tidy (address : List Char) : List Char :=
  let isIdle (c : Char) : Bool := c.toNat ≤ 0x20
  let trimmed := ((address.dropWhile isIdle).reverse.dropWhile isIdle).reverse
  trimmed.filter fun c => c != '\t' && c != '\n' && c != '\r'

/-- The target of an address, given what follows its host and port. -/
def target (rest : List Char) : List Char :=
  let (path, query) := cut '?' (cut '#' rest).1
  let parts := split '/' ((path.map fun c => if c = '\\' then '/' else c).drop 1)
  let path := (resolveDots [] parts).flatMap fun part =>
    '/' :: encodePart ['"', '#', '<', '>', '?', '\x60', '\x7b', '\x7d'] part
  match query with
  | some query => path ++ '?' :: encodePart ['"', '#', '<', '>', '\x27'] query
  | none => path

/-- The fragment of an address, given what follows its host and port. -/
def fragment? (rest : List Char) : Option (List Char) :=
  (cut '#' rest).2.map (encodePart ['"', '<', '>', '\x60'])

end Scorekeeper.Remote
