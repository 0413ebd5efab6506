import Scorekeeper.Json.Basic

/-!
# What reading a text finds

A text is read from left to right up to its first problem, and which problem
comes first depends on what the reader wants at that place: a string that is
passed over may hold half a surrogate pair, one that is used may not.  A `Tree`
records a value as written, with the place where the text breaks off if it does,
so that the decision can be left to whoever decodes it.
-/

namespace Scorekeeper.Json

/-- Why a text is refused. -/
inductive Problem where
  /-- The text does not follow the format. -/
  | malformed
  /-- The text ends too early. -/
  | truncated
  /-- The text is fine, but it is not what was wanted. -/
  | mismatch
  deriving DecidableEq, Repr

/-- A part of a string as written. -/
inductive Piece where
  | char (c : Char)
  /-- The first half of a surrogate pair, less 0xD800. -/
  | high (unit : Fin 1024)
  /-- The second half of a surrogate pair, less 0xDC00. -/
  | low (unit : Fin 1024)
  /-- A byte that belongs to no character. -/
  | strayByte
  deriving DecidableEq, Repr

namespace Piece

def ofChars (cs : List Char) : List Piece :=
  cs.map .char

def join (high low : Fin 1024) : Char :=
  Char.ofNat (0x10000 + high.val * 1024 + low.val)

/-- The characters of a string, if every pair in it is complete and every byte has a place. -/
def chars? : List Piece → Option (List Char)
  | [] => some []
  | .char c :: rest => (chars? rest).map (c :: ·)
  | .high h :: .low l :: rest => (chars? rest).map (join h l :: ·)
  | _ :: _ => none

def read (pieces : List Piece) : Except Problem String :=
  match chars? pieces with
  | some cs => .ok (String.ofList cs)
  | none => .error .malformed

/-- The problem that a reader meets in a string that breaks off after `pieces` with `problem`:
half a pair is noticed before it, unless the text ends right there. -/
def brokenRead (problem : Problem) : List Piece → Problem
  | [] => problem
  | [.high _] => problem
  | .high _ :: .low _ :: rest => brokenRead problem rest
  | .high _ :: _ => .malformed
  | .low _ :: _ => .malformed
  | .char _ :: rest => brokenRead problem rest
  | .strayByte :: rest => brokenRead problem rest

end Piece

/-- Where a value should stand but none is complete. -/
inductive Fragment where
  /-- The text ends. -/
  | nothing
  /-- A character that begins no value. -/
  | stray
  /-- A word other than the three that are values. -/
  | word (problem : Problem)
  | number (problem : Problem)
  | text (read skipped : Problem)
  deriving DecidableEq, Repr

namespace Fragment

/-- The problem when a value is read here. -/
def whenRead : Fragment → Problem
  | .nothing => .truncated
  | .stray => .malformed
  | .word problem => problem
  | .number problem => problem
  | .text read _ => read

/-- The problem when a value is passed over here. -/
def whenSkipped : Fragment → Problem
  | .nothing => .truncated
  | .stray => .malformed
  | .word problem => problem
  | .number _ => .malformed
  | .text _ skipped => skipped

/-- The problem when the name of a choice is wanted here. -/
def whenChosen : Fragment → Problem
  | .nothing => .truncated
  | .text read _ => read
  | _ => .malformed

end Fragment

/-- What stands in the place of a member's name. -/
inductive Key where
  | name (pieces : List Piece)
  /-- A string that breaks off. -/
  | cut (read skipped : Problem)
  /-- Something that is no string. -/
  | stray
  /-- Nothing; the text ends. -/
  | nothing
  deriving DecidableEq, Repr

namespace Key

def ofString (s : String) : Key :=
  .name (Piece.ofChars s.toList)

def read : Key → Except Problem String
  | .name pieces => Piece.read pieces
  | .cut read _ => .error read
  | .stray => .error .malformed
  | .nothing => .error .truncated

def skip : Key → Option Problem
  | .name _ => none
  | .cut _ skipped => some skipped
  | .stray => some .malformed
  | .nothing => some .truncated

end Key

/-- A value as written.  The `tail` of a list or an object is the problem met after its last
entry, if it is not closed. -/
inductive Tree where
  | null
  | bool (value : Bool)
  | number (numeral : Numeral)
  | text (pieces : List Piece)
  | array (items : List Tree) (tail : Option Problem)
  | object (members : List (Key × Tree)) (tail : Option Problem)
  | broken (fragment : Fragment)
  deriving Repr

namespace Tree

mutual

/-- The problem met when the value is passed over. -/
def skip : Tree → Option Problem
  | .null | .bool _ | .number _ | .text _ => none
  | .array items tail => (skipItems items).or tail
  | .object members tail => (skipMembers members).or tail
  | .broken fragment => some fragment.whenSkipped

def skipItems : List Tree → Option Problem
  | [] => none
  | item :: items => (skip item).or (skipItems items)

def skipMembers : List (Key × Tree) → Option Problem
  | [] => none
  | (key, value) :: members => (key.skip.or (skip value)).or (skipMembers members)

end

/-- The problem of a value that is of the wrong kind.  A scalar is read before it is refused. -/
def refusal : Tree → Problem
  | .null | .bool _ | .array _ _ | .object _ _ => .mismatch
  | .number numeral => if numeral.inRange then .mismatch else .malformed
  | .text pieces => if (Piece.chars? pieces).isSome then .mismatch else .malformed
  | .broken fragment => fragment.whenRead

end Tree

mutual

/-- The tree of a value that was never text. -/
def tree : Json → Tree
  | .null => .null
  | .bool value => .bool value
  | .int n => .number (.ofInt n)
  | .real numeral => .number numeral
  | .str s => .text (Piece.ofChars s.toList)
  | .arr items => .array (treeItems items) none
  | .obj members => .object (treeMembers members) none

def treeItems : List Json → List Tree
  | [] => []
  | item :: items => tree item :: treeItems items

def treeMembers : List (String × Json) → List (Key × Tree)
  | [] => []
  | (name, value) :: members => (.ofString name, tree value) :: treeMembers members

end

end Scorekeeper.Json
