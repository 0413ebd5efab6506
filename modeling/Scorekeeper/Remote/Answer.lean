import Scorekeeper.Remote.Status
import Scorekeeper.Text.Affix
import Scorekeeper.Text.Numeral
import Scorekeeper.Text.Token

/-!
# Answers in written form

An answer is a status line, header fields and an empty line, and the body after
them.  The header says how far the body goes: over a number of bytes, over parts
that each begin with their size, or up to the end of the connection.  An answer
that only informs has no body, and the next answer follows it.  In the text of an
answer one character stands for each byte.
-/

namespace Scorekeeper.Remote

open Text

/-- The first line of a text, without the return that may end it, and what follows it. -/
def cutLine (cs : List Char) : Option (List Char × List Char) :=
  match cut '\n' cs with
  | (line, some rest) => some ((dropTail ['\r'] line).getD line, rest)
  | (_, none) => none

theorem length_lt_of_cutLine {cs line rest : List Char} (h : cutLine cs = some (line, rest)) :
    rest.length < cs.length := by
  unfold cutLine at h
  split at h
  · next hcut =>
    simp only [Option.some.injEq, Prod.mk.injEq] at h
    exact h.2 ▸ length_lt_of_cut hcut
  · simp at h

/-- The characters of reasons and of values. -/
def isFieldChar (c : Char) : Bool :=
  c == '\t' || (0x20 ≤ c.toNat && c.toNat != 0x7F)

def isSpaceOrTab (c : Char) : Bool :=
  c == ' ' || c == '\t'

def trimSpaces (cs : List Char) : List Char :=
  ((cs.dropWhile isSpaceOrTab).reverse.dropWhile isSpaceOrTab).reverse

/-- A field of a header.  The name is in lower case. -/
structure HeaderField where
  name : List Char
  value : List Char
  deriving DecidableEq, Repr

def HeaderField.read? (line : List Char) : Option HeaderField :=
  match cut ':' line with
  | (name, some value) =>
    if name ≠ [] ∧ name.all isTokenChar ∧ value.all isFieldChar then
      some ⟨toLower name, trimSpaces value⟩
    else none
  | (_, none) => none

/-- Reads the fields up to an empty line, at most `limit` of them. -/
def readFields (limit : Nat) (cs : List Char) : Option (List HeaderField × List Char) :=
  match cutLine cs with
  | none => none
  | some ([], rest) => some ([], rest)
  | some (line, rest) =>
    match limit, HeaderField.read? line with
    | limit + 1, some field =>
      (readFields limit rest).map fun (fields, rest) => (field :: fields, rest)
    | _, _ => none

theorem length_lt_of_readFields {limit : Nat} {cs rest : List Char} {fields : List HeaderField}
    (h : readFields limit cs = some (fields, rest)) : rest.length < cs.length := by
  fun_induction readFields limit cs generalizing fields rest with
  | case1 => simp at h
  | case2 limit cs more hline =>
    simp only [Option.some.injEq, Prod.mk.injEq] at h
    exact h.2 ▸ length_lt_of_cutLine hline
  | case3 cs line more _ hline limit field _ ih =>
    obtain ⟨⟨fields', rest'⟩, hmore, heq⟩ := Option.map_eq_some_iff.1 h
    simp only [Prod.mk.injEq] at heq
    exact heq.2 ▸ Nat.lt_trans (ih hmore) (length_lt_of_cutLine hline)
  | case4 => simp at h

/-- The number of fields that a header may have. -/
def fieldLimit : Nat := 100

/-- What the first line of an answer says: whether the answer is of the older version, and its
status. -/
def readStatusLine (line : List Char) : Option (Bool × Nat) :=
  match dropHead "HTTP/1.".toList line with
  | some (minor :: ' ' :: a :: b :: c :: reason) =>
    let status := natOfDigits [a, b, c]
    if (minor = '0' ∨ minor = '1') ∧ [a, b, c].all isDigit ∧ 100 ≤ status
        ∧ (reason.take 1 = [] ∨ reason.take 1 = [' ']) ∧ reason.all isFieldChar then
      some (minor == '0', status)
    else none
  | _ => none

/-- The empty lines in front of an answer do not count. -/
def dropEmptyLines : List Char → List Char
  | '\n' :: rest => dropEmptyLines rest
  | '\r' :: '\n' :: rest => dropEmptyLines rest
  | cs => cs

theorem length_dropEmptyLines_le (cs : List Char) : (dropEmptyLines cs).length ≤ cs.length := by
  fun_induction dropEmptyLines cs with
  | case1 rest ih => simp; omega
  | case2 rest ih => simp; omega
  | case3 => exact Nat.le_refl _

structure Answer where
  /-- Whether it is of the older version, which knows no parts. -/
  isOld : Bool
  status : Nat
  fields : List HeaderField
  /-- All that follows the header. -/
  rest : List Char
  deriving DecidableEq, Repr

/-- How far a body goes. -/
inductive Extent where
  | absent
  | counted (bytes : Nat)
  | inParts
  | toTheEnd
  deriving DecidableEq, Repr

/-- The number of characters that the remarks of a body, or the lines after it, may have. -/
def remarkLimit : Nat := 16384

/-- The size at the start of a part, in hexadecimal digits, and the length of the remark that may
follow it. -/
def readPartSize (line : List Char) : Option (Nat × Nat) := do
  let digits := line.takeWhile fun c => (hexValue? c).isSome
  let size := digits.foldl (fun n c => 16 * n + (hexValue? c).getD 0) 0
  if digits = [] ∨ UInt64.size ≤ size then none
  else
    match (line.drop digits.length).dropWhile isSpaceOrTab with
    | [] => some (size, 0)
    | c :: remark => if c = ';' ∧ '\r' ∉ remark then some (size, remark.length) else none

/-- The lines up to an empty one.  Here only a return and a line feed end a line. -/
def readLines (cs : List Char) : Option (List (List Char)) :=
  match _ : cut '\r' cs with
  | ([], some ('\n' :: _)) => some []
  | (line, some ('\n' :: rest)) => (readLines rest).map (line :: ·)
  | _ => none
termination_by cs.length
decreasing_by
  have := length_lt_of_cut ‹_›
  simp only [List.length_cons] at this
  omega

/-- Whether fields may end a body in parts: none, or as many as there are lines. -/
def isTrailer (lines : List (List Char)) : Bool :=
  let text := lines.flatMap (· ++ ['\r', '\n']) ++ ['\r', '\n']
  lines.isEmpty
    || (lines.length ≤ fieldLimit && text.length < remarkLimit
      && (readFields lines.length text).isSome)

/-- Joins the parts of a body, after remarks of length `remarks`.  A part of size zero ends it. -/
def joinParts (remarks : Nat) (cs : List Char) : Option (List Char) :=
  match _ : cut '\n' cs with
  | (_, none) => none
  | (line, some rest) =>
    match (dropTail ['\r'] line).bind readPartSize with
    | none => none
    | some (size, remark) =>
      if remarkLimit ≤ remarks + remark then none
      else if size = 0 then
        (readLines rest).bind fun lines => if isTrailer lines then some [] else none
      else
        match _ : dropHead ['\r', '\n'] (rest.drop size) with
        | none => none
        | some more =>
          (joinParts (remarks + remark) more).map fun body => rest.take size ++ body
termination_by cs.length
decreasing_by
  have := length_lt_of_cut ‹_›
  have := congrArg List.length (dropHead_eq_some_iff.1 ‹_›)
  simp only [List.length_drop, List.length_append, List.length_cons] at this
  omega

/-- The body of the given extent at the start of a text, `none` if it breaks off. -/
def Extent.body? (cs : List Char) : Extent → Option (List Char)
  | .absent => some []
  | .counted bytes => if cs.length < bytes then none else some (cs.take bytes)
  | .inParts => joinParts 0 cs
  | .toTheEnd => some cs

/-- The length that all the values give, each of them once or several times. -/
def readLength (values : List (List Char)) : Option Nat :=
  match (values.flatMap (split ',')).map trimSpaces with
  | [] => none
  | first :: others =>
    let isLength (cs : List Char) : Bool :=
      !cs.isEmpty && cs.all isDigit && natOfDigits cs == natOfDigits first
    if (first :: others).all isLength && natOfDigits first < UInt64.size - 2 then
      some (natOfDigits first)
    else none

/-- Whether an encoding is, in the end, that into parts. -/
def isIntoParts (encoding : List Char) : Bool :=
  let last := (split ',' encoding).getLast?.getD []
  toLower (trimSpaces last) == "chunked".toList && encoding.all fun c => c.toNat < 0x7F

namespace Answer

def read? (cs : List Char) : Option Answer := do
  let (line, rest) ← cutLine (dropEmptyLines cs)
  let (isOld, status) ← readStatusLine line
  let (fields, rest) ← readFields fieldLimit rest
  some { isOld, status, fields, rest }

theorem length_rest_lt {cs : List Char} {answer : Answer} (h : read? cs = some answer) :
    answer.rest.length < cs.length := by
  simp only [read?, bind, Option.bind_eq_some_iff, Option.some.injEq, Prod.exists] at h
  obtain ⟨line, rest, hline, isOld, status, -, fields, body, hfields, rfl⟩ := h
  have := length_lt_of_cutLine hline
  have := length_lt_of_readFields hfields
  have := length_dropEmptyLines_le cs
  simp only
  omega

/-- The answer that ends the exchange: the first that does more than inform. -/
def final? (cs : List Char) : Option Answer :=
  match _ : read? cs with
  | none => none
  | some answer => if isInformational answer.status then final? answer.rest else some answer
termination_by cs.length
decreasing_by exact length_rest_lt ‹_›

def values (answer : Answer) (name : String) : List (List Char) :=
  (answer.fields.filter fun field => field.name == name.toList).map (·.value)

/-- What the status and the header say of the body, `none` if they make no sense. -/
def extent? (answer : Answer) : Option Extent :=
  if hasNoBody answer.status then some .absent
  else
    match (answer.values "transfer-encoding").getLast?, answer.values "content-length" with
    | some encoding, _ =>
      if answer.isOld then none
      else if isIntoParts encoding then some .inParts
      else some .toTheEnd
    | none, [] => some .toTheEnd
    | none, lengths => (readLength lengths).map .counted

end Answer

end Scorekeeper.Remote
