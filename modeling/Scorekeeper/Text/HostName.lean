import Scorekeeper.Text.NameChar
import Scorekeeper.Text.PlainForm
import Scorekeeper.Text.Punycode

/-!
# Names of hosts

A name is made of labels with points between them.  Characters count as their
plain forms.  A label may be written in Punycode, after `xn--`.  Labels begin with
no mark, their joiners stand where they join something, and if one of them runs to
the left then all run one way each.
-/

namespace Scorekeeper.Text

/-- A name with its characters in plain form, as far as they have one, if it may hold them. -/
def nameText? (cs : List Char) : Option (List Char) :=
  (cs.mapM fun c =>
    match plainForm? c with
    | some form => some form
    | none => if isBarred c then none else some [c]).map List.flatten

def isPlain (c : Char) : Bool :=
  c.toNat < 0x80

/-- The number of characters that a label in Punycode may have, and half of what a label may have
in letters that are not plain. -/
def punycodeLimit : Nat := 2000

/-- The label that is written in Punycode.  It must need it, and be in plain form already. -/
def readCodedLabel? (code : List Char) : Option (List Char) :=
  let isOwn (c : Char) : Bool := isPlain c || ((plainForm? c).isNone && !isBarred c && !isShape c)
  if code.all isPlain ∧ code.length ≤ punycodeLimit then
    (readPunycode? code).filter fun label => label.all isOwn && !label.all isPlain
  else none

def readLabel? (label : List Char) : Option (List Char) :=
  match dropHead "xn--".toList label with
  | some code => readCodedLabel? code
  | none => some label

/-- Whether each joiner joins something; `before` is what stands before, last first.  Both kinds
may follow a vowel killer, and the kind that keeps letters apart may stand between two letters
that would be linked. -/
def doJoinersFit (before : List Char) : List Char → Bool
  | [] => true
  | c :: rest =>
    let next (cs : List Char) : Option Char := (cs.dropWhile isTightMark).head?
    let fits :=
      match c with
      | '\u200c' => before.head?.any isVowelKiller
          || ((next before).any isLinkedOn && (next rest).any isLinkedBack)
      | '\u200d' => before.head?.any isVowelKiller
      | _ => true
    fits && doJoinersFit (c :: before) rest

/-- Whether a label is well formed but for the way it runs. -/
def isLabel (label : List Char) : Bool :=
  label.all isPlain
    || (2 * label.length ≤ punycodeLimit && !label.head?.any isMark && doJoinersFit [] label)

/-- Whether a label holds characters that run to the left. -/
def isFromRight (directions : List Direction) : Bool :=
  directions.contains .fromRight || directions.contains .arabicDigit

/-- Whether a label runs one way. -/
def runsOneWay (directions : List Direction) : Bool :=
  let last := (directions.reverse.dropWhile (· == .mark)).head?
  match directions.head? with
  | none => true
  | some .fromLeft => !isFromRight directions && (last == some .fromLeft || last == some .digit)
  | some .fromRight =>
    !directions.contains .fromLeft
      && (last == some .fromRight || last == some .digit || last == some .arabicDigit)
      && !(directions.contains .digit && directions.contains .arabicDigit)
  | some _ => false

/-- Whether a text in plain form is a well-formed name. -/
def isHostName (cs : List Char) : Bool :=
  match (split '.' cs).mapM readLabel? with
  | none => false
  | some labels =>
    let directions := labels.map fun label => label.map Direction.ofChar
    labels.all isLabel && (directions.all runsOneWay || !directions.any isFromRight)

end Scorekeeper.Text
