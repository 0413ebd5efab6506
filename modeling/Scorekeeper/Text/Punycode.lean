import Scorekeeper.Text.Affix

/-!
# Punycode

A text in any script is written in small letters, digits and hyphens: first its
plain characters and a hyphen, then a number for each of the others.  These come
in the order of their code points, and a number counts the places in between
where a character could have stood.  Small numbers take few digits, for the
thresholds that end a number adapt to the numbers before it.
-/

namespace Scorekeeper.Text

/-- The value of a digit: letters first, then the decimal digits. -/
def punycodeDigit? (c : Char) : Option Nat :=
  if 'a' ≤ c ∧ c ≤ 'z' then some (c.toNat - 'a'.toNat)
  else if '0' ≤ c ∧ c ≤ '9' then some (c.toNat - '0'.toNat + 26)
  else none

/-- A digit below the threshold of its place is the last one of its number. -/
def punycodeThreshold (place bias : Nat) : Nat :=
  min 26 (max 1 (36 * place - bias))

/-- Reads a number, least digits first, and what follows it. -/
def readPunycodeNumber (bias place weight : Nat) : List Char → Option (Nat × List Char)
  | [] => none
  | c :: rest =>
    let threshold := punycodeThreshold place bias
    match punycodeDigit? c with
    | none => none
    | some digit =>
      if digit < threshold then some (digit * weight, rest)
      else
        (readPunycodeNumber bias (place + 1) (weight * (36 - threshold)) rest).map
          fun (n, rest) => (digit * weight + n, rest)

theorem length_lt_of_readPunycodeNumber {bias place weight n : Nat} {cs rest : List Char}
    (h : readPunycodeNumber bias place weight cs = some (n, rest)) : rest.length < cs.length := by
  fun_induction readPunycodeNumber bias place weight cs generalizing n rest with
  | case1 => simp at h
  | case2 => simp at h
  | case3 => simp_all
  | case4 =>
    rename_i ih
    obtain ⟨⟨m, more⟩, hmore, heq⟩ := Option.map_eq_some_iff.1 h
    simp only [Prod.mk.injEq] at heq
    have := ih hmore
    simp only [List.length_cons, ← heq.2]
    omega

/-- How often 35 goes into a number until it is at most 455, and what is left of it. -/
def shrink (n : Nat) : Nat × Nat :=
  if 455 < n then
    let (times, rest) := shrink (n / 35)
    (times + 1, rest)
  else (0, n)
termination_by n
decreasing_by omega

/-- The bias after a number, when the text has `length` characters. -/
def nextBias (number length : Nat) (isFirst : Bool) : Nat :=
  let scaled := if isFirst then number / 700 else number / 2
  let (times, rest) := shrink (scaled + scaled / length)
  36 * times + 36 * rest / (rest + 38)

/-- Puts the coded characters into a text; the next one has at least the code point `point`, and
stands at the place `place` or after it if it has that. -/
def insertCoded (text : List Char) (point place bias : Nat) (cs : List Char) :
    Option (List Char) :=
  if cs = [] then some text
  else
    match _ : readPunycodeNumber bias 1 1 cs with
    | none => none
    | some (number, rest) =>
      let length := text.length + 1
      let point' := point + (place + number) / length
      let place' := (place + number) % length
      if point'.isValidChar then
        insertCoded (text.take place' ++ Char.ofNat point' :: text.drop place') point' (place' + 1)
          (nextBias number length (place == 0)) rest
      else none
termination_by cs.length
decreasing_by exact length_lt_of_readPunycodeNumber ‹_›

/-- Reads a text; the plain characters end at the last hyphen. -/
def readPunycode? (cs : List Char) : Option (List Char) :=
  let coded := (cs.reverse.takeWhile (· != '-')).reverse
  let plain := cs.take (cs.length - coded.length - 1)
  if plain = [] ∧ coded.length < cs.length then none else insertCoded plain 0x80 0 72 coded

end Scorekeeper.Text
