import Scorekeeper.Text.Affix
import Scorekeeper.Userspace

/-!
# Scorecard ids

An id reads `[USERSPACE-]MILLIS-SUFFIX`: lower-case hexadecimal digits when the
card belongs to a userspace, the time it was started in milliseconds, and six
drawn letters or digits.  Ids go into file names and paths unchanged, so only
texts of that form are ids.  `ScorecardId.parse` tests the form and
`ScorecardId.issue` makes a new id from a clock reading and a draw.
-/

namespace Scorekeeper

open Text

/-- What is fresh about a new id: the clock in milliseconds since 1970 and six picks from the
alphabet of suffixes. -/
structure Draw where
  millis : Nat
  picks : Vector (Fin 36) 6

namespace ScorecardId

def isSuffixChar (c : Char) : Bool :=
  isDigit c || ('a' ≤ c && c ≤ 'z')

def isMillis (cs : List Char) : Bool :=
  !cs.isEmpty && cs.all isDigit

def isSuffix (cs : List Char) : Bool :=
  cs.length == 6 && cs.all isSuffixChar

def isSpace (cs : List Char) : Bool :=
  !cs.isEmpty && cs.all isLowerHex

/-- Whether a text has the form of an id. -/
def isId (cs : List Char) : Bool :=
  match split '-' cs with
  | [millis, suffix] => isMillis millis && isSuffix suffix
  | [space, millis, suffix] => isSpace space && isMillis millis && isSuffix suffix
  | _ => false

end ScorecardId

structure ScorecardId where
  text : String
  wellFormed : ScorecardId.isId text.toList = true
  deriving DecidableEq

namespace ScorecardId

theorem text_injective {left right : ScorecardId} (heq : left.text = right.text) :
    left = right := by
  cases left
  cases right
  cases heq
  rfl

def parse (raw : String) : Except CardError ScorecardId :=
  if h : isId raw.toList = true then .ok ⟨raw, h⟩ else .error (.invalidId raw)

/-- The letters a to z, then the digits 0 to 9. -/
def suffixChar (pick : Fin 36) : Char :=
  if pick.val < 26 then Char.ofNat (97 + pick.val) else Char.ofNat (22 + pick.val)

end ScorecardId

namespace Draw

open ScorecardId

def suffix (draw : Draw) : List Char :=
  draw.picks.toList.map suffixChar

/-- The part of an id that the draw alone decides. -/
def chars (draw : Draw) : List Char :=
  digits draw.millis ++ '-' :: draw.suffix

def text (draw : Draw) : String :=
  String.ofList draw.chars

theorem isDigit_of_mem_digits {n : Nat} {c : Char} (h : c ∈ Text.digits n) :
    Text.isDigit c = true := by
  have := Nat.isDigit_of_mem_toDigits (by decide) (by decide) h
  simpa [Char.isDigit, Text.isDigit, Char.le_def] using this

theorem isSuffixChar_suffixChar (pick : Fin 36) : isSuffixChar (suffixChar pick) = true := by
  revert pick
  decide

theorem isMillis_digits (n : Nat) : isMillis (digits n) = true := by
  simp only [isMillis, Bool.and_eq_true, Bool.not_eq_true', List.isEmpty_eq_false_iff,
    List.all_eq_true]
  exact ⟨Nat.toDigits_ne_nil, fun c hc => isDigit_of_mem_digits hc⟩

theorem isSuffix_suffix (draw : Draw) : isSuffix draw.suffix = true := by
  simp only [isSuffix, suffix, List.length_map, Vector.length_toList, beq_self_eq_true,
    List.all_map, List.all_eq_true, Bool.true_and, Function.comp]
  exact fun pick _ => isSuffixChar_suffixChar pick

theorem dash_not_mem_digits (n : Nat) : '-' ∉ digits n :=
  fun h => absurd (isDigit_of_mem_digits h) (by decide)

theorem dash_not_mem_suffix (draw : Draw) : '-' ∉ draw.suffix := by
  intro h
  obtain ⟨pick, -, hpick⟩ := List.mem_map.1 h
  have := isSuffixChar_suffixChar pick
  rw [hpick] at this
  exact absurd this (by decide)

theorem split_chars (draw : Draw) : split '-' draw.chars = [digits draw.millis, draw.suffix] := by
  rw [chars, split_append_cons (dash_not_mem_digits _), split_of_not_mem (dash_not_mem_suffix _)]

end Draw

namespace ScorecardId

/-- The id of a new card, led by the userspace that is open, if any. -/
def issueChars (space : Option UserspaceId) (draw : Draw) : List Char :=
  match space with
  | some space => space.chars ++ '-' :: draw.chars
  | none => draw.chars

theorem isId_issueChars (space : Option UserspaceId) (draw : Draw) :
    isId (issueChars space draw) = true := by
  have hm := Draw.isMillis_digits draw.millis
  have hs := Draw.isSuffix_suffix draw
  cases space with
  | none => simp [issueChars, isId, Draw.split_chars, hm, hs]
  | some space =>
    have hdash : '-' ∉ space.chars := fun h => absurd (space.lowerHex _ h) (by decide)
    have hspace : isSpace space.chars = true := by
      have hne : space.chars ≠ [] := fun h => by
        have := space.length_eq
        simp [h] at this
      simp [isSpace, hne]
      exact space.lowerHex
    simp [issueChars, isId, split_append_cons hdash, Draw.split_chars, hspace, hm, hs]

def issue (space : Option UserspaceId) (draw : Draw) : ScorecardId where
  text := String.ofList (issueChars space draw)
  wellFormed := by simpa using isId_issueChars space draw

end ScorecardId

end Scorekeeper
