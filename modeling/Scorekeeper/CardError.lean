/-!
# What can be wrong with a card

Every refusal of a card operation, of a course and of an id, with its wording in
one place.
-/

namespace Scorekeeper

/-- The largest stroke count or par that one hole may hold. -/
def maxValue : Nat := 999

/-- The lists that must line up hole by hole. -/
inductive HoleList where
  | coursePars
  | holeNumbers
  | holePars
  | playerScores
  deriving DecidableEq, Repr

def HoleList.title : HoleList → String
  | .coursePars => "course pars"
  | .holeNumbers => "hole numbers"
  | .holePars => "hole pars"
  | .playerScores => "player hole scores"

inductive CardError where
  | invalidValue (value : Int)
  | holeOutOfRange (hole holes : Nat)
  | unknownPlayer (number : UInt32)
  | lengthMismatch (list : HoleList) (expected actual : Nat)
  | invalidId (text : String)
  | emptyCourse (id : String)
  | disabledCourse (id : String)
  | noPlayers
  | blankName
  | playerNumbering (position actual : UInt32)
  | blankPassphrase
  deriving DecidableEq, Repr

def CardError.message : CardError → String
  | .invalidValue value => s!"value must be between 0 and {maxValue} (got {value})"
  | .holeOutOfRange hole holes => s!"hole {hole} does not exist (course has {holes} holes)"
  | .unknownPlayer number => s!"player {number} does not exist"
  | .lengthMismatch list expected actual =>
      s!"{list.title} length mismatch (expected {expected}, got {actual})"
  | .invalidId text => s!"invalid scorecard id `{text}`"
  | .emptyCourse id => s!"course `{id}` has no holes"
  | .disabledCourse id => s!"course `{id}` is disabled"
  | .noPlayers => "scorecard has no players"
  | .blankName => "player name must not be empty"
  | .playerNumbering position actual =>
      s!"player at position {position} is numbered {actual} (expected {position})"
  | .blankPassphrase => "passphrase must not be empty"

end Scorekeeper
