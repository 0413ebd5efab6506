import Scorekeeper.Card.Basic
import Scorekeeper.Json.Record

/-!
# Documents

The stored forms of courses, catalogs and cards.  They hold what was written,
sound or not: whether a document describes a course or a card is decided when one
is made from it.
-/

namespace Scorekeeper

open Json

/-- A course as stored in a catalog and inside cards. -/
structure CourseDocument where
  courseId : String
  holeNumbers : List String
  holePars : List UInt32
  enabled : Bool
  deriving DecidableEq, Repr

namespace CourseDocument

def codec : Codec CourseDocument :=
  ((Record.of CourseDocument.mk)
    |>.field "course_id" .text courseId
    |>.field "hole_numbers" (.list .text) holeNumbers
    |>.field "hole_pars" (.list .word32) holePars
    |>.fieldOr "enabled" .flag true enabled).codec

end CourseDocument

/-- The courses of a userspace. -/
structure CatalogDocument where
  courses : List CourseDocument
  deriving DecidableEq, Repr

namespace CatalogDocument

def codec : Codec CatalogDocument :=
  ((Record.of CatalogDocument.mk)
    |>.fieldOr "courses" (.list CourseDocument.codec) [] courses).codec

end CatalogDocument

/-- A number with its marks. -/
structure ScoreDocument where
  value : UInt32
  qualifiers : String
  deriving DecidableEq, Repr

namespace ScoreDocument

def codec : Codec ScoreDocument :=
  ((Record.of ScoreDocument.mk)
    |>.field "value" .word32 value
    |>.fieldOr "qualifiers" .text "" qualifiers).codec

end ScoreDocument

structure PlayerDocument where
  playerNumber : UInt32
  name : String
  holeScores : List ScoreDocument
  totalScore : ScoreDocument
  stats : List (Rank × UInt32)
  deriving DecidableEq, Repr

namespace PlayerDocument

def statsCodec : Codec (List (Rank × UInt32)) :=
  .entries Rank.ofKey? Rank.key .word32

def codec : Codec PlayerDocument :=
  ((Record.of PlayerDocument.mk)
    |>.field "player_number" .word32 playerNumber
    |>.field "name" .text name
    |>.field "hole_scores" (.list ScoreDocument.codec) holeScores
    |>.field "total_score" ScoreDocument.codec totalScore
    |>.fieldOr "stats" statsCodec [] stats).codec

end PlayerDocument

structure ScorecardDocument where
  scorecardId : String
  course : CourseDocument
  holeNumbers : List String
  holePars : List UInt32
  holesParTotal : UInt32
  players : List PlayerDocument
  notes : String
  deriving DecidableEq, Repr

namespace ScorecardDocument

def codec : Codec ScorecardDocument :=
  ((Record.of ScorecardDocument.mk)
    |>.field "scorecard_id" .text scorecardId
    |>.field "course" CourseDocument.codec course
    |>.field "hole_numbers" (.list .text) holeNumbers
    |>.field "hole_pars" (.list .word32) holePars
    |>.field "holes_par_total" .word32 holesParTotal
    |>.field "players" (.list PlayerDocument.codec) players
    |>.fieldOr "notes" .text "" notes).codec

end ScorecardDocument

/-- A rank stored on its own, by its key. -/
def Rank.codec : Codec Rank :=
  .choice Rank.ofKey? Rank.key

end Scorekeeper
