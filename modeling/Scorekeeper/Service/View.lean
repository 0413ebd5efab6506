import Scorekeeper.Card.Basic
import Scorekeeper.Json.Basic
import Scorekeeper.Save.Status
import Scorekeeper.Userspace

/-!
# Views

What clients are shown of courses, cards and the state of the service.  Members
stand in a fixed order.
-/

namespace Scorekeeper.Service

open Json Save

def texts (items : List String) : Json :=
  .arr (items.map .str)

def words (items : List UInt32) : Json :=
  .arr (items.map fun n => .ofNat n.toNat)

def viewCourse (course : Course) : Json :=
  .obj
    [("course_id", .str course.id),
      ("hole_numbers", texts course.labels),
      ("hole_pars", words course.pars),
      ("par_total", .ofNat course.parTotal.toNat),
      ("enabled", .bool course.enabled)]

def viewCourses (courses : List Course) : Json :=
  .arr (courses.map viewCourse)

def viewUserspace (userspace : UserspaceId) (courses : List Course) : Json :=
  .obj [("userspace_id", .str userspace.text), ("courses", viewCourses courses)]

def viewTotal (field : Field) : Json :=
  .obj [("value", .ofNat field.value.toNat), ("qualifiers", .str field.qualifiers.text)]

def viewScore (field : Field) : Json :=
  .obj
    [("value", .ofNat field.value.toNat),
      ("qualifiers", .str field.qualifiers.text),
      ("rank", .ofOption (field.rank.map fun rank => .str rank.key)),
      ("rank_label", .ofOption (field.rank.map fun rank => .str rank.label))]

def viewCount (entry : Rank × UInt32) : Json :=
  .obj
    [("category", .str entry.1.key),
      ("label", .str entry.1.label),
      ("count", .ofNat entry.2.toNat)]

def viewPlayer (player : Player) : Json :=
  .obj
    [("player_number", .ofNat player.number.toNat),
      ("name", .str player.name),
      ("hole_scores", .arr (player.scores.map viewScore)),
      ("total", viewTotal player.total),
      ("stats", .arr (player.tally.entries.map viewCount))]

def viewCard (card : Card) (status : Status) : Json :=
  .obj
    [("scorecard_id", .str card.id.text),
      ("course_id", .str card.course.id),
      ("hole_numbers", texts card.course.labels),
      ("hole_pars", words card.parValues),
      ("par_total", .ofNat card.parTotal.value.toNat),
      ("players", .arr (card.players.map viewPlayer)),
      ("notes", .str card.notes),
      ("save_status", .str status.name)]

/-- The answer to a save that goes on in the background. -/
def viewSaveAccepted (id : ScorecardId) : Json :=
  .obj [("scorecard_id", .str id.text), ("status", .str Status.saving.name)]

/-- The number of waiting payloads is `null` when the queue cannot be read. -/
def viewHealth (reachable : Bool) (waiting : Option Nat) (status : Status) : Json :=
  .obj
    [("status", .str (if reachable then "ok" else "degraded")),
      ("remote_reachable", .bool reachable),
      ("pending_saves", .ofOption (waiting.map .ofNat)),
      ("save_status", .str status.name)]

def viewStatusEvent (status : Status) : Json :=
  .obj [("status", .str status.name)]

end Scorekeeper.Service
