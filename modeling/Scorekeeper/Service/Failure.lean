import Scorekeeper.CardError
import Scorekeeper.Json.Datum
import Scorekeeper.Json.Tree
import Scorekeeper.Queue.Key
import Scorekeeper.Remote.Gateway
import Scorekeeper.ScorecardId
import Scorekeeper.Service.Request

/-!
# Failures

A request is refused for a cause of the domain.  Causes are gathered into few
kinds of failure, and each kind is answered with a status of its own.
-/

namespace Scorekeeper.Service

open Remote Queue

/-- The kinds of failure of the service. -/
inductive Failure where
  | storage (error : StorageError)
  /-- The queue failed; the path is that of its folder. -/
  | queue (folder : String) (error : QueueError)
  | invalidInput (text : String)
  | invalidState (text : String)
  | notFound (text : String)
  | internal (text : String)
  deriving DecidableEq, Repr

namespace Failure

def message : Failure → String
  | .storage _ => "storage unavailable"
  | .queue _ _ => "fallback queue failure"
  | .invalidInput text => s!"invalid input: {text}"
  | .invalidState text => s!"invalid state: {text}"
  | .notFound text => s!"not found: {text}"
  | .internal text => s!"internal error: {text}"

def ofCardError (e : CardError) : Failure :=
  match e with
  | .unknownPlayer _ => .notFound e.message
  | .disabledCourse _ => .invalidState e.message
  | _ => .invalidInput e.message

end Failure

/-- The kinds of answer to a request that failed. -/
inductive FaultKind where
  | badRequest
  | notFound
  | conflict
  | unavailable
  | internal
  deriving DecidableEq, Repr

namespace FaultKind

def title : FaultKind → String
  | .badRequest => "bad request"
  | .notFound => "not found"
  | .conflict => "conflict"
  | .unavailable => "service unavailable"
  | .internal => "internal error"

def status : FaultKind → Nat
  | .badRequest => 400
  | .notFound => 404
  | .conflict => 409
  | .unavailable => 503
  | .internal => 500

end FaultKind

/-- The answer to a request that failed. -/
structure Fault where
  kind : FaultKind
  text : String
  deriving DecidableEq, Repr

namespace Fault

def message (fault : Fault) : String :=
  s!"{fault.kind.title}: {fault.text}"

def body (fault : Fault) : Json :=
  .obj [("message", .str fault.message)]

def ofFailure : Failure → Fault
  | .storage e => ⟨.unavailable, e.message⟩
  | .queue folder e => ⟨.internal, e.message folder⟩
  | .invalidInput text => ⟨.badRequest, text⟩
  | .invalidState text => ⟨.conflict, text⟩
  | .notFound text => ⟨.notFound, text⟩
  | .internal text => ⟨.internal, text⟩

end Fault

/-- A stored text or value that is not what it should be. -/
inductive Stored where
  | catalog
  | queuedCard
  | remoteCard
  deriving DecidableEq, Repr

def Stored.title : Stored → String
  | .catalog => "course catalog"
  | .queuedCard => "queued scorecard"
  | .remoteCard => "stored scorecard"

/-- What is said about a problem with a stored value.  The wording is our own: only the kind of the
problem is told, and neither its place nor what was expected there. -/
def problemText : Json.Problem → String
  | .malformed => "the text does not follow the format"
  | .truncated => "the text ends too early"
  | .mismatch => "the value is not of the expected kind"

/-- Why a request is refused. -/
inductive Refusal where
  | unfit (defects : Defects)
  | card (error : CardError)
  | storage (error : StorageError)
  | malformed (stored : Stored) (problem : Json.Problem)
  | unknownCourse (id : String)
  | unknownCard (id : ScorecardId)
  /-- The stored card has another id than the one asked for. -/
  | foreignCard (found wanted : ScorecardId)
  | noActiveCard
  /-- The queue failed; the path is that of its folder. -/
  | queue (folder : String) (error : QueueError)
  /-- A document cannot be written. -/
  | unwritten (obstacle : Json.Obstacle)

namespace Refusal

def failure : Refusal → Failure
  | .unfit defects =>
      .invalidInput ("validation failed: " ++ String.intercalate ", " (defects.map Prod.fst))
  | .card e => .ofCardError e
  | .storage e => .storage e
  | .malformed stored problem =>
      .invalidState s!"{stored.title} is malformed: {problemText problem}"
  | .unknownCourse id => .notFound s!"course `{id}` is not in the catalog"
  | .unknownCard id => .notFound s!"scorecard `{id.text}` does not exist"
  | .foreignCard found wanted =>
      .invalidState s!"stored document carries id `{found.text}` instead of `{wanted.text}`"
  | .noActiveCard => .invalidState "no scorecard is active"
  | .queue folder e => .queue folder e
  | .unwritten obstacle => .internal obstacle.message

def fault (refusal : Refusal) : Fault :=
  .ofFailure refusal.failure

end Refusal

end Scorekeeper.Service
