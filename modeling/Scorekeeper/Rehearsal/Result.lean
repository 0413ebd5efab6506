import Scorekeeper.Service.Route

/-!
# Results of a rehearsal

What each command of a rehearsal answers.
-/

namespace Scorekeeper.Rehearsal

open Queue Save Service

inductive Result where
  | nothing
  | text (value : Option String)
  | texts (values : List String)
  | flag (value : Bool)
  | count (value : Nat)
  /-- The number of entries of the queue. -/
  | size (value : Nat)
  | outcome (value : Outcome)
  | report (value : Report)
  | uploads (values : List Upload)
  | reply (value : Reply)
  | refused (error : CardError)
  | failed (error : QueueError)
  | names (values : List Files.FileName)

def Result.ofQueue {A : Type} (make : A → Result) : Except QueueError A → Result
  | .ok value => make value
  | .error e => .failed e

end Scorekeeper.Rehearsal
