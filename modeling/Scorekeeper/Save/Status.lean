/-!
# Save status

What clients are shown of the saving of cards.
-/

namespace Scorekeeper.Save

inductive Status where
  /-- Nothing in flight and nothing waiting. -/
  | idle
  /-- An upload or a retry pass is running. -/
  | saving
  /-- At least one payload waits in the queue for the retry timer. -/
  | queued
  deriving DecidableEq, Repr

def Status.name : Status → String
  | .idle => "idle"
  | .saving => "saving"
  | .queued => "queued"

end Scorekeeper.Save
