import Scorekeeper.Save.Session
import Scorekeeper.Service.View

/-!
# The status feed

A client that follows the save status is sent the current status at once and then
the latest one whenever it has been set since, but none of the steps in between.
When there is nothing to send for fifteen seconds, a comment keeps the connection
alive.
-/

namespace Scorekeeper.Service

open Save

structure Feed where
  /-- How often the status had been set when it was last sent. -/
  seen : Option Nat
  /-- The time of the last sending, in milliseconds. -/
  since : Nat
  deriving DecidableEq, Repr

namespace Feed

def silenceLimit : Nat := 15000

def new (now : Nat) : Feed where
  seen := none
  since := now

def eventText (status : Status) : String :=
  "event: save_status\ndata: " ++ (viewStatusEvent status).text ++ "\n\n"

/-- The next piece of the feed, if there is one. -/
def read (feed : Feed) (session : Session) (now : Nat) : Option String × Feed :=
  if feed.seen ≠ some session.revision then
    (some (eventText session.status), { seen := some session.revision, since := now })
  else if feed.since + silenceLimit ≤ now then
    (some ": keep-alive\n\n", { feed with since := now })
  else (none, feed)

end Feed

end Scorekeeper.Service
