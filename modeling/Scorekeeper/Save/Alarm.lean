/-!
# The retry timer

One slot says which timer is armed.  Timers are told apart by generation numbers:
a timer that expires starts a retry pass only if the slot still holds its number,
so a timer that was replaced or cancelled does nothing, even if it expires at the
same moment.
-/

namespace Scorekeeper.Save

/-- A running timer and the time at which it expires, in milliseconds. -/
structure Timer where
  generation : UInt64
  due : Nat
  deriving DecidableEq, Repr

structure Alarm where
  /-- The generation number that was handed out last. -/
  drawn : UInt64
  /-- The generation number of the armed timer. -/
  slot : Option UInt64
  /-- The timers that have not expired yet, oldest first. -/
  timers : List Timer
  deriving DecidableEq, Repr

namespace Alarm

def silent : Alarm where
  drawn := 0
  slot := none
  timers := []

def isArmed (alarm : Alarm) : Bool :=
  alarm.slot.isSome

/-- Hands out the next generation number. -/
def draw (alarm : Alarm) : UInt64 × Alarm :=
  (alarm.drawn + 1, { alarm with drawn := alarm.drawn + 1 })

/-- Puts a number in the slot, in the place of the one before. -/
def install (alarm : Alarm) (generation : UInt64) : Alarm :=
  { alarm with slot := some generation }

def start (alarm : Alarm) (generation : UInt64) (due : Nat) : Alarm :=
  { alarm with timers := alarm.timers ++ [{ generation, due }] }

/-- Arms a new timer. -/
def schedule (alarm : Alarm) (due : Nat) : Alarm :=
  let (generation, alarm) := alarm.draw
  (alarm.install generation).start generation due

/-- Empties the slot; tells whether a timer was armed. -/
def cancel (alarm : Alarm) : Bool × Alarm :=
  (alarm.isArmed, { alarm with slot := none })

/-- The timer of a generation expires; tells whether that starts a pass. -/
def expire (alarm : Alarm) (generation : UInt64) : Bool × Alarm :=
  match alarm.timers.find? fun timer => timer.generation == generation with
  | none => (false, alarm)
  | some timer =>
    let alarm := { alarm with timers := alarm.timers.erase timer }
    if alarm.slot = some generation then (true, { alarm with slot := none }) else (false, alarm)

end Alarm

end Scorekeeper.Save
