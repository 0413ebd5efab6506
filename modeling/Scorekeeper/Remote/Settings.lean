import Scorekeeper.Text.Numeral

/-!
# Settings of the remote store

Where the store is and how long to wait for it come from two variables.  The
address must be given; a timeout that is no number is passed over.
-/

namespace Scorekeeper.Remote

open Text

structure Settings where
  base : String
  timeoutSeconds : Nat
  deriving DecidableEq, Repr

namespace Settings

def defaultTimeoutSeconds : Nat := 10

def addressVariable : String := "SCORECARD_REMOTE_URL"

def missingMessage : String :=
  s!"missing remote store environment variable `{addressVariable}`"

/-- The settings that the two variables make, or none without an address. -/
def ofVariables (address timeout : Option String) : Option Settings :=
  address.map fun base =>
    { base
      timeoutSeconds :=
        (timeout.bind fun text => readUnsigned (UInt64.size - 1) text.toList).getD
          defaultTimeoutSeconds }

end Settings

end Scorekeeper.Remote
