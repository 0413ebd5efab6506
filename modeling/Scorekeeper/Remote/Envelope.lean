import Scorekeeper.Json.Record

/-!
# Envelopes

Every answer of the remote store is wrapped in an envelope, which says whether
the request was applied.
-/

namespace Scorekeeper.Remote

open Json

inductive Verdict where
  | success
  | error
  deriving DecidableEq, Repr

namespace Verdict

def name : Verdict → String
  | .success => "Success"
  | .error => "Error"

def ofName? (name : String) : Option Verdict :=
  if name = "Success" then some .success
  else if name = "Error" then some .error
  else none

def codec : Codec Verdict :=
  .choice ofName? name

end Verdict

structure Envelope where
  status : Verdict
  message : Option String
  data : Option Json
  id : Option String
  deriving Repr

namespace Envelope

def codec : Codec Envelope :=
  ((Record.of Envelope.mk)
    |>.field "status" Verdict.codec status
    |>.fieldOption "message" .text message
    |>.fieldOption "data" .any data
    |>.fieldOption "id" .text id).codec

end Envelope

end Scorekeeper.Remote
