import Scorekeeper.Remote.Answer
import Scorekeeper.Remote.Envelope
import Scorekeeper.Remote.Reference
import Scorekeeper.Remote.Status

/-!
# The remote store

The store is reached by three requests: upload a document, download one, and
probe the store.  What comes of a request is delivered as a status with its body,
or as the reason why there is none; the functions here turn a delivery into the
answer of the call.  An upload counts as done only if the store confirmed it.
-/

namespace Scorekeeper.Remote

/-- Why the store could not do what it was asked.  Saving is tried again in both cases. -/
inductive StorageError where
  /-- The store did not answer, or not sensibly. -/
  | unavailable (reason : String)
  /-- The store answered and refused. -/
  | rejected (reason : String)
  deriving DecidableEq, Repr

namespace StorageError

def message : StorageError → String
  | .unavailable reason => s!"storage unavailable: {reason}"
  | .rejected reason => s!"storage rejected request: {reason}"

def isRejection : StorageError → Bool
  | .unavailable _ => false
  | .rejected _ => true

end StorageError

inductive DocumentKind where
  | scorecard
  | courses
  deriving DecidableEq, Repr

/-- The first part of the path of a document. -/
def DocumentKind.segment : DocumentKind → String
  | .scorecard => "scorecard"
  | .courses => "courses"

/-- The address of a document. -/
structure DocumentKey where
  kind : DocumentKind
  id : String
  deriving DecidableEq, Repr

namespace DocumentKey

def scorecard (id : String) : DocumentKey :=
  ⟨.scorecard, id⟩

def courses (userspace : String) : DocumentKey :=
  ⟨.courses, userspace⟩

def path (key : DocumentKey) : String :=
  key.kind.segment ++ "/" ++ key.id

end DocumentKey

/-- What comes of a request. -/
inductive Delivery where
  /-- A status and the body, `none` if it broke off. -/
  | answered (status : Nat) (body : Option ByteArray)
  /-- No connection, or one that was closed without an answer. -/
  | dropped
  | timedOut

/-- The text of an answer: a character for each byte. -/
def textOfBytes (bytes : ByteArray) : List Char :=
  bytes.data.toList.map fun b => Char.ofNat b.toNat

def bytesOfText (text : List Char) : ByteArray :=
  ⟨(text.map fun c => c.toNat.toUInt8).toArray⟩

/-- Whether an answer sends a request at `address` on to another place: it is a redirection, and
the first location in it points somewhere. -/
def Answer.sendsOn (address : Address) (answer : Answer) : Bool :=
  let location := (answer.values "location").head?
  isRedirection answer.status
    && (location.bind fun location => String.fromUTF8? (bytesOfText location)).any fun reference =>
      leadsOn address reference.toList

namespace Delivery

/-- The delivery of the answer in a text to a request at `address`.  Nothing answers where the
request is sent on to, for a connection serves one request. -/
def ofText (address : Address) (text : List Char) : Delivery :=
  match Answer.final? text with
  | none => .dropped
  | some answer =>
    match answer.extent? with
    | none => .dropped
    | some extent =>
      if answer.sendsOn address then .dropped
      else .answered answer.status ((extent.body? answer.rest).map bytesOfText)

/-- The delivery of an answer with a body of which only `sent` arrived, whole or not.  After an
answer that only informs these bytes are the next one, and numbers of more or less than three
digits are no statuses. -/
def ofAnswer (address : Address) (status : Nat) (sent : ByteArray) (isWhole : Bool) : Delivery :=
  if isInformational status then ofText address (textOfBytes sent)
  else if 100 ≤ status && status < 1000 then
    .answered status
      (if hasNoBody status then some .empty else if isWhole then some sent else none)
  else .dropped

end Delivery

/-- What went wrong with a request for `path`. -/
inductive RequestError where
  | timedOut (path : String)
  | unsent (path : String)
  | badStatus (path : String) (status : Nat)
  | undecodable (path : String)
  | refused (path message : String)
  deriving DecidableEq, Repr

namespace RequestError

def message : RequestError → String
  | .timedOut path => s!"remote store request to `{path}` timed out"
  | .unsent path => s!"failed to send remote store request to `{path}`"
  | .badStatus path status =>
      s!"unexpected remote store response status {statusText status} for `{path}`"
  | .undecodable path => s!"failed to decode remote store response for `{path}`"
  | .refused path message => s!"remote store refused `{path}`: {message}"

/-- Only the refusals of a store that understood the request are rejections. -/
def toStorage (e : RequestError) : StorageError :=
  match e with
  | .badStatus _ status =>
    if isClientError status then .rejected e.message else .unavailable e.message
  | .refused _ _ => .rejected e.message
  | _ => .unavailable e.message

end RequestError

/-- Reads the body of an answer, which should say that the request was applied. -/
def readEnvelope (path : String) (body : Option ByteArray) : Except RequestError Envelope :=
  match body with
  | none => .error (.unsent path)
  | some bytes =>
    match Envelope.codec.readBytes bytes with
    | .error _ => .error (.undecodable path)
    | .ok envelope =>
      match envelope.status with
      | .success => .ok envelope
      | .error => .error (.refused path (envelope.message.getD "no message"))

/-- The answer to an upload. -/
def uploadResult (path : String) : Delivery → Except RequestError Unit
  | .dropped => .error (.unsent path)
  | .timedOut => .error (.timedOut path)
  | .answered status body =>
    if isSuccess status then (readEnvelope path body).map fun _ => ()
    else .error (.badStatus path status)

/-- The answer to a download, `none` if there is no such document. -/
def downloadResult (path : String) : Delivery → Except RequestError (Option Json)
  | .dropped => .error (.unsent path)
  | .timedOut => .error (.timedOut path)
  | .answered status body =>
    if status = 404 then .ok none
    else if isSuccess status then
      (readEnvelope path body).map fun envelope => envelope.data.filter fun data => !data.isNull
    else .error (.badStatus path status)

/-- The answer to a probe, which never reads the body. -/
def healthResult (path : String) : Delivery → Except RequestError Unit
  | .dropped => .error (.unsent path)
  | .timedOut => .error (.timedOut path)
  | .answered status _ =>
    if isServerError status then .error (.badStatus path status) else .ok ()

def orStorage {A : Type} (result : Except RequestError A) : Except StorageError A :=
  result.mapError RequestError.toStorage

/-- Requests to the store. -/
inductive Call where
  | upload (key : DocumentKey) (payload : String)
  | download (key : DocumentKey)
  | health

structure Request where
  method : String
  address : String
  contentType : Option String
  body : String
  deriving DecidableEq, Repr

/-- Where a request goes, if its address is well formed.  The name and password in it are not part
of the place. -/
def Request.destination? (request : Request) : Option Address :=
  ((Address.read? request.address.toList).map fun address => { address with user := [] }).filter
    fun address => address.scheme.isServed && address.isWritable

/-- The base address without the slashes at its end. -/
def trimBase (base : String) : String :=
  String.ofList (base.toList.reverse.dropWhile (· == '/')).reverse

namespace Call

/-- The request that a call sends to the store at `base`. -/
def request (base : String) : Call → Request
  | .upload key payload =>
    { method := "PUT", address := trimBase base ++ "/" ++ key.path
      contentType := some "application/json", body := payload }
  | .download key =>
    { method := "GET", address := trimBase base ++ "/" ++ key.path
      contentType := none, body := "" }
  | .health =>
    { method := "GET", address := trimBase base ++ "/", contentType := none, body := "" }

/-- How the call is named in errors: by the path of its document, or a probe by its address. -/
def path (base : String) : Call → String
  | .upload key _ => key.path
  | .download key => key.path
  | .health => trimBase base ++ "/"

/-- What the call answers, given what came of its request. -/
def result (base : String) (call : Call) (delivery : Delivery) :
    Except StorageError (Option Json) :=
  match call with
  | .upload _ _ => (orStorage (uploadResult (call.path base) delivery)).map fun _ => none
  | .download _ => orStorage (downloadResult (call.path base) delivery)
  | .health => (orStorage (healthResult (call.path base) delivery)).map fun _ => none

end Call

end Scorekeeper.Remote
