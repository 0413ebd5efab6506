import Scorekeeper.Service.State
import Scorekeeper.Text.Affix
import Scorekeeper.Text.Numeral
import Scorekeeper.Text.Percent
import Scorekeeper.Text.Token

/-!
# Routes

A request names its action by method and path.  What is looked at first decides
between several faults: the path, the method, the parameters in the path, the
kind of body, and then the body itself.
-/

namespace Scorekeeper.Service

open Json Text

structure HttpRequest where
  method : String
  /-- What is asked for: a path with its query, or a whole address. -/
  target : String
  contentType : Option String
  body : ByteArray

/-- Why a request names no action. -/
inductive RouteError where
  | unknownPath
  | unknownMethod
  | badParameter
  | unsupportedMedia
  | longBody
  | badBody (problem : Problem)
  deriving DecidableEq, Repr

def RouteError.status : RouteError → Nat
  | .unknownPath => 404
  | .unknownMethod => 405
  | .badParameter => 400
  | .unsupportedMedia => 415
  | .longBody => 413
  | .badBody .mismatch => 422
  | .badBody _ => 400

/-- The paths of the service; parameters are as written. -/
inductive Endpoint where
  | health
  | statusFeed
  | userspace
  | courses
  | cards
  | storedCard (id : List Char)
  | card
  | score (number hole : List Char)
  | par (hole : List Char)
  | players
  | player (number : List Char)
  | notes
  | save
  deriving DecidableEq, Repr

namespace Endpoint

/-- The endpoint of a path given by its parts.  A parameter may be empty unless it comes last. -/
def ofParts (parts : List (List Char)) : Option Endpoint :=
  if parts.getLast? = some [] then none
  else
    match parts.map String.ofList with
    | ["healthcheck"] => some .health
    | ["sse", "save-status"] => some .statusFeed
    | ["userspace"] => some .userspace
    | ["courses"] => some .courses
    | ["scorecards"] => some .cards
    | ["scorecards", id, "load"] => some (.storedCard id.toList)
    | ["scorecard"] => some .card
    | ["scorecard", "players", number, "holes", hole] => some (.score number.toList hole.toList)
    | ["scorecard", "pars", hole] => some (.par hole.toList)
    | ["scorecard", "players"] => some .players
    | ["scorecard", "players", number] => some (.player number.toList)
    | ["scorecard", "notes"] => some .notes
    | ["scorecard", "save"] => some .save
    | _ => none

/-- What follows the scheme and the authority of an address; nothing if there is no scheme. -/
def dropAuthority (address : List Char) : List Char :=
  match dropHead "://".toList (address.dropWhile (· != ':')) with
  | some rest => rest.dropWhile fun c => c != '/' && c != '?' && c != '#'
  | none => []

/-- The path of a request target. -/
def pathOf (target : List Char) : List Char :=
  let target := if target.head? = some '/' then target else dropAuthority target
  target.takeWhile fun c => c != '?' && c != '#'

def ofTarget (target : String) : Option Endpoint :=
  match pathOf target.toList with
  | '/' :: rest => ofParts (split '/' rest)
  | _ => none

/-- Whether the endpoint can be read. -/
def isReadable : Endpoint → Bool
  | .health | .statusFeed | .courses | .card => true
  | _ => false

end Endpoint

def textParameter (part : List Char) : Except RouteError String :=
  match percentText? part with
  | some text => .ok text
  | none => .error .badParameter

/-- A number of at most `bound`. -/
def numberParameter (bound : Nat) (part : List Char) : Except RouteError Nat := do
  match readUnsigned bound (← textParameter part).toList with
  | some n => .ok n
  | none => .error .badParameter

def playerParameter (part : List Char) : Except RouteError UInt32 :=
  (numberParameter (UInt32.size - 1) part).map UInt32.ofNat

def holeParameter (part : List Char) : Except RouteError Nat :=
  numberParameter (UInt64.size - 1) part

/-- The characters that a quoted value is made of. -/
def isQuotable (c : Char) : Bool :=
  0x20 ≤ c.toNat && c.toNat < 0x7F

/-- What follows a quoted value and its blanks, after the opening quote.  The first character is
never the closing quote, so that no quoted value is empty. -/
def afterQuoted : List Char → Option (List Char)
  | [] => none
  | first :: rest =>
    let inner := rest.takeWhile (· != '"')
    match (first :: inner).all isQuotable, rest.drop inner.length with
    | true, _ :: more => some (more.dropWhile (· == ' '))
    | _, _ => none

/-- Whether the parameters of a media type are well formed, after a semicolon; the number bounds
how many there are. -/
def areParameters : Nat → List Char → Bool
  | 0, _ => false
  | fuel + 1, cs =>
    let cs := cs.dropWhile (· == ' ')
    let name := cs.takeWhile isTokenChar
    match cs, name.isEmpty, cs.drop name.length with
    | [], _, _ => true
    | _, false, '=' :: '"' :: rest =>
      match afterQuoted rest with
      | some [] => true
      | some (';' :: more) => areParameters fuel more
      | _ => false
    | _, false, '=' :: rest =>
      let value := rest.takeWhile isTokenChar
      match value.isEmpty, rest.drop value.length with
      | _, [] => true
      | false, ';' :: more => areParameters fuel more
      | _, _ => false
    | _, _, _ => false

/-- Whether a media type stands for documents: `application/json`, or `application/` with a name
that ends in `+json`, in either case and with any parameters. -/
def isDocumentType (media : String) : Bool :=
  let cs := media.toList
  let kind := cs.takeWhile isTokenChar
  match cs.drop kind.length with
  | '/' :: rest =>
    let name := rest.takeWhile isTokenChar
    let parameters :=
      match rest.drop name.length with
      | [] => true
      | ';' :: more => areParameters (more.length + 1) more
      | _ => false
    let plain := (toLower name).reverse
    let ending := plain.takeWhile (· != '+')
    let start := plain.drop (ending.length + 1)
    toLower kind == "application".toList && parameters
      && (if start.isEmpty then plain.reverse == "json".toList
          else ending.reverse == "json".toList || start.reverse == "json".toList)
  | _ => false

/-- The longest body that is read, in bytes. -/
def bodyLimit : Nat := 2097152

/-- Reads the body of a request. -/
def readBody {A : Type} (codec : Codec A) (request : HttpRequest) : Except RouteError A :=
  if (request.contentType.map isDocumentType).getD false then
    if bodyLimit < request.body.size then .error .longBody
    else (codec.readBytes request.body).mapError .badBody
  else .error .unsupportedMedia

namespace Action

/-- The action of a request to an endpoint. -/
def ofEndpoint (endpoint : Endpoint) (request : HttpRequest) : Except RouteError Action :=
  match endpoint, request.method with
  | .health, "GET" => .ok .health
  | .statusFeed, "GET" => .ok .followStatus
  | .userspace, "POST" => (readBody OpenUserspace.codec request).map .openUserspace
  | .courses, "GET" => .ok .listCourses
  | .cards, "POST" => (readBody CreateCard.codec request).map .createCard
  | .storedCard id, "POST" => (textParameter id).map .loadCard
  | .card, "GET" => .ok .viewCard
  | .score number hole, "PUT" => do
    let number ← playerParameter number
    let hole ← holeParameter hole
    (readBody SetScore.codec request).map (.setScore number hole)
  | .par hole, "PUT" => do
    let hole ← holeParameter hole
    (readBody SetPar.codec request).map (.setPar hole)
  | .players, "POST" => (readBody AddPlayer.codec request).map .addPlayer
  | .players, "DELETE" => .ok .removePlayer
  | .player number, "PUT" => do
    let number ← playerParameter number
    (readBody RenamePlayer.codec request).map (.renamePlayer number)
  | .notes, "PUT" => (readBody SetNotes.codec request).map .setNotes
  | .save, "POST" => .ok .saveCard
  | _, _ => .error .unknownMethod

end Action

/-- What is sent back. -/
inductive Content where
  | nothing
  | value (body : Json)
  /-- A stream of status events, or one that has ended before the first. -/
  | stream (isOpen : Bool)

structure Reply where
  status : Nat
  content : Content

namespace Reply

def ofAnswer : Answer → Reply
  | .value status body => ⟨status, .value body⟩
  | .stream => ⟨200, .stream true⟩

def ofRefusal (refusal : Refusal) : Reply :=
  ⟨refusal.fault.kind.status, .value refusal.fault.body⟩

def ofOutcome : Except Refusal Answer → Reply
  | .ok answer => ofAnswer answer
  | .error refusal => ofRefusal refusal

/-- The reply without its content.  A stream is still one, but nothing comes of it. -/
def bare (reply : Reply) : Reply :=
  match reply.content with
  | .stream _ => { reply with content := .stream false }
  | _ => { reply with content := .nothing }

end Reply

namespace State

def respondAt (state : State) (outside : Outside) (endpoint : Endpoint) (request : HttpRequest) :
    Reply × State :=
  match Action.ofEndpoint endpoint request with
  | .error e => (⟨e.status, .nothing⟩, state)
  | .ok action =>
    let (outcome, state) := state.perform outside action
    (.ofOutcome outcome, state)

/-- Answers a request.  Asking for the head of what can be read gives its answer without the
content. -/
def respond (state : State) (outside : Outside) (request : HttpRequest) : Reply × State :=
  match Endpoint.ofTarget request.target with
  | none => (⟨RouteError.unknownPath.status, .nothing⟩, state)
  | some endpoint =>
    if request.method = "HEAD" ∧ endpoint.isReadable = true then
      let (reply, state) := state.respondAt outside endpoint { request with method := "GET" }
      (reply.bare, state)
    else state.respondAt outside endpoint request

end State

end Scorekeeper.Service
