import Scorekeeper.Proofs.Service.Loading
import Scorekeeper.Proofs.Service.Refused

/-!
# Faults of the service

Refusals are answered with a few kinds of faults.  Two of them are not the fault of who
asked.  An internal error is answered when the queue fails or a document cannot be written.
No request comes to that: the queue is only read, and passed over where it cannot be read,
and every card can be written.  A store that does not answer is the fault exactly when the
request had to download a document and could not.
What may be wrong with a stored card is never found out by editing one, since every card
that is there to be edited is sound, and what is entered has been checked before.
-/

namespace Scorekeeper

/-- Errors about what a stored card or a course holds, and about a value that no field may
hold. -/
def CardError.isOfDocument : CardError → Bool
  | .invalidValue _ | .lengthMismatch _ _ _ | .invalidId _ | .emptyCourse _ | .noPlayers
  | .playerNumbering _ _ => true
  | _ => false

namespace Card

variable {card : Card} {change : Edit}

theorem valueObjection_eq_none {value : Int} (hvalue : 0 ≤ value ∧ value ≤ maxValue) :
    valueObjection value = none :=
  if_pos hvalue

/-- An edit within the limits is refused for its hole, its row or its name. -/
theorem isOfDocument_of_objection {holes : Nat} {numbers : List UInt32} {error : CardError}
    (hlimits : change.IsWithinLimits) (hobjection : change.objection holes numbers = some error) :
    error.isOfDocument = false := by
  cases change with
  | setScore number hole value qualifiers =>
      rw [Edit.objection, valueObjection_eq_none hlimits.1] at hobjection
      split at hobjection
      · cases hobjection
        rfl
      · split at hobjection
        · cases hobjection
        · cases hobjection
          rfl
  | setPar hole value =>
      rw [Edit.objection, valueObjection_eq_none hlimits, Option.none_or] at hobjection
      split at hobjection
      · cases hobjection
        rfl
      · cases hobjection
  | rename number name =>
      rw [Edit.objection] at hobjection
      split at hobjection
      · split at hobjection
        · cases hobjection
          rfl
        · cases hobjection
      · cases hobjection
        rfl
  | updateTotals rows =>
      cases rows with
      | all => cases hobjection
      | only number =>
          rw [Edit.objection] at hobjection
          split at hobjection
          · cases hobjection
          · cases hobjection
            rfl
  | _ => cases hobjection

theorem IsAligned.isOfDocument_of_refused (haligned : card.IsAligned) {error : CardError}
    (hlimits : change.IsWithinLimits) (hrefused : card.outcome change = .error error) :
    error.isOfDocument = false :=
  isOfDocument_of_objection hlimits (haligned.objection_of_refused hrefused)

end Card

namespace Service

open Queue Remote Save

theorem isOfDocument_of_ofPassphrase {passphrase : String} {error : CardError}
    (hunnamed : UserspaceId.ofPassphrase passphrase = .error error) :
    error.isOfDocument = false := by
  rw [UserspaceId.ofPassphrase] at hunnamed
  split at hunnamed
  · cases hunnamed
    rfl
  · cases hunnamed

theorem isOfDocument_of_startCard {request : CreateCard} {course : Course}
    {space : Option UserspaceId} {draw : Draw} {error : CardError} (hfit : request.defects = [])
    (hunstarted : startCard request course space draw = .error error) :
    error.isOfDocument = false := by
  rw [startCard] at hunstarted
  cases hstart : Card.start course space draw with
  | error refused =>
      rw [hstart] at hunstarted
      cases hunstarted
      rw [Card.start] at hstart
      split at hstart
      · cases hstart
      · cases hstart
        rfl
  | ok card =>
      rw [hstart] at hunstarted
      -- only the first player is renamed, the others are added
      have hlimits := isWithinLimits_lineUpEdits hfit
      change lineUp card request.playerNames = .error error at hunstarted
      cases hplayers : request.playerNames with
      | nil =>
          rw [hplayers] at hunstarted
          cases hunstarted
      | cons first rest =>
          rw [hplayers] at hunstarted hlimits
          have hfirst := hlimits _ List.mem_cons_self
          rw [lineUp] at hunstarted
          split at hunstarted
          · next refused _ hrename =>
            cases hunstarted
            exact (Card.isAligned_start hstart).isOfDocument_of_refused hfirst
              (congrArg Prod.fst hrename)
          · cases hunstarted

/-! ## Kinds of faults -/

/-- The service has failed: its queue did, or a document of its own cannot be written. -/
def Refusal.isInternal : Refusal → Bool
  | .queue _ _ | .unwritten _ => true
  | _ => false

theorem kind_fault (refusal : Refusal) :
    (refusal.fault.kind = .internal ↔ refusal.isInternal = true) ∧
      (refusal.fault.kind = .unavailable ↔ ∃ error, refusal = .storage error) := by
  cases refusal with
  | card error =>
      cases error <;>
        simp [Refusal.fault, Refusal.failure, Failure.ofCardError, Fault.ofFailure,
          Refusal.isInternal]
  | _ => simp [Refusal.fault, Refusal.failure, Fault.ofFailure, Refusal.isInternal]

theorem status_kind_iff {kind : FaultKind} :
    (kind.status = 500 ↔ kind = .internal) ∧ (kind.status = 503 ↔ kind = .unavailable) := by
  cases kind <;> decide

theorem RouteError.status_lt (error : RouteError) : error.status < 500 := by
  cases error with
  | badBody problem => cases problem <;> decide
  | _ => decide

namespace State

variable {state : State} {outside : Outside} {action : Action} {request : HttpRequest}

/-! ## Downloads -/

/-- The document that an action has to download: the catalog of the userspace to be opened, or
a card of which no copy can be read in the queue. -/
inductive Downloads (state : State) (outside : Outside) : Action → DocumentKey → Prop
  | catalog {request : OpenUserspace} {space : UserspaceId} (fit : request.defects = [])
      (named : UserspaceId.ofPassphrase request.passphrase = .ok space) :
      Downloads state outside (.openUserspace request) (.courses space.text)
  | card {text : String} {id : ScorecardId} (parsed : ScorecardId.parse text = .ok id)
      (unqueued : ∀ payload, get outside.luck (keyFor state.session.base id.text)
        state.world.folder ≠ .ok (some payload)) :
      Downloads state outside (.loadCard text) (.scorecard id.text)

theorem readCatalog_eq_storage_iff {download : Except StorageError (Option Json)}
    {error : StorageError} :
    readCatalog download = .error (.storage error) ↔ download = .error error := by
  cases download with
  | error refused => simp [readCatalog]
  | ok data =>
      cases data with
      | none => simp [readCatalog]
      | some data =>
          rw [readCatalog]
          split <;> simp

theorem ne_card_of_readCatalog {download : Except StorageError (Option Json)}
    {refusal : Refusal} (hunread : readCatalog download = .error refusal) (error : CardError) :
    refusal ≠ .card error := by
  rintro rfl
  cases download with
  | error refused => cases hunread
  | ok data =>
      cases data with
      | none => cases hunread
      | some data =>
          rw [readCatalog] at hunread
          split at hunread <;> cases hunread

theorem isInternal_of_readCatalog {download : Except StorageError (Option Json)}
    {refusal : Refusal} (hunread : readCatalog download = .error refusal) :
    refusal.isInternal = false := by
  cases download with
  | error refused =>
      cases hunread
      rfl
  | ok data =>
      cases data with
      | none => cases hunread
      | some data =>
          rw [readCatalog] at hunread
          split at hunread
          · cases hunread
            rfl
          · cases hunread

theorem eq_unknownCourse_of_chooseCourse {courses : List Course} {request : CreateCard}
    {refusal : Refusal} (hunchosen : chooseCourse courses request = .error refusal) :
    refusal = .unknownCourse (Text.trim request.courseId) := by
  rw [chooseCourse] at hunchosen
  split at hunchosen
  · cases hunchosen
  · cases hunchosen
    rfl

theorem fetch_eq_storage_iff {id : ScorecardId} {error : StorageError} :
    state.fetch outside id = .error (.storage error) ↔
      (∀ payload, get outside.luck (keyFor state.session.base id.text) state.world.folder ≠
        .ok (some payload)) ∧ outside.download (.scorecard id.text) = .error error := by
  by_cases hqueued : ∃ payload, get outside.luck (keyFor state.session.base id.text)
      state.world.folder = .ok (some payload)
  · obtain ⟨payload, hpayload⟩ := hqueued
    rw [fetch_of_queued hpayload, mapError_eq_error_iff]
    constructor
    · rintro ⟨problem, -, hproblem⟩
      cases hproblem
    · rintro ⟨hempty, -⟩
      exact absurd hpayload (hempty payload)
  · have hempty := not_exists.mp hqueued
    rw [fetch_of_empty hempty, fetchStored]
    cases outside.download (.scorecard id.text) with
    | error refused => simpa using fun _ => hempty
    | ok stored =>
        cases stored with
        | none => simp
        | some data => simp [mapError_eq_error_iff]

/-- A queue that cannot be read is no failure when a card is fetched. -/
theorem isInternal_of_fetch {id : ScorecardId} {refusal : Refusal}
    (hunfetched : state.fetch outside id = .error refusal) : refusal.isInternal = false := by
  rw [fetch] at hunfetched
  split at hunfetched
  · obtain ⟨problem, -, rfl⟩ := mapError_eq_error_iff.mp hunfetched
    rfl
  · split at hunfetched
    · cases hunfetched
      rfl
    · cases hunfetched
      rfl
    · obtain ⟨problem, -, rfl⟩ := mapError_eq_error_iff.mp hunfetched
      rfl

theorem isInternal_of_load {text : String} {refusal : Refusal}
    (hunloaded : state.load outside text = .error refusal) : refusal.isInternal = false := by
  rw [load] at hunloaded
  simp only [bind_eq_error_iff, mapError_eq_error_iff] at hunloaded
  obtain ⟨error, -, rfl⟩ | ⟨id, -, hunloaded⟩ := hunloaded
  · rfl
  obtain hunfetched | ⟨document, -, hunloaded⟩ := hunloaded
  · exact isInternal_of_fetch hunfetched
  obtain ⟨error, -, rfl⟩ | ⟨card, -, hforeign⟩ := hunloaded
  · rfl
  · split at hforeign
    · cases hforeign
    · cases hforeign
      rfl

/-- No action is refused because the service itself has failed. -/
theorem IsSound.isInternal_of_refused (hsound : state.IsSound) {refusal : Refusal}
    (hrefused : (state.perform outside action).1 = .error refusal) :
    refusal.isInternal = false := by
  have hperforms := hsound.performs outside action
  generalize state.perform outside action = result at hperforms hrefused
  cases hperforms with
  | unread fit named unread =>
      cases hrefused
      exact isInternal_of_readCatalog unread
  | unchosen fit unchosen =>
      cases hrefused
      rw [eq_unknownCourse_of_chooseCourse unchosen]
      rfl
  | unloaded unloaded =>
      cases hrefused
      exact isInternal_of_load unloaded
  | shown | edited | opened | created | loaded => cases hrefused
  | _ =>
      cases hrefused
      rfl

theorem load_eq_storage_iff {text : String} {error : StorageError} :
    state.load outside text = .error (.storage error) ↔
      ∃ id, ScorecardId.parse text = .ok id ∧
        state.fetch outside id = .error (.storage error) := by
  rw [load]
  simp only [bind_eq_error_iff, mapError_eq_error_iff, mapError_eq_ok_iff]
  constructor
  · rintro (⟨refused, -, hrefused⟩ | ⟨id, hparsed, hfetch | ⟨document, -, hmade⟩⟩)
    · cases hrefused
    · exact ⟨id, hparsed, hfetch⟩
    · obtain ⟨refused, -, hrefused⟩ | ⟨card, -, hchecked⟩ := hmade
      · cases hrefused
      · split at hchecked <;> cases hchecked
  · rintro ⟨id, hparsed, hfetch⟩
    exact .inr ⟨id, hparsed, .inl hfetch⟩

/-- The store is what fails when a document has to be downloaded and the store does not give
it, and never else. -/
theorem IsSound.perform_eq_storage_iff (hsound : state.IsSound) {error : StorageError} :
    (state.perform outside action).1 = .error (.storage error) ↔
      ∃ key, state.Downloads outside action key ∧ outside.download key = .error error := by
  constructor
  · intro hrefused
    have hperforms := hsound.performs outside action
    generalize state.perform outside action = result at hperforms hrefused
    cases hperforms with
    | unread fit named unread =>
        cases hrefused
        exact ⟨_, .catalog fit named, readCatalog_eq_storage_iff.mp unread⟩
    | unloaded unloaded =>
        cases hrefused
        obtain ⟨id, hparsed, hfetch⟩ := load_eq_storage_iff.mp unloaded
        obtain ⟨hunqueued, hfailed⟩ := fetch_eq_storage_iff.mp hfetch
        exact ⟨_, .card hparsed hunqueued, hfailed⟩
    | unchosen fit unchosen =>
        cases hrefused
        cases eq_unknownCourse_of_chooseCourse unchosen
    | _ => cases hrefused
  · rintro ⟨key, hdownloads, hfailed⟩
    cases hdownloads with
    | @catalog request space fit named =>
        have hunread := readCatalog_eq_storage_iff.mpr hfailed
        rw [perform, checked, if_pos (List.isEmpty_iff.mpr fit), openUserspace, named]
        dsimp only
        rw [hunread]
        rfl
    | @card text id parsed unqueued =>
        have hunloaded : state.load outside text = .error (.storage error) :=
          load_eq_storage_iff.mpr ⟨id, parsed, fetch_eq_storage_iff.mpr ⟨unqueued, hfailed⟩⟩
        rw [perform, loadCard, hunloaded]
        rfl

theorem fetch_of_download_eq {download : DocumentKey → Except StorageError (Option Json)}
    {id : ScorecardId}
    (hsame : (∀ payload, get outside.luck (keyFor state.session.base id.text)
        state.world.folder ≠ .ok (some payload)) →
      download (.scorecard id.text) = outside.download (.scorecard id.text)) :
    state.fetch { outside with download } id = state.fetch outside id := by
  by_cases hqueued : ∃ payload, get outside.luck (keyFor state.session.base id.text)
      state.world.folder = .ok (some payload)
  · obtain ⟨payload, hpayload⟩ := hqueued
    calc
      state.fetch { outside with download } id =
          (ScorecardDocument.codec.readText payload).mapError (.malformed .queuedCard) :=
        fetch_of_queued hpayload
      _ = state.fetch outside id := (fetch_of_queued hpayload).symm
  · have hempty := not_exists.mp hqueued
    calc
      state.fetch { outside with download } id = fetchStored { outside with download } id :=
        fetch_of_empty hempty
      _ = fetchStored outside id := by
        rw [fetchStored, fetchStored]
        dsimp only
        rw [hsame hempty]
      _ = state.fetch outside id := (fetch_of_empty hempty).symm

/-- What the store would answer for any other document does not matter. -/
theorem perform_of_download_eq
    {download : DocumentKey → Except StorageError (Option Json)}
    (hsame : ∀ key, state.Downloads outside action key → download key = outside.download key) :
    state.perform { outside with download } action = state.perform outside action := by
  cases action with
  | openUserspace request =>
      rw [perform, perform, checked, checked]
      split
      · next hfit =>
        rw [openUserspace, openUserspace]
        cases hnamed : UserspaceId.ofPassphrase request.passphrase with
        | error error => rfl
        | ok space =>
            dsimp only
            rw [hsame _ (.catalog (List.isEmpty_iff.mp hfit) hnamed)]
      · rfl
  | loadCard text =>
      have hload : state.load { outside with download } text = state.load outside text := by
        rw [load, load]
        cases hparsed : ScorecardId.parse text with
        | error error => rfl
        | ok id =>
            have hfetch := fetch_of_download_eq fun hempty => hsame _ (.card hparsed hempty)
            change state.fetch { outside with download } id >>= _ = state.fetch outside id >>= _
            rw [hfetch]
      rw [perform, perform, loadCard, loadCard, hload]
  | _ => rfl

end State

/-! ## Requests that download -/

/-- Where documents are asked for: userspaces are opened and cards are loaded here. -/
def Endpoint.isDownloading : Endpoint → Bool
  | .userspace | .storedCard _ => true
  | _ => false

def Action.isDownloading : Action → Bool
  | .openUserspace _ | .loadCard _ => true
  | _ => false

theorem isDownloading_of_ofEndpoint {endpoint : Endpoint} {request : HttpRequest}
    {action : Action} (haction : Action.ofEndpoint endpoint request = .ok action)
    (hdownloading : action.isDownloading = true) :
    request.method = "POST" ∧ endpoint.isDownloading = true := by
  have hmade {B : Type} {body : Except RouteError B} {make : B → Action}
      (hmake : ∀ given, (make given).isDownloading = false) : ¬body.map make = .ok action := by
    intro hbody
    obtain ⟨given, -, rfl⟩ := map_eq_ok_iff.mp hbody
    rw [hmake] at hdownloading
    cases hdownloading
  unfold Action.ofEndpoint at haction
  split at haction
  case h_3 hpost => exact ⟨hpost, rfl⟩
  case h_6 hpost => exact ⟨hpost, rfl⟩
  case h_5 | h_10 | h_13 => exact absurd haction (hmade fun _ => rfl)
  case h_9 | h_12 =>
    obtain ⟨parameter, -, hbody⟩ := bind_eq_ok_iff.mp haction
    exact absurd hbody (hmade fun _ => rfl)
  case h_8 =>
    obtain ⟨number, -, hbody⟩ := bind_eq_ok_iff.mp haction
    obtain ⟨hole, -, hbody⟩ := bind_eq_ok_iff.mp hbody
    exact absurd hbody (hmade fun _ => rfl)
  case h_15 => cases haction
  all_goals
    cases haction
    cases hdownloading

/-- A request that downloads is a POST to one of two endpoints. -/
theorem HttpRequest.isDownloading_of_action {request : HttpRequest} {action : Action}
    (haction : request.action = .ok action) (hdownloading : action.isDownloading = true) :
    request.method = "POST" ∧ ∃ endpoint, Endpoint.ofTarget request.target = some endpoint ∧
      endpoint.isDownloading = true := by
  rw [HttpRequest.action] at haction
  split at haction
  · cases haction
  · next endpoint htarget =>
    split at haction
    · -- asking for the head is asking with another method
      obtain ⟨hmethod, -⟩ := isDownloading_of_ofEndpoint haction hdownloading
      exact absurd hmethod (by decide : "GET" ≠ "POST")
    · obtain ⟨hmethod, hendpoint⟩ := isDownloading_of_ofEndpoint haction hdownloading
      exact ⟨hmethod, endpoint, htarget, hendpoint⟩

/-! ## What faults there are -/

namespace State

variable {state : State}

theorem Downloads.isDownloading {outside : Outside} {action : Action} {key : DocumentKey}
    (hdownloads : state.Downloads outside action key) : action.isDownloading = true := by
  cases hdownloads <;> rfl

/-- An action is answered with an internal error only when the service itself has failed, and
with an unavailable store only when the store has. -/
theorem status_ofOutcome (state : State) (outside : Outside) (action : Action) :
    ((Reply.ofOutcome (state.perform outside action).1).status = 500 ↔
        ∃ refusal, (state.perform outside action).1 = .error refusal ∧
          refusal.isInternal = true) ∧
      ((Reply.ofOutcome (state.perform outside action).1).status = 503 ↔
        ∃ error, (state.perform outside action).1 = .error (.storage error)) := by
  cases houtcome : (state.perform outside action).1 with
  | ok answer =>
      have hsuccess : IsSuccess (Reply.ofOutcome (.ok answer)).status := by
        rw [Reply.ofOutcome, status_of_perform houtcome]
        exact action.isSuccess_status
      have hother {status : Nat} (hstatus : ¬IsSuccess status) :
          (Reply.ofOutcome (.ok answer)).status ≠ status := by
        rintro rfl
        exact hstatus hsuccess
      refine ⟨iff_of_false (hother (by decide)) ?_, iff_of_false (hother (by decide)) ?_⟩
      · rintro ⟨refusal, hrefused, -⟩
        cases hrefused
      · rintro ⟨error, hrefused⟩
        cases hrefused
  | error refusal =>
      obtain ⟨hinternal, hunavailable⟩ := kind_fault refusal
      change (refusal.fault.kind.status = 500 ↔ _) ∧ (refusal.fault.kind.status = 503 ↔ _)
      rw [status_kind_iff.1, status_kind_iff.2, hinternal, hunavailable]
      simp

theorem status_respond (state : State) (outside : Outside) (request : HttpRequest) :
    ((state.respond outside request).1.status = 500 ↔ ∃ action refusal,
        request.action = .ok action ∧ (state.perform outside action).1 = .error refusal ∧
          refusal.isInternal = true) ∧
      ((state.respond outside request).1.status = 503 ↔ ∃ action error,
        request.action = .ok action ∧
          (state.perform outside action).1 = .error (.storage error)) := by
  obtain ⟨error, herror, hstatus, -⟩ | ⟨action, haction, hstatus, -⟩ :=
    state.respond_cases outside request
  · have hlow := error.status_lt
    rw [← hstatus] at hlow
    rw [herror]
    exact ⟨⟨fun hinternal => by omega, nofun⟩, ⟨fun hunavailable => by omega, nofun⟩⟩
  · obtain ⟨hinternal, hunavailable⟩ := state.status_ofOutcome outside action
    rw [hstatus, hinternal, hunavailable, haction]
    simp

/-- Unless a stored card is loaded, nothing is refused for what a stored card holds. -/
theorem IsSound.isOfDocument_of_refused (hsound : state.IsSound) {outside : Outside}
    {action : Action} {error : CardError} (hother : ∀ text, action ≠ .loadCard text)
    (hrefused : (state.perform outside action).1 = .error (.card error)) :
    error.isOfDocument = false := by
  have hperforms := hsound.performs outside action
  generalize state.perform outside action = result at hperforms hrefused
  cases hperforms with
  | objected fit edits_eq card_eq objects =>
      cases hrefused
      have hlimits := isWithinLimits_of_fit fit edits_eq _ List.mem_cons_self
      exact (hsound _ card_eq).isOfDocument_of_refused hlimits objects
  | unnamed fit unnamed =>
      cases hrefused
      exact isOfDocument_of_ofPassphrase unnamed
  | unread fit named unread =>
      cases hrefused
      exact absurd rfl (ne_card_of_readCatalog unread error)
  | unchosen fit unchosen =>
      cases hrefused
      cases eq_unknownCourse_of_chooseCourse unchosen
  | unstarted fit chosen unstarted =>
      cases hrefused
      exact isOfDocument_of_startCard fit unstarted
  | unloaded unloaded => exact absurd rfl (hother _)
  | _ => cases hrefused

/-- What a request is answered for in a state that the service gets into: never an internal
error; an unavailable store exactly when the request had to download a document and the store
failed; and, unless a stored card is loaded, no error of a stored card, nor of a value that
was found to be fit.  Nothing that the store would say about other documents matters. -/
theorem Reached.faults (hreached : state.Reached) (outside : Outside) (request : HttpRequest) :
    (state.respond outside request).1.status ≠ 500 ∧
      ((state.respond outside request).1.status = 503 ↔
        request.method = "POST" ∧
          (∃ endpoint, Endpoint.ofTarget request.target = some endpoint ∧
            endpoint.isDownloading = true) ∧
          ∃ action key error, request.action = .ok action ∧
            state.Downloads outside action key ∧ outside.download key = .error error) ∧
      (∀ action error, (∀ text, action ≠ .loadCard text) →
        (state.perform outside action).1 = .error (.card error) → error.isOfDocument = false) ∧
      ∀ action download,
        (∀ key, state.Downloads outside action key → download key = outside.download key) →
          state.perform { outside with download } action = state.perform outside action := by
  have hsound := hreached.isSound
  have hstatuses := state.status_respond outside request
  refine ⟨?_, hstatuses.2.trans ?_, fun action error hother =>
    hsound.isOfDocument_of_refused hother, fun action download => perform_of_download_eq⟩
  · rw [Ne, hstatuses.1]
    rintro ⟨action, refusal, -, hrefused, hinternal⟩
    rw [hsound.isInternal_of_refused hrefused] at hinternal
    cases hinternal
  · constructor
    · rintro ⟨action, error, haction, hrefused⟩
      obtain ⟨key, hdownloads, hfailed⟩ := hsound.perform_eq_storage_iff.mp hrefused
      obtain ⟨hmethod, hendpoint⟩ := request.isDownloading_of_action haction
        hdownloads.isDownloading
      exact ⟨hmethod, hendpoint, action, key, error, haction, hdownloads, hfailed⟩
    · rintro ⟨-, -, action, key, error, haction, hdownloads, hfailed⟩
      exact ⟨action, error, haction,
        hsound.perform_eq_storage_iff.mpr ⟨key, hdownloads, hfailed⟩⟩

/-! ## A store that does not answer -/

def silentStore : Outside :=
  { courseStore with download := fun _ => .error (.unavailable "no answer") }

theorem faults_silentStore :
    (State.new .default).Reached ∧
      ((State.new .default).respond silentStore openBirdie).1.status = 503 ∧
        ∃ action key error, openBirdie.action = .ok action ∧
          (State.new .default).Downloads silentStore action key ∧
            silentStore.download key = .error error := by
  have hstatus : ((State.new .default).respond silentStore openBirdie).1.status = 503 := by
    decide +kernel
  have hfaults := (Reached.fresh .default .temporary).faults silentStore openBirdie
  exact ⟨.fresh .default .temporary, hstatus, (hfaults.2.1.mp hstatus).2.2⟩

end State

end Service

end Scorekeeper
