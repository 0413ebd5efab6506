import Scorekeeper.Proofs.Service.Requests

/-!
# Refused requests

A request is granted, or it is refused and leaves the service as it was.  Most requests
are judged before anything is written.  Those that edit the active card keep what the edit
leaves behind, also when it is refused; that this is the card as it was rests on the rows
of the card having a score for each hole, in every state that the service can get into.
-/

namespace Scorekeeper.Service

open Save Files

/-- The statuses of success. -/
def IsSuccess (status : Nat) : Prop :=
  200 ≤ status ∧ status < 300

instance (status : Nat) : Decidable (IsSuccess status) :=
  inferInstanceAs (Decidable (200 ≤ status ∧ status < 300))

theorem Action.isSuccess_status (action : Action) : IsSuccess action.status := by
  cases action with
  | saveCard => exact (by decide : IsSuccess 202)
  | _ => exact (by decide : IsSuccess 200)

theorem not_isSuccess_ofRefusal (refusal : Refusal) :
    ¬IsSuccess (Reply.ofRefusal refusal).status := by
  change ¬IsSuccess refusal.fault.kind.status
  cases refusal.fault.kind <;> decide

namespace State

variable {state : State} {outside : Outside}

theorem isSound_of_card {card : Card} (hcard : state.card = some card)
    (haligned : card.IsAligned) : state.IsSound := by
  intro other hother
  rw [hcard] at hother
  cases hother
  exact haligned

theorem isAligned_of_load {text : String} {card : Card}
    (hload : state.load outside text = .ok card) : card.IsAligned := by
  simp only [load, bind_eq_ok_iff, mapError_eq_ok_iff] at hload
  obtain ⟨id, -, document, -, made, hmade, hchecked⟩ := hload
  split at hchecked
  · cases hchecked
    exact Card.isAligned_ofDocument hmade
  · cases hchecked

/-- An action is refused and changes nothing, or it is carried out and leaves every row with
a score for each hole. -/
theorem Performs.refused_or_sound {action : Action} {result : Except Refusal Answer × State}
    (hsound : state.IsSound) (hperforms : state.Performs outside action result) :
    (∃ refusal, result = (.error refusal, state)) ∨
      ∃ answer, result.1 = .ok answer ∧ result.2.IsSound := by
  cases hperforms with
  | shown reading => exact .inr ⟨_, rfl, hsound⟩
  | edited fit edits_eq card_eq after_eq =>
      exact .inr ⟨_, rfl, isSound_of_card after_eq ((hsound _ card_eq).run _)⟩
  | opened fit named read => exact .inr ⟨_, rfl, hsound⟩
  | created fit chosen started =>
      exact .inr ⟨_, rfl, isSound_of_card rfl (Card.isAligned_startCard started)⟩
  | loaded loads => exact .inr ⟨_, rfl, isSound_of_card rfl (isAligned_of_load loads)⟩
  | _ => exact .inl ⟨_, rfl⟩

/-- A request leaves the service as it was, or it is answered with a status of success. -/
theorem IsSound.respond (hsound : state.IsSound) (outside : Outside) (request : HttpRequest) :
    (state.respond outside request).2 = state ∨
      IsSuccess (state.respond outside request).1.status ∧
        (state.respond outside request).2.IsSound := by
  obtain ⟨error, -, -, hsame⟩ | ⟨action, -, hstatus, hstate⟩ :=
    state.respond_cases outside request
  · exact .inl hsame
  · rw [hstatus, hstate]
    obtain ⟨refusal, hrefused⟩ | ⟨answer, hanswer, hafter⟩ :=
      (hsound.performs outside action).refused_or_sound hsound
    · rw [hrefused]
      exact .inl rfl
    · rw [hanswer, Reply.ofOutcome, status_of_perform hanswer]
      exact .inr ⟨action.isSuccess_status, hafter⟩

/-! ## Reachable states -/

/-- The states that a service gets into: it answers requests, its saves and timers go on in
the background, and others write to the folder of its queue. -/
inductive Reached : State → Prop
  | fresh (config : Config) (head : PathHead) : Reached (.new config head)
  | answered {state : State} (before : state.Reached) (outside : Outside)
      (request : HttpRequest) : Reached (state.respond outside request).2
  | moved {state : State} (before : state.Reached) (event : Save.Event 1) :
      Reached { state with world := state.world.step event }
  | shared {state : State} (before : state.Reached) (folder : Folder) :
      Reached { state with world := { state.world with folder } }

theorem Reached.isSound (hreached : state.Reached) : state.IsSound := by
  induction hreached with
  | fresh config =>
      intro card hcard
      cases hcard
  | answered _ outside request hsound =>
      obtain hsame | ⟨-, hafter⟩ := hsound.respond outside request
      · rw [hsame]
        exact hsound
      · exact hafter
  | moved _ event hsound => exact hsound
  | shared _ folder hsound => exact hsound

/-- A request that is not answered with a status of success changes nothing: not the active
card, not the userspace or its courses, not the queue, and not the status of saving. -/
theorem respond_of_not_isSuccess (hreached : state.Reached) (outside : Outside)
    (request : HttpRequest)
    (hfailed : ¬IsSuccess (state.respond outside request).1.status) :
    (state.respond outside request).2 = state := by
  obtain hsame | ⟨hstatus, -⟩ := hreached.isSound.respond outside request
  · exact hsame
  · exact absurd hstatus hfailed

/-! ## A par that no hole has -/

/-- A store with one course for every userspace. -/
def courseStore : Outside where
  download _ := .ok (some (CatalogDocument.codec.encode
    { courses :=
        [{ courseId := "links", holeNumbers := ["1"], holePars := [3], enabled := true }] }))
  probe := .ok ()
  luck := .fine
  draw := { millis := 5, picks := .replicate 6 (Fin.last _) }

def requestWith {A : Type} (method target : String) (codec : Json.Codec A) (value : A) :
    HttpRequest where
  method
  target
  contentType := some "application/json"
  body := (codec.print value).toUTF8

def openBirdie : HttpRequest :=
  requestWith "POST" "/userspace" OpenUserspace.codec ⟨"birdie"⟩

def openedLinks : State :=
  ((State.new .default).respond courseStore openBirdie).2

def startedLinks : State :=
  (openedLinks.respond courseStore
    (requestWith "POST" "/scorecards" CreateCard.codec ⟨"links", ["Ann", "Bo"]⟩)).2

def secondPar : HttpRequest :=
  requestWith "PUT" "/scorecard/pars/1" SetPar.codec ⟨4⟩

theorem respond_of_not_isSuccess_secondPar :
    startedLinks.Reached ∧ startedLinks.card.isSome = true ∧
      (startedLinks.respond courseStore secondPar).1.status = 400 ∧
        (startedLinks.respond courseStore secondPar).2 = startedLinks := by
  have hfresh := Reached.fresh .default .temporary
  have hreached : startedLinks.Reached := (hfresh.answered _ _).answered _ _
  have hstatus : (startedLinks.respond courseStore secondPar).1.status = 400 := by decide +kernel
  refine ⟨hreached, by decide +kernel, hstatus, ?_⟩
  apply respond_of_not_isSuccess hreached
  rw [hstatus]
  decide

end State

end Scorekeeper.Service
