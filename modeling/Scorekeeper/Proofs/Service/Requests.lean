import Scorekeeper.Proofs.Card.Marks
import Scorekeeper.Proofs.Card.Refusals
import Scorekeeper.Proofs.Json.Writable
import Scorekeeper.Proofs.Outcome
import Scorekeeper.Service.Route

/-!
# What a request does

A request names an action.  An action only shows something, edits the active card, or puts
a userspace or a card in place.  The ways in which it can end are written down here once,
refusals included, each with the state that it leaves behind.
-/

namespace Scorekeeper.Card

open Service Text

variable {card : Card} {A : Type}

/-- What comes of an edit of an aligned card: an error and the same card, or an answer and
the edited card. -/
theorem IsAligned.result_cases (haligned : card.IsAligned) (change : Edit)
    {result : Except CardError A × Card}
    (houtcome : card.outcome change = result.1.map fun _ => ())
    (hedit : card.edit change = result.2) :
    (∃ error, card.outcome change = .error error ∧ result = (.error error, card)) ∨
      ∃ answer, card.Effect change (card.edit change) ∧
        result = (.ok answer, card.edit change) := by
  obtain ⟨answer, after⟩ := result
  dsimp only at houtcome hedit
  obtain ⟨error, hobjects, hsame⟩ | ⟨hdone, heffect⟩ := haligned.edit_cases change
  · rw [hobjects] at houtcome
    cases answer with
    | ok _ => cases houtcome
    | error _ =>
        cases houtcome
        exact .inl ⟨error, hobjects, by rw [← hedit, hsame]⟩
  · rw [hdone] at houtcome
    cases answer with
    | ok answer => exact .inr ⟨answer, heffect, by rw [hedit]⟩
    | error _ => cases houtcome

/-- The edits that can be asked for: their texts are not too long, and their values may be
held by a field. -/
def Edit.IsWithinLimits : Edit → Prop
  | .setScore _ _ value qualifiers =>
    (0 ≤ value ∧ value ≤ maxValue) ∧ (Qualifiers.ofString qualifiers).size ≤ maxQualifiers ∧
      ∀ c ∈ qualifiers.toList, isControl c = false
  | .setPar _ value => 0 ≤ value ∧ value ≤ maxValue
  | .addPlayer name => ∀ given ∈ name, given.toList.length ≤ maxNameLength
  | .rename _ name => name.toList.length ≤ maxNameLength
  | .setNotes notes => notes.toList.length ≤ maxNotesLength
  | _ => True

/-! ## Starting a card -/

/-- The players of a request as edits of the card that they start with. -/
def lineUpEdits : List String → List Edit
  | [] => []
  | first :: rest => .rename 1 first :: rest.map fun name => .addPlayer (some name)

theorem eq_run_of_lineUp {names : List String} {made : Card}
    (hmade : lineUp card names = .ok made) : made = card.run (lineUpEdits names) := by
  cases names with
  | nil =>
      cases hmade
      rfl
  | cons first rest =>
      rw [Service.lineUp] at hmade
      split at hmade
      · cases hmade
      · next renamed hrename =>
        cases hmade
        have hrenamed : renamed = card.edit (.rename 1 first) :=
          (congrArg Prod.snd hrename).symm
        rw [hrenamed, lineUpEdits, run, List.foldl_cons, List.foldl_map]
        rfl

variable {request : CreateCard} {course : Course} {space : Option UserspaceId} {draw : Draw}

theorem eq_run_of_startCard (hstart : startCard request course space draw = .ok card) :
    ∃ started, Card.start course space draw = .ok started ∧
      card = started.run (lineUpEdits request.playerNames) := by
  rw [startCard, bind_eq_ok_iff] at hstart
  obtain ⟨started, hstarted, hlineUp⟩ := hstart
  exact ⟨started, hstarted, eq_run_of_lineUp hlineUp⟩

theorem isAligned_startCard (hstart : startCard request course space draw = .ok card) :
    card.IsAligned := by
  obtain ⟨started, hstarted, rfl⟩ := eq_run_of_startCard hstart
  exact (isAligned_start hstarted).run _

/-- A new card is played on the course that was chosen, and its id is led by the userspace
that was given. -/
theorem id_of_startCard (hstart : startCard request course space draw = .ok card) :
    card.id = .issue space draw ∧ card.course = course := by
  obtain ⟨started, hstarted, rfl⟩ := eq_run_of_startCard hstart
  obtain ⟨hid, hcourse⟩ := started.run_keeps (lineUpEdits request.playerNames)
  rw [hid, hcourse]
  rw [Card.start] at hstarted
  split at hstarted
  · cases hstarted
    exact ⟨rfl, rfl⟩
  · cases hstarted

theorem pars_run_lineUpEdits (card : Card) (names : List String) :
    (card.run (lineUpEdits names)).pars = card.pars := by
  cases names with
  | nil => rfl
  | cons first rest =>
      have hadd (card : Card) :
          (card.run (rest.map fun name => .addPlayer (some name))).pars = card.pars := by
        induction rest generalizing card with
        | nil => rfl
        | cons name rest ih => exact ih (card.addPlayer (some name)).2
      obtain ⟨players, hplayers⟩ := card.editPlayer_eq 1
        fun player => (player.rename first).map fun player => ((), player)
      calc
        (card.run (lineUpEdits (first :: rest))).pars = (card.rename 1 first).2.pars :=
          hadd (card.rename 1 first).2
        _ = card.pars := by rw [rename, hplayers]

theorem parValues_of_startCard (hstart : startCard request course space draw = .ok card) :
    card.parValues = course.pars := by
  obtain ⟨started, hstarted, rfl⟩ := eq_run_of_startCard hstart
  rw [parValues, pars_run_lineUpEdits]
  rw [Card.start] at hstarted
  split at hstarted
  · cases hstarted
    exact value_parFields course.pars
  · cases hstarted

end Scorekeeper.Card

namespace Scorekeeper.Service

open Remote Text

namespace Action

/-- What is wrong with the body of a request. -/
def defects : Action → Defects
  | .openUserspace request => request.defects
  | .createCard request => request.defects
  | .setScore _ _ request => request.defects
  | .setPar _ request => request.defects
  | .addPlayer request => request.defects
  | .renamePlayer _ request => request.defects
  | .setNotes request => request.defects
  | _ => []

/-- The edits of the active card that a request asks for, if it is about that card. -/
def edits : Action → Option (List Card.Edit)
  | .viewCard => some []
  | .setScore number hole request => some [.setScore number hole request.value request.qualifiers]
  | .setPar hole request => some [.setPar hole request.value]
  | .addPlayer request => some [.addPlayer request.name]
  | .removePlayer => some [.removePlayer]
  | .renamePlayer number request => some [.rename number request.name]
  | .setNotes request => some [.setNotes request.notes]
  | .saveCard => some [.updateParTotal, .updateTotals .all]
  | _ => none

/-- Whether a request only shows the service as it is. -/
def isReading : Action → Bool
  | .health | .followStatus | .listCourses => true
  | _ => false

end Action

/-! ## Requests without defects -/

section Fit

variable {field : String} {defects : List Defect}

theorem onField_eq_nil_iff : onField field defects = [] ↔ defects = [] := by
  rw [onField]
  cases defects <;> simp

theorem checkRange_eq_nil_iff {min max value : Int} :
    checkRange min max value = [] ↔ min ≤ value ∧ value ≤ max := by
  simp [checkRange]

theorem checkLength_eq_nil_iff {min : Option Nat} {max : Nat} {value : String} :
    checkLength min max value = [] ↔
      min.getD 0 ≤ value.toList.length ∧ value.toList.length ≤ max := by
  simp [checkLength]

theorem qualifierDefect_eq_none_iff {value : String} :
    qualifierDefect value = none ↔
      (Qualifiers.ofString value).size ≤ maxQualifiers ∧
        ∀ c ∈ value.toList, isControl c = false := by
  by_cases hfew : (Qualifiers.ofString value).size ≤ maxQualifiers
  · rw [qualifierDefect_of_le hfew]
    simp [hfew]
  · rw [qualifierDefect_of_lt (Nat.lt_of_not_le hfew)]
    simp [hfew]

theorem nameDefects_eq_nil_iff {names : List String} :
    CreateCard.nameDefects names = [] ↔ names.length ≤ maxStartingPlayers ∧
      ∀ name ∈ names, trim name ≠ "" ∧ name.toList.length ≤ maxNameLength := by
  simp [CreateCard.nameDefects, CreateCard.isFitName]

theorem createCard_defects_eq_nil_iff {request : CreateCard} :
    request.defects = [] ↔
      trim request.courseId ≠ "" ∧ CreateCard.nameDefects request.playerNames = [] := by
  rw [CreateCard.defects, List.append_eq_nil_iff, onField_eq_nil_iff, onField_eq_nil_iff]
  simp

/-- What a request without defects asks for is within the limits. -/
theorem isWithinLimits_of_fit {action : Action} {edits : List Card.Edit}
    (hfit : action.defects = []) (hedits : action.edits = some edits) :
    ∀ change ∈ edits, change.IsWithinLimits := by
  intro change hmem
  cases action with
  | setScore number hole request =>
      cases hedits
      cases List.mem_singleton.mp hmem
      rw [Action.defects, SetScore.defects, List.append_eq_nil_iff, onField_eq_nil_iff,
        onField_eq_nil_iff, checkRange_eq_nil_iff, Option.toList_eq_nil_iff,
        qualifierDefect_eq_none_iff] at hfit
      exact hfit
  | setPar hole request =>
      cases hedits
      cases List.mem_singleton.mp hmem
      exact checkRange_eq_nil_iff.mp (onField_eq_nil_iff.mp hfit)
  | addPlayer request =>
      cases hedits
      cases List.mem_singleton.mp hmem
      have hname := onField_eq_nil_iff.mp hfit
      intro given hgiven
      rw [Option.mem_def.mp hgiven] at hname
      exact (checkLength_eq_nil_iff.mp hname).2
  | renamePlayer number request =>
      cases hedits
      cases List.mem_singleton.mp hmem
      exact (checkLength_eq_nil_iff.mp (onField_eq_nil_iff.mp hfit)).2
  | setNotes request =>
      cases hedits
      cases List.mem_singleton.mp hmem
      exact (checkLength_eq_nil_iff.mp (onField_eq_nil_iff.mp hfit)).2
  | viewCard =>
      cases hedits
      cases hmem
  | removePlayer =>
      cases hedits
      cases List.mem_singleton.mp hmem
      trivial
  | saveCard =>
      cases hedits
      obtain rfl | hmem := List.mem_cons.mp hmem
      · trivial
      · cases List.mem_singleton.mp hmem
        trivial
  | _ => cases hedits

/-- So are the edits that put the players of a request on a new card. -/
theorem isWithinLimits_lineUpEdits {request : CreateCard} (hfit : request.defects = []) :
    ∀ change ∈ Card.lineUpEdits request.playerNames, change.IsWithinLimits := by
  rw [createCard_defects_eq_nil_iff, nameDefects_eq_nil_iff] at hfit
  obtain ⟨-, -, hnames⟩ := hfit
  cases hplayers : request.playerNames with
  | nil =>
      intro change hmem
      cases hmem
  | cons first rest =>
      rw [hplayers, List.forall_mem_cons] at hnames
      obtain ⟨hfirst, hrest⟩ := hnames
      intro change hmem
      obtain rfl | hmem := List.mem_cons.mp hmem
      · exact hfirst.2
      · obtain ⟨name, hname, rfl⟩ := List.mem_map.mp hmem
        intro given hgiven
        cases hgiven
        exact (hrest name hname).2

end Fit

namespace State

variable {state : State} {outside : Outside} {action : Action}

/-- Every row of the active card has a score for each hole. -/
def IsSound (state : State) : Prop :=
  ∀ card ∈ state.card, card.IsAligned

/-- The ways in which an action ends.  Whatever is refused leaves the state as it is. -/
inductive Performs (state : State) (outside : Outside) :
    Action → Except Refusal Answer × State → Prop
  | shown {action : Action} {answer : Answer} (reading : action.isReading = true) :
      Performs state outside action (.ok answer, state)
  /-- The body was looked at first, and something is wrong with it. -/
  | unfit {action : Action} (unfit : action.defects ≠ []) :
      Performs state outside action (.error (.unfit action.defects), state)
  /-- There is no card that could be edited. -/
  | idle {action : Action} {edits : List Card.Edit} (edits_eq : action.edits = some edits)
      (card_eq : state.card = none) :
      Performs state outside action (.error .noActiveCard, state)
  /-- The card refuses the edit. -/
  | objected {action : Action} {change : Card.Edit} {card : Card} {error : CardError}
      (fit : action.defects = []) (edits_eq : action.edits = some [change])
      (card_eq : state.card = some card) (objects : card.outcome change = .error error) :
      Performs state outside action (.error (.card error), state)
  | edited {action : Action} {edits : List Card.Edit} {card : Card} {answer : Answer}
      {after : State} (fit : action.defects = []) (edits_eq : action.edits = some edits)
      (card_eq : state.card = some card) (after_eq : after.card = some (card.run edits)) :
      Performs state outside action (.ok answer, after)
  | unnamed {request : OpenUserspace} {error : CardError}
      (fit : request.defects = [])
      (unnamed : UserspaceId.ofPassphrase request.passphrase = .error error) :
      Performs state outside (.openUserspace request) (.error (.card error), state)
  /-- The catalog is not to be had or makes no sense. -/
  | unread {request : OpenUserspace} {space : UserspaceId} {refusal : Refusal}
      (fit : request.defects = [])
      (named : UserspaceId.ofPassphrase request.passphrase = .ok space)
      (unread : readCatalog (outside.download (.courses space.text)) = .error refusal) :
      Performs state outside (.openUserspace request) (.error refusal, state)
  | opened {request : OpenUserspace} {space : UserspaceId} {courses : List Course}
      {answer : Answer} (fit : request.defects = [])
      (named : UserspaceId.ofPassphrase request.passphrase = .ok space)
      (read : readCatalog (outside.download (.courses space.text)) = .ok courses) :
      Performs state outside (.openUserspace request)
        (.ok answer, { state with cells := { userspace := some space, courses } })
  /-- No course on offer has the id. -/
  | unchosen {request : CreateCard} {refusal : Refusal} (fit : request.defects = [])
      (unchosen : chooseCourse state.cells.courses request = .error refusal) :
      Performs state outside (.createCard request) (.error refusal, state)
  | unstarted {request : CreateCard} {course : Course} {error : CardError}
      (fit : request.defects = [])
      (chosen : chooseCourse state.cells.courses request = .ok course)
      (unstarted :
        startCard request course state.cells.userspace outside.draw = .error error) :
      Performs state outside (.createCard request) (.error (.card error), state)
  | created {request : CreateCard} {course : Course} {card : Card} {answer : Answer}
      (fit : request.defects = [])
      (chosen : chooseCourse state.cells.courses request = .ok course)
      (started : startCard request course state.cells.userspace outside.draw = .ok card) :
      Performs state outside (.createCard request)
        (.ok answer, { state with card := some card })
  | unloaded {text : String} {refusal : Refusal}
      (unloaded : state.load outside text = .error refusal) :
      Performs state outside (.loadCard text) (.error refusal, state)
  | loaded {text : String} {card : Card} {answer : Answer}
      (loads : state.load outside text = .ok card) :
      Performs state outside (.loadCard text) (.ok answer, { state with card := some card })

/-- An action that is performed unless its body has defects. -/
theorem performs_checked {act : Except Refusal Json × State} {status : Nat}
    (hact : action.defects = [] →
      state.Performs outside action (values status act)) :
    state.Performs outside action (values status (state.checked action.defects act)) := by
  rw [checked]
  split
  · next hfit => exact hact (List.isEmpty_iff.mp hfit)
  · next hunfit => exact .unfit (mt List.isEmpty_iff.mpr hunfit)

/-! ## Requests that edit the active card -/

/-- An edit that can be refused is answered with a view of the card, which is there to be
shown when the edit was carried out. -/
theorem IsSound.performs_edit (hsound : state.IsSound) {change : Card.Edit} {status : Nat}
    {act : Card → Except CardError Json × Card} (hedits : action.edits = some [change])
    (hact : ∀ card, card.IsAligned →
      (∃ error, card.outcome change = .error error ∧ act card = (.error error, card)) ∨
        ∃ view, act card = (.ok view, card.edit change))
    (hfit : action.defects = []) :
    state.Performs outside action (values status (state.edit act)) := by
  rw [State.edit]
  cases hcard : state.card with
  | none => exact .idle hedits hcard
  | some card =>
      obtain ⟨error, hobjects, hrefused⟩ | ⟨view, hdone⟩ := hact card (hsound card hcard)
      · have hsame : { state with card := some card } = state := by rw [← hcard]
        dsimp only
        rw [hrefused]
        dsimp only
        rw [hsame]
        exact .objected hfit hedits hcard hobjects
      · dsimp only
        rw [hdone]
        exact .edited hfit hedits hcard rfl

/-- The row of a number can be shown. -/
theorem exists_viewRow {card : Card} {number : UInt32} (hmem : number ∈ card.numbers) :
    ∃ view, viewRow card number = .ok view := by
  obtain ⟨player, hplayer, hnumber⟩ := List.mem_map.mp hmem
  rw [viewRow]
  cases hfound : card.player? number with
  | some found => exact ⟨_, rfl⟩
  | none =>
      have hnone := List.find?_eq_none.mp hfound player hplayer
      rw [hnumber, beq_self_eq_true] at hnone
      exact absurd rfl hnone

/-- The row that an edit was about can be shown afterwards. -/
theorem exists_viewRow_of_effect {card after : Card} {change : Card.Edit} {number : UInt32}
    (heffect : card.Effect change after) (hkeeps : change.keepsRows = true)
    (hmem : number ∈ card.numbers) : ∃ view, viewRow after number = .ok view := by
  rw [← heffect.numbers_eq hkeeps] at hmem
  exact exists_viewRow hmem

theorem IsSound.performs_setScore (hsound : state.IsSound) (number : UInt32) (hole : Nat)
    (request : SetScore) (hfit : request.defects = []) :
    state.Performs outside (.setScore number hole request)
      (values 200 (state.setScore number hole request)) := by
  refine hsound.performs_edit rfl ?_ hfit
  intro card haligned
  obtain ⟨error, hobjects, hresult⟩ | ⟨rank, heffect, hresult⟩ :=
    haligned.result_cases (.setScore number hole request.value request.qualifiers) rfl rfl
  · rw [hresult]
    exact .inl ⟨error, hobjects, rfl⟩
  · obtain ⟨view, hview⟩ := exists_viewRow_of_effect heffect rfl heffect.isFit.2.1
    rw [hresult]
    exact .inr ⟨view, by rw [← hview]⟩

theorem IsSound.performs_renamePlayer (hsound : state.IsSound) (number : UInt32)
    (request : RenamePlayer) (hfit : request.defects = []) :
    state.Performs outside (.renamePlayer number request)
      (values 200 (state.renamePlayer number request)) := by
  refine hsound.performs_edit rfl ?_ hfit
  intro card haligned
  obtain ⟨error, hobjects, hresult⟩ | ⟨_, heffect, hresult⟩ :=
    haligned.result_cases (.rename number request.name) map_unit.symm rfl
  · rw [hresult]
    exact .inl ⟨error, hobjects, rfl⟩
  · obtain ⟨view, hview⟩ := exists_viewRow_of_effect heffect rfl heffect.isFit.1
    rw [hresult]
    exact .inr ⟨view, by rw [← hview]⟩

theorem IsSound.performs_setPar (hsound : state.IsSound) (hole : Nat) (request : SetPar)
    (hfit : request.defects = []) :
    state.Performs outside (.setPar hole request)
      (values 200 (state.setPar hole request)) := by
  refine hsound.performs_edit rfl ?_ hfit
  intro card haligned
  obtain ⟨error, hobjects, hresult⟩ | ⟨_, -, hresult⟩ :=
    haligned.result_cases (.setPar hole request.value) map_unit.symm rfl
  · rw [hresult]
    exact .inl ⟨error, hobjects, rfl⟩
  · rw [hresult]
    exact .inr ⟨_, rfl⟩

/-- An edit that is never refused is answered with the card. -/
theorem IsSound.performs_edit_of_ok (hsound : state.IsSound) {change : Card.Edit}
    (hedits : action.edits = some [change]) (hfit : action.defects = []) :
    state.Performs outside action
      (values 200 (state.edit fun card =>
        (.ok (state.cardView (card.edit change)), card.edit change))) := by
  refine hsound.performs_edit hedits ?_ hfit
  intro card _
  exact .inr ⟨_, rfl⟩

theorem performs_viewCard :
    state.Performs outside .viewCard
      (values 200 (state.edit fun card => (.ok (state.cardView card), card))) := by
  rw [State.edit]
  cases hcard : state.card with
  | none => exact .idle rfl hcard
  | some card => exact .edited rfl rfl hcard rfl

theorem performs_saveCard : state.Performs outside .saveCard (values 202 state.saveCard) := by
  rw [saveCard]
  cases hcard : state.card with
  | none => exact .idle rfl hcard
  | some card =>
      -- the totals are never refused, and the card can always be written
      simp only [Card.updateTotals, Card.serialize_eq]
      exact .edited rfl rfl hcard rfl

/-! ## Requests that put a card or a userspace in place -/

theorem performs_openUserspace {request : OpenUserspace}
    (hfit : request.defects = []) :
    state.Performs outside (.openUserspace request)
      (values 200 (state.openUserspace outside request)) := by
  rw [State.openUserspace]
  split
  · next error hunnamed => exact .unnamed hfit hunnamed
  · next space hnamed =>
    split
    · next refusal hunread => exact .unread hfit hnamed hunread
    · next courses hread => exact .opened hfit hnamed hread

theorem performs_createCard {request : CreateCard} (hfit : request.defects = []) :
    state.Performs outside (.createCard request)
      (values 200 (state.createCard outside request)) := by
  rw [State.createCard]
  split
  · next refusal hunchosen => exact .unchosen hfit hunchosen
  · next course hchosen =>
    split
    · next error hunstarted => exact .unstarted hfit hchosen hunstarted
    · next card hstarted => exact .created hfit hchosen hstarted

theorem performs_loadCard {text : String} :
    state.Performs outside (.loadCard text) (values 200 (state.loadCard outside text)) := by
  rw [State.loadCard]
  split
  · next card hloads => exact .loaded hloads
  · next refusal hunloaded => exact .unloaded hunloaded

/-! ## All requests -/

/-- An action ends in one of the ways that are written down, in any state in which every row
of the active card has a score for each hole. -/
theorem IsSound.performs (hsound : state.IsSound) (outside : Outside) (action : Action) :
    state.Performs outside action (state.perform outside action) := by
  cases action with
  | health => exact .shown rfl
  | followStatus => exact .shown rfl
  | listCourses => exact .shown rfl
  | openUserspace request => exact performs_checked fun hfit => performs_openUserspace hfit
  | createCard request => exact performs_checked fun hfit => performs_createCard hfit
  | loadCard text => exact performs_loadCard
  | viewCard => exact performs_viewCard
  | setScore number hole request =>
      exact performs_checked fun hfit => hsound.performs_setScore number hole request hfit
  | setPar hole request =>
      exact performs_checked fun hfit => hsound.performs_setPar hole request hfit
  | addPlayer request =>
      exact performs_checked fun hfit => hsound.performs_edit_of_ok rfl hfit
  | removePlayer =>
      have hedits : Action.removePlayer.edits = some [.removePlayer] := rfl
      exact hsound.performs_edit_of_ok hedits rfl
  | renamePlayer number request =>
      exact performs_checked fun hfit => hsound.performs_renamePlayer number request hfit
  | setNotes request =>
      exact performs_checked fun hfit => hsound.performs_edit_of_ok rfl hfit
  | saveCard => exact performs_saveCard

end State

/-! ## Statuses -/

/-- The status that an action is answered with when it is not refused. -/
def Action.status : Action → Nat
  | .saveCard => 202
  | _ => 200

namespace State

variable {state : State} {outside : Outside} {action : Action} {answer : Answer}

theorem status_of_values {status : Nat} {outcome : Except Refusal Json × State}
    (hanswer : (values status outcome).1 = .ok answer) :
    (Reply.ofAnswer answer).status = status := by
  obtain ⟨body, -, rfl⟩ := map_eq_ok_iff.mp hanswer
  rfl

theorem status_of_perform (hanswer : (state.perform outside action).1 = .ok answer) :
    (Reply.ofAnswer answer).status = action.status := by
  cases action with
  | health =>
      cases hanswer
      rfl
  | followStatus =>
      cases hanswer
      rfl
  | listCourses =>
      cases hanswer
      rfl
  | _ => exact status_of_values hanswer

theorem status_bare (reply : Reply) : reply.bare.status = reply.status := by
  rw [Reply.bare]
  split <;> rfl

end State

/-- The action that a request asks for.  Asking for the head of what can be read is asking to
read it. -/
def HttpRequest.action (request : HttpRequest) : Except RouteError Action :=
  match Endpoint.ofTarget request.target with
  | none => .error .unknownPath
  | some endpoint =>
    if request.method = "HEAD" ∧ endpoint.isReadable = true then
      Action.ofEndpoint endpoint { request with method := "GET" }
    else Action.ofEndpoint endpoint request

namespace State

variable {state : State} {outside : Outside}

/-- A request names no action and changes nothing, or its action decides what comes of it. -/
theorem respond_cases (state : State) (outside : Outside) (request : HttpRequest) :
    (∃ error, request.action = .error error ∧
        (state.respond outside request).1.status = error.status ∧
          (state.respond outside request).2 = state) ∨
      ∃ action, request.action = .ok action ∧
        (state.respond outside request).1.status =
            (Reply.ofOutcome (state.perform outside action).1).status ∧
          (state.respond outside request).2 = (state.perform outside action).2 := by
  rw [respond, HttpRequest.action]
  cases Endpoint.ofTarget request.target with
  | none => exact .inl ⟨_, rfl, rfl, rfl⟩
  | some endpoint =>
      dsimp only
      split
      · rw [respondAt]
        cases Action.ofEndpoint endpoint { request with method := "GET" } with
        | error error => exact .inl ⟨error, rfl, rfl, rfl⟩
        | ok action => exact .inr ⟨action, rfl, status_bare _, rfl⟩
      · rw [respondAt]
        cases Action.ofEndpoint endpoint request with
        | error error => exact .inl ⟨error, rfl, rfl, rfl⟩
        | ok action => exact .inr ⟨action, rfl, rfl, rfl⟩

/-- A request that names an action is answered as the action is. -/
theorem respond_of_action {request : HttpRequest} {action : Action} (state : State)
    (outside : Outside) (haction : request.action = .ok action) :
    (state.respond outside request).1.status =
        (Reply.ofOutcome (state.perform outside action).1).status ∧
      (state.respond outside request).2 = (state.perform outside action).2 := by
  obtain ⟨error, hrefused, -⟩ | ⟨other, hsame, hresult⟩ := state.respond_cases outside request
  · rw [haction] at hrefused
    cases hrefused
  · rw [haction] at hsame
    cases hsame
    exact hresult

theorem content_of_respond {request : HttpRequest} {action : Action}
    {shown : Json} (haction : request.action = .ok action)
    (hshown : (state.respond outside request).1.content = .value shown) :
    (Reply.ofOutcome (state.perform outside action).1).content = .value shown := by
  rw [HttpRequest.action] at haction
  rw [respond] at hshown
  cases hendpoint : Endpoint.ofTarget request.target with
  | none =>
      rw [hendpoint] at haction
      cases haction
  | some endpoint =>
      simp only [hendpoint] at haction hshown
      split at hshown
      · -- the head of a reply has no content
        dsimp only [Reply.bare] at hshown
        split at hshown <;> cases hshown
      · next hread =>
        rw [if_neg hread] at haction
        rw [respondAt, haction] at hshown
        exact hshown

end State

end Scorekeeper.Service
