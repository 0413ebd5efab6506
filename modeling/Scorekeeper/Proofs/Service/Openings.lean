import Mathlib.Data.List.Induction
import Scorekeeper.Proofs.Card.Ids
import Scorekeeper.Proofs.Replaced
import Scorekeeper.Proofs.Service.Refused

/-!
# A userspace and its catalog

The open userspace and the courses of its catalog are kept in two cells, each under a lock
of its own.  Opening a userspace writes the one and then the other; starting a card chooses
its course in the second and then takes its name from the first.  When requests take these
steps in between each other, a card may be named after a userspace that did not supply its
course, and the courses of one userspace may stay on offer under the name of another.

This file says when.  Courses stay with the wrong userspace only if the opening that supplied
them was crossed: another one wrote the userspace between its two writes.  A card gets the wrong
name only if its course was chosen from such courses, or if an opening was half done when it was
chosen, or if one wrote the userspace between the choice and the naming.
-/

namespace Scorekeeper.Service

open Remote

namespace Visit

/-- The visit only reads what is there. -/
def isReading : Visit → Bool
  | .downloading _ | .choosing _ | .naming _ _ => true
  | _ => false

/-- The visit opens a userspace and has not ended. -/
def isOpening : Visit → Bool
  | .downloading _ | .enteringUserspace _ _ | .enteringCourses _ _ => true
  | _ => false

/-- What an opening has found in the catalog of its userspace. -/
def fetched? : Visit → Option (UserspaceId × List Course)
  | .enteringUserspace space courses | .enteringCourses space courses
  | .opened space courses => some (space, courses)
  | _ => none

variable {download : DocumentKey → Except StorageError (Option Json)} {draw : Draw}

/-- What a visit does by one access, and what it leaves in the cells. -/
inductive Access (download : DocumentKey → Except StorageError (Option Json)) (draw : Draw)
    (cells : Cells) : Visit → Visit → Cells → Prop where
  | still (visit : Visit) : Access download draw cells visit visit cells
  | refuse {visit : Visit} (reading : visit.isReading = true) (refusal : Refusal) :
      Access download draw cells visit (.refused refusal) cells
  | fetch {space : UserspaceId} {courses : List Course}
      (read : readCatalog (download (.courses space.text)) = .ok courses) :
      Access download draw cells (.downloading space) (.enteringUserspace space courses) cells
  | enterUserspace (space : UserspaceId) (courses : List Course) :
      Access download draw cells (.enteringUserspace space courses)
        (.enteringCourses space courses) { cells with userspace := some space }
  | enterCourses (space : UserspaceId) (courses : List Course) :
      Access download draw cells (.enteringCourses space courses) (.opened space courses)
        { cells with courses }
  | choose {request : CreateCard} {course : Course}
      (chosen : chooseCourse cells.courses request = .ok course) :
      Access download draw cells (.choosing request) (.naming request course) cells
  | name {request : CreateCard} {course : Course} {card : Card}
      (started : startCard request course cells.userspace draw = .ok card) :
      Access download draw cells (.naming request course) (.created card) cells

theorem access_step (download : DocumentKey → Except StorageError (Option Json)) (draw : Draw)
    (visit : Visit) (cells : Cells) :
    Access download draw cells visit (visit.step download draw cells).1
      (visit.step download draw cells).2 := by
  cases visit with
  | downloading space =>
      simp only [step]
      split
      · next hread => exact .fetch hread
      · exact .refuse rfl _
  | enteringUserspace space courses => exact .enterUserspace space courses
  | enteringCourses space courses => exact .enterCourses space courses
  | choosing request =>
      simp only [step]
      split
      · next hchosen => exact .choose hchosen
      · exact .refuse rfl _
  | naming request course =>
      simp only [step]
      split
      · next hstarted => exact .name hstarted
      · exact .refuse rfl _
  | _ => exact .still _

/-- What a visit has found in a catalog it has found before the access or by it. -/
theorem Access.fetched? {cells after : Cells} {visit next : Visit}
    (haccess : Access download draw cells visit next after) {space : UserspaceId}
    {courses : List Course} (hfetched : next.fetched? = some (space, courses)) :
    visit.fetched? = some (space, courses) ∨
      visit = .downloading space ∧
        readCatalog (download (.courses space.text)) = .ok courses := by
  cases haccess with
  | still => exact .inl hfetched
  | fetch read =>
      cases hfetched
      exact .inr ⟨rfl, read⟩
  | enterUserspace space courses => exact .inl hfetched
  | enterCourses space courses => exact .inl hfetched
  | _ => cases hfetched

end Visit

namespace Hall

/-- Nobody has opened a userspace. -/
def new : Hall where
  cells := { userspace := none, courses := [] }
  visits := []

/-- Requests come in at their beginning. -/
def Event.IsFresh : Event → Prop
  | .enter visit =>
      (∃ request, visit = .ofPassphrase request) ∨ ∃ request, visit = .create request
  | .step _ _ _ => True

/-- The courses in the cell are those that an opening of the userspace has returned. -/
def Offers (hall : Hall) (space : UserspaceId) : Prop :=
  .opened space hall.cells.courses ∈ hall.visits

/-- The courses in the cell are those of the userspace in the other cell. -/
def IsSettled (hall : Hall) : Prop :=
  hall.cells = new.cells ∨ ∃ space, hall.cells.userspace = some space ∧ hall.Offers space

/-- An opening has written the userspace and not yet its courses. -/
def IsHalfOpen (hall : Hall) : Prop :=
  ∃ (place : Nat) (space : UserspaceId) (courses : List Course),
    hall.visits[place]? = some (.enteringCourses space courses)

/-- With the event an opening writes the userspace. -/
def EntersUserspace (hall : Hall) : Event → Prop
  | .enter _ => False
  | .step place _ _ => ∃ space courses,
      hall.visits[place]? = some (.enteringUserspace space courses)

/-- At some moment of the run the hall and the next event are as described. -/
def Occurs (events : List Event) (described : Hall → Event → Prop) : Prop :=
  ∃ before event after, events = before ++ event :: after ∧ described (new.run before) event

/-- With the event an opening writes its courses. -/
def EntersCourses (hall : Hall) : Event → Prop
  | .enter _ => False
  | .step place _ _ => ∃ space courses,
      hall.visits[place]? = some (.enteringCourses space courses)

/-- An opening writes the userspace when the one at the place has written it and not yet its
courses. -/
def IsCrossed (events : List Event) (place : Nat) : Prop :=
  Occurs events fun hall event =>
    (∃ space courses, hall.visits[place]? = some (.enteringCourses space courses)) ∧
      hall.EntersUserspace event

/-- The opening at the place, which is one of the userspace, is the last that wrote its
courses. -/
inductive Supplies : List Event → Nat → UserspaceId → Prop where
  | enters {events : List Event} {place : Nat} {space : UserspaceId} {courses : List Course}
      (found : (new.run events).visits[place]? = some (.enteringCourses space courses))
      (download : DocumentKey → Except StorageError (Option Json)) (draw : Draw) :
      Supplies (events ++ [.step place download draw]) place space
  | kept {events : List Event} {place : Nat} {space : UserspaceId} {event : Event}
      (supplies : Supplies events place space)
      (others : ¬(new.run events).EntersCourses event) : Supplies (events ++ [event]) place space

/-- The courses are those of the userspace, and the opening that supplied them was crossed. -/
def IsTorn (events : List Event) (space : UserspaceId) : Prop :=
  ∃ place, Supplies events place space ∧ IsCrossed events place

/-- An opening writes the userspace when the visit has chosen its course and not yet named its
card. -/
def Overtakes (events : List Event) (place : Nat) : Prop :=
  Occurs events fun hall event =>
    (∃ request course, hall.visits[place]? = some (.naming request course)) ∧
      hall.EntersUserspace event

/-- At this moment the visit makes the access that it stands before. -/
def Leaves (events : List Event) (place : Nat) (visit : Visit) (moment : Hall) : Prop :=
  Occurs events fun hall event => hall = moment ∧ hall.visits[place]? = some visit ∧
    ∃ download draw, event = .step place download draw

/-- The courses of the userspace were torn at this moment, when the visit made its access. -/
def IsTornAt (events : List Event) (place : Nat) (space : UserspaceId) (moment : Hall) : Prop :=
  ∃ before download draw after, events = before ++ .step place download draw :: after ∧
    new.run before = moment ∧ IsTorn before space

/-- At some moment the visit has downloaded the catalog of the userspace and found the courses
in it. -/
def Fetches (events : List Event) (place : Nat) (space : UserspaceId) (courses : List Course) :
    Prop :=
  Occurs events fun hall event => hall.visits[place]? = some (.downloading space) ∧
    ∃ download draw, event = .step place download draw ∧
      readCatalog (download (.courses space.text)) = .ok courses

/-- At this moment the visit chooses its course. -/
def Chooses (events : List Event) (place : Nat) (request : CreateCard) (course : Course)
    (moment : Hall) : Prop :=
  Leaves events place (.choosing request) moment ∧
    chooseCourse moment.cells.courses request = .ok course

/-- At this moment the visit names its card. -/
def Names (events : List Event) (place : Nat) (request : CreateCard) (card : Card)
    (moment : Hall) : Prop :=
  Leaves events place (.naming request card.course) moment ∧
    ∃ draw, card.id = .issue moment.cells.userspace draw

variable {hall after : Hall} {event : Event} {events : List Event} {place : Nat}

/-! ## What an event does -/

inductive Turn (hall : Hall) : Event → Hall → Prop where
  | enter (visit : Visit) :
      Turn hall (.enter visit) { hall with visits := hall.visits ++ [visit] }
  | idle (event : Event) : Turn hall event hall
  | access {place : Nat} {download : DocumentKey → Except StorageError (Option Json)}
      {draw : Draw} {visit next : Visit} {cells : Cells}
      (found : hall.visits[place]? = some visit)
      (access : Visit.Access download draw hall.cells visit next cells) :
      Turn hall (.step place download draw) { cells, visits := hall.visits.set place next }

theorem turn_step (hall : Hall) (event : Event) : hall.Turn event (hall.step event) := by
  cases event with
  | enter visit => exact .enter visit
  | step place download draw =>
      simp only [step]
      split
      · exact .idle _
      · next visit hfound => exact .access hfound (visit.access_step download draw hall.cells)

theorem run_snoc (start : Hall) (events : List Event) (event : Event) :
    start.run (events ++ [event]) = (start.run events).step event :=
  List.foldl_concat step start event events

theorem getElem?_snoc_cases {visits : List Visit} {new visit : Visit}
    (hfound : (visits ++ [new])[place]? = some visit) :
    visit = new ∨ visits[place]? = some visit := by
  rw [List.getElem?_append] at hfound
  split at hfound
  · exact .inr hfound
  · exact .inl (List.mem_singleton.mp (List.mem_of_getElem? hfound))

/-- A visit that comes in has its accesses still before it, unless it is refused at once. -/
theorem Event.IsFresh.cases {visit : Visit} (hfresh : (Event.enter visit).IsFresh) :
    (∃ space, visit = .downloading space) ∨ (∃ refusal, visit = .refused refusal) ∨
      ∃ request, visit = .choosing request := by
  obtain ⟨request, rfl⟩ | ⟨request, rfl⟩ := hfresh
  · rw [Visit.ofPassphrase]
    split
    · exact .inl ⟨_, rfl⟩
    · exact .inr (.inl ⟨_, rfl⟩)
  · exact .inr (.inr ⟨request, rfl⟩)

/-- A visit stood at its place before the event, has come in with it, or has got there by an
access. -/
theorem found_cases {visit : Visit} (hfound : (hall.step event).visits[place]? = some visit) :
    hall.visits[place]? = some visit ∨ event = .enter visit ∨
      ∃ download draw before cells, event = .step place download draw ∧
        hall.visits[place]? = some before ∧ (hall.step event).cells = cells ∧
          Visit.Access download draw hall.cells before visit cells := by
  have hturn := hall.turn_step event
  generalize hall.step event = after at hfound hturn ⊢
  cases hturn with
  | enter new =>
      obtain rfl | hbefore := getElem?_snoc_cases hfound
      · exact .inr (.inl rfl)
      · exact .inl hbefore
  | idle => exact .inl hfound
  | access found access =>
      obtain ⟨rfl, rfl⟩ | ⟨-, hbefore⟩ := getElem?_set_cases hfound
      · exact .inr (.inr ⟨_, _, _, _, rfl, found, rfl, access⟩)
      · exact .inl hbefore

/-- Only an opening that writes the userspace changes it. -/
theorem userspace_step_cases (hall : Hall) (event : Event) :
    (hall.step event).cells.userspace = hall.cells.userspace ∨ hall.EntersUserspace event := by
  have hturn := hall.turn_step event
  generalize hall.step event = after at hturn ⊢
  cases hturn with
  | access found access =>
      cases access with
      | enterUserspace space courses => exact .inr ⟨space, courses, found⟩
      | _ => exact .inl rfl
  | _ => exact .inl rfl

/-- An opening that has ended stays as it is. -/
theorem Turn.mem_opened (hturn : hall.Turn event after) {space : UserspaceId}
    {courses : List Course} (hopened : .opened space courses ∈ hall.visits) :
    .opened space courses ∈ after.visits := by
  cases hturn with
  | enter visit => exact List.mem_append_left _ hopened
  | idle => exact hopened
  | @access place download draw visit next cells found access =>
      obtain heq | hmem := eq_or_mem_set next found hopened
      · subst heq
        cases access with
        | still => exact List.mem_set (List.getElem?_eq_some_iff.mp found).choose _
        | refuse reading refusal => cases reading
      · exact hmem

/-! ## The two cells -/

theorem IsHalfOpen.of_iff (hopen : hall.IsHalfOpen)
    (hvisits : ∀ (place : Nat) (space : UserspaceId) (courses : List Course),
      after.visits[place]? = some (.enteringCourses space courses) ↔
        hall.visits[place]? = some (.enteringCourses space courses)) : after.IsHalfOpen := by
  obtain ⟨place, space, courses, hfound⟩ := hopen
  exact ⟨place, space, courses, (hvisits place space courses).mpr hfound⟩

/-- The half-open visits are the same after a visit that is none has become one that is none. -/
theorem enteringCourses_set_iff {visit next : Visit} (hfound : hall.visits[place]? = some visit)
    (hsame : ∀ space courses, next = .enteringCourses space courses ↔
      visit = .enteringCourses space courses) (other : Nat) (space : UserspaceId)
    (courses : List Course) :
    (hall.visits.set place next)[other]? = some (.enteringCourses space courses) ↔
      hall.visits[other]? = some (.enteringCourses space courses) := by
  by_cases hother : place = other
  · subst hother
    rw [List.getElem?_set_self (List.getElem?_eq_some_iff.mp hfound).choose, hfound,
      Option.some.injEq, Option.some.injEq, hsame]
  · rw [List.getElem?_set_ne hother]

/-- An event that writes neither cell also has to do with no half-open visit. -/
theorem Turn.of_quiet (hturn : hall.Turn event after) (hfresh : event.IsFresh)
    (hspace : ¬hall.EntersUserspace event) (hcourses : ¬hall.EntersCourses event) :
    after.cells = hall.cells ∧ ∀ (place : Nat) (space : UserspaceId) (courses : List Course),
      after.visits[place]? = some (.enteringCourses space courses) ↔
        hall.visits[place]? = some (.enteringCourses space courses) := by
  cases hturn with
  | enter visit =>
      refine ⟨rfl, fun place space courses => ⟨fun hfound => ?_, fun hfound => ?_⟩⟩
      · obtain rfl | hfound := getElem?_snoc_cases hfound
        · obtain ⟨_, heq⟩ | ⟨_, heq⟩ | ⟨_, heq⟩ := hfresh.cases <;> cases heq
        · exact hfound
      · rwa [List.getElem?_append_left (List.getElem?_eq_some_iff.mp hfound).choose]
  | idle => exact ⟨rfl, fun _ _ _ => .rfl⟩
  | @access place download draw visit next cells found access =>
      have hset (hsame : ∀ space courses, next = .enteringCourses space courses ↔
          visit = .enteringCourses space courses) := enteringCourses_set_iff found hsame
      cases access with
      | still => exact ⟨rfl, hset fun _ _ => .rfl⟩
      | refuse reading refusal =>
          refine ⟨rfl, hset fun space courses => ⟨nofun, ?_⟩⟩
          rintro rfl
          cases reading
      | enterUserspace space courses => exact absurd ⟨space, courses, found⟩ hspace
      | enterCourses space courses => exact absurd ⟨space, courses, found⟩ hcourses
      | _ => exact ⟨rfl, hset fun _ _ => ⟨nofun, nofun⟩⟩

theorem Offers.of_turn {space : UserspaceId} (hoffers : hall.Offers space)
    (hturn : hall.Turn event after) (hcourses : after.cells.courses = hall.cells.courses) :
    after.Offers space := by
  rw [Offers, hcourses]
  exact hturn.mem_opened hoffers

/-! ## Runs -/

theorem Occurs.append {described : Hall → Event → Prop} (hoccurs : Occurs events described)
    (more : List Event) : Occurs (events ++ more) described := by
  obtain ⟨before, event, after, rfl, hdescribed⟩ := hoccurs
  exact ⟨before, event, after ++ more, by simp, hdescribed⟩

theorem occurs_snoc {described : Hall → Event → Prop}
    (hdescribed : described (new.run events) event) : Occurs (events ++ [event]) described :=
  ⟨events, event, [], rfl, hdescribed⟩

theorem IsTornAt.append {space : UserspaceId} {moment : Hall}
    (htorn : IsTornAt events place space moment) (more : List Event) :
    IsTornAt (events ++ more) place space moment := by
  obtain ⟨before, download, draw, after, rfl, hmoment, htorn⟩ := htorn
  exact ⟨before, download, draw, after ++ more, by simp, hmoment, htorn⟩

/-- The userspace is that of every half-open visit that was not crossed.  The courses are those
of the opening that wrote them last, and so is the userspace, unless that opening was crossed
or another one is half done. -/
structure IsTraced (events : List Event) : Prop where
  entered : ∀ (place : Nat) (space : UserspaceId) (courses : List Course),
    (new.run events).visits[place]? = some (.enteringCourses space courses) →
      (new.run events).cells.userspace = some space ∨ IsCrossed events place
  supplied :
    (new.run events).cells.courses = [] ∧
        ((new.run events).cells.userspace = none ∨ (new.run events).IsHalfOpen) ∨
      ∃ place space, Supplies events place space ∧ (new.run events).Offers space ∧
        ((new.run events).cells.userspace = some space ∨ IsCrossed events place ∨
          (new.run events).IsHalfOpen)

theorem isTraced_nil : IsTraced [] where
  entered place _ _ hfound := by cases hfound
  supplied := .inl ⟨rfl, .inl rfl⟩

section Steps

variable {space : UserspaceId} {courses : List Course}

/-- An opening writes the userspace and is half done.  Those that were half done before are
crossed. -/
theorem IsTraced.enterUserspace (htraced : IsTraced events)
    (hfound : (new.run events).visits[place]? = some (.enteringUserspace space courses))
    (download : DocumentKey → Except StorageError (Option Json)) (draw : Draw) :
    IsTraced (events ++ [.step place download draw]) := by
  have henters : (new.run events).EntersUserspace (.step place download draw) :=
    ⟨space, courses, hfound⟩
  have hcourses : ¬(new.run events).EntersCourses (.step place download draw) := by
    rintro ⟨_, _, hother⟩
    rw [hfound] at hother
    cases hother
  have hturn := (new.run events).turn_step (.step place download draw)
  have hstep : (new.run events).step (.step place download draw) =
      { cells := { (new.run events).cells with userspace := some space }
        visits := (new.run events).visits.set place (.enteringCourses space courses) } := by
    simp only [step, hfound, Visit.step]
  have hopen : ((new.run events).step (.step place download draw)).IsHalfOpen := by
    rw [hstep]
    have hplace := (List.getElem?_eq_some_iff.mp hfound).choose
    exact ⟨place, space, courses, List.getElem?_set_self hplace⟩
  constructor
  · intro other space' courses' hother
    rw [run_snoc, hstep] at hother ⊢
    obtain ⟨rfl, heq⟩ | ⟨-, hbefore⟩ := getElem?_set_cases hother
    · cases heq
      exact .inl rfl
    · exact .inr (occurs_snoc ⟨⟨space', courses', hbefore⟩, henters⟩)
  · rw [run_snoc]
    have hsame : ((new.run events).step (.step place download draw)).cells.courses =
        (new.run events).cells.courses := by rw [hstep]
    obtain ⟨hnone, -⟩ | ⟨supplier, source, hsupplies, hoffers, -⟩ := htraced.supplied
    · exact .inl ⟨hsame.trans hnone, .inr hopen⟩
    · exact .inr ⟨supplier, source, hsupplies.kept hcourses, hoffers.of_turn hturn hsame,
        .inr (.inr hopen)⟩

/-- A half-open visit writes its courses, and it is the one that has supplied them. -/
theorem IsTraced.enterCourses (htraced : IsTraced events)
    (hfound : (new.run events).visits[place]? = some (.enteringCourses space courses))
    (download : DocumentKey → Except StorageError (Option Json)) (draw : Draw) :
    IsTraced (events ++ [.step place download draw]) := by
  have hstep : (new.run events).step (.step place download draw) =
      { cells := { (new.run events).cells with courses }
        visits := (new.run events).visits.set place (.opened space courses) } := by
    simp only [step, hfound, Visit.step]
  constructor
  · intro other space' courses' hother
    rw [run_snoc, hstep] at hother ⊢
    obtain ⟨-, heq⟩ | ⟨-, hbefore⟩ := getElem?_set_cases hother
    · cases heq
    · exact (htraced.entered other space' courses' hbefore).imp_right (Occurs.append · _)
  · right
    rw [run_snoc, hstep]
    refine ⟨place, space, .enters hfound download draw, ?_, ?_⟩
    · exact List.mem_set (List.getElem?_eq_some_iff.mp hfound).choose _
    · exact (htraced.entered place space courses hfound).imp_right
        fun hcrossed => .inl (hcrossed.append _)

end Steps

/-- An event that writes neither cell. -/
theorem IsTraced.quiet (htraced : IsTraced events) (hfresh : event.IsFresh)
    (hspace : ¬(new.run events).EntersUserspace event)
    (hcourses : ¬(new.run events).EntersCourses event) : IsTraced (events ++ [event]) := by
  have hturn := (new.run events).turn_step event
  obtain ⟨hcells, hvisits⟩ := hturn.of_quiet hfresh hspace hcourses
  constructor
  · intro place space courses hfound
    rw [run_snoc] at hfound ⊢
    rw [hvisits] at hfound
    rw [hcells]
    exact (htraced.entered place space courses hfound).imp_right (Occurs.append · _)
  · rw [run_snoc]
    obtain ⟨hnone, hspace⟩ | ⟨place, space, hsupplies, hoffers, hmatched⟩ := htraced.supplied
    · left
      rw [hcells]
      exact ⟨hnone, hspace.imp_right (IsHalfOpen.of_iff · hvisits)⟩
    · right
      refine ⟨place, space, hsupplies.kept hcourses,
        hoffers.of_turn hturn (congrArg Cells.courses hcells), ?_⟩
      rw [hcells]
      exact hmatched.imp_right
        (Or.imp (Occurs.append · _) (IsHalfOpen.of_iff · hvisits))

theorem isTraced_run (hfresh : ∀ event ∈ events, event.IsFresh) : IsTraced events := by
  induction events using List.reverseRecOn with
  | nil => exact isTraced_nil
  | append_singleton events event ih =>
      rw [List.forall_mem_append, List.forall_mem_singleton] at hfresh
      have htraced := ih hfresh.1
      by_cases hspace : (new.run events).EntersUserspace event
      · cases event with
        | enter visit => cases hspace
        | step place download draw =>
            obtain ⟨space, courses, hfound⟩ := hspace
            exact htraced.enterUserspace hfound download draw
      · by_cases hcourses : (new.run events).EntersCourses event
        · cases event with
          | enter visit => cases hcourses
          | step place download draw =>
              obtain ⟨space, courses, hfound⟩ := hcourses
              exact htraced.enterCourses hfound download draw
        · exact htraced.quiet hfresh.2 hspace hcourses

/-- When no opening is half done, the courses are those of the open userspace, or the opening
that supplied them was crossed. -/
theorem IsTraced.settled (htraced : IsTraced events) (hrest : ¬(new.run events).IsHalfOpen) :
    (new.run events).IsSettled ∨ ∃ space, (new.run events).Offers space ∧ IsTorn events space := by
  obtain ⟨hcourses, hspace⟩ | ⟨place, space, hsupplies, hoffers, hmatched⟩ := htraced.supplied
  · left
    left
    have hnone := hspace.resolve_right hrest
    change (new.run events).cells = ⟨none, []⟩
    rw [← hnone, ← hcourses]
  · obtain hsame | hcrossed | hopen := hmatched
    · exact .inl (.inr ⟨space, hsame, hoffers⟩)
    · exact .inr ⟨space, hoffers, place, hsupplies, hcrossed⟩
    · exact absurd hopen hrest

/-- The courses that an opening returns are those in the catalog of its userspace. -/
theorem fetches_of_fetched? (hfresh : ∀ event ∈ events, event.IsFresh) {visit : Visit}
    {space : UserspaceId} {courses : List Course}
    (hfound : (new.run events).visits[place]? = some visit)
    (hfetched : visit.fetched? = some (space, courses)) : Fetches events place space courses := by
  induction events using List.reverseRecOn generalizing visit with
  | nil => cases hfound
  | append_singleton events event ih =>
      rw [List.forall_mem_append, List.forall_mem_singleton] at hfresh
      rw [run_snoc] at hfound
      obtain hbefore | rfl | ⟨download, draw, before, _, rfl, hbefore, -, haccess⟩ :=
        found_cases hfound
      · exact (ih hfresh.1 hbefore hfetched).append _
      · obtain ⟨_, rfl⟩ | ⟨_, rfl⟩ | ⟨_, rfl⟩ := hfresh.2.cases <;> cases hfetched
      · obtain hearlier | ⟨rfl, hread⟩ := haccess.fetched? hfetched
        · exact (ih hfresh.1 hbefore hearlier).append _
        · exact occurs_snoc ⟨hbefore, _, _, rfl, hread⟩

/-! ## Cards and their userspaces -/

/-- The course was chosen at a moment when it was on offer for a userspace; that is the
userspace in the cell, or the opening that had supplied the courses was crossed, or one was half
done then, or one has come in between since. -/
structure IsChosen (events : List Event) (place : Nat) (request : CreateCard) (course : Course)
    (choice : Hall) (space : UserspaceId) (current : Option UserspaceId) : Prop where
  chooses : Chooses events place request course choice
  offers : choice.Offers space
  matched : current = some space ∨ IsTornAt events place space choice ∨ choice.IsHalfOpen ∨
    Overtakes events place

theorem IsChosen.append {request : CreateCard} {course : Course} {choice : Hall}
    {space : UserspaceId} {current : Option UserspaceId}
    (hchosen : IsChosen events place request course choice space current) (more : List Event) :
    IsChosen (events ++ more) place request course choice space current where
  chooses := ⟨hchosen.chooses.1.append more, hchosen.chooses.2⟩
  offers := hchosen.offers
  matched := hchosen.matched.imp_right
    (Or.imp (IsTornAt.append · more) (Or.imp_right (Occurs.append · more)))

/-- A course that can be chosen is on offer for some userspace, and for the open one if no
opening is half done. -/
theorem exists_isChosen (hfresh : ∀ event ∈ events, event.IsFresh) {request : CreateCard}
    {course : Course} {draw : Draw} {download : DocumentKey → Except StorageError (Option Json)}
    (hfound : (new.run events).visits[place]? = some (.choosing request))
    (hchosen : chooseCourse (new.run events).cells.courses request = .ok course) :
    ∃ space, IsChosen (events ++ [.step place download draw]) place request course
      (new.run events) space (new.run events).cells.userspace := by
  have hchooses : Chooses (events ++ [.step place download draw]) place request course
      (new.run events) := ⟨occurs_snoc ⟨rfl, hfound, download, draw, rfl⟩, hchosen⟩
  obtain ⟨hnone, -⟩ | ⟨supplier, space, hsupplies, hoffers, hmatched⟩ :=
    (isTraced_run hfresh).supplied
  · rw [hnone] at hchosen
    cases hchosen
  · refine ⟨space, hchooses, hoffers, ?_⟩
    obtain hsame | hcrossed | hopen := hmatched
    · exact .inl hsame
    · exact .inr (.inl ⟨events, download, draw, [], rfl, rfl, supplier, hsupplies, hcrossed⟩)
    · exact .inr (.inr (.inl hopen))

/-- A visit that has chosen its course. -/
theorem isChosen_of_naming (hfresh : ∀ event ∈ events, event.IsFresh) {request : CreateCard}
    {course : Course}
    (hfound : (new.run events).visits[place]? = some (.naming request course)) :
    ∃ choice space, IsChosen events place request course choice space
      (new.run events).cells.userspace := by
  induction events using List.reverseRecOn with
  | nil => cases hfound
  | append_singleton events event ih =>
      rw [List.forall_mem_append, List.forall_mem_singleton] at hfresh
      rw [run_snoc] at hfound ⊢
      -- the course was chosen before
      have hearlier (hbefore : (new.run events).visits[place]? = some (.naming request course)) :
          ∃ choice space, IsChosen (events ++ [event]) place request course choice space
            ((new.run events).step event).cells.userspace := by
        obtain ⟨choice, space, hchosen⟩ := ih hfresh.1 hbefore
        obtain hsame | henters := (new.run events).userspace_step_cases event
        · exact ⟨choice, space, hsame ▸ hchosen.append _⟩
        · refine ⟨choice, space, (hchosen.append _).chooses, hchosen.offers, ?_⟩
          exact .inr (.inr (.inr (occurs_snoc ⟨⟨request, course, hbefore⟩, henters⟩)))
      obtain hbefore | rfl | ⟨download, draw, before, _, rfl, hbefore, hcells, haccess⟩ :=
        found_cases hfound
      · exact hearlier hbefore
      · obtain ⟨_, heq⟩ | ⟨_, heq⟩ | ⟨_, heq⟩ := hfresh.2.cases <;> cases heq
      · cases haccess with
        | still => exact hearlier hbefore
        | choose chosen =>
            rw [hcells]
            exact ⟨_, exists_isChosen hfresh.1 hbefore chosen⟩

/-- A visit that has made a card. -/
theorem isChosen_of_created (hfresh : ∀ event ∈ events, event.IsFresh) {card : Card}
    (hfound : (new.run events).visits[place]? = some (.created card)) :
    ∃ request choice space naming, Names events place request card naming ∧
      IsChosen events place request card.course choice space naming.cells.userspace := by
  induction events using List.reverseRecOn with
  | nil => cases hfound
  | append_singleton events event ih =>
      rw [List.forall_mem_append, List.forall_mem_singleton] at hfresh
      rw [run_snoc] at hfound
      have hearlier (hbefore : (new.run events).visits[place]? = some (.created card)) :
          ∃ request choice space naming, Names (events ++ [event]) place request card naming ∧
            IsChosen (events ++ [event]) place request card.course choice space
              naming.cells.userspace := by
        obtain ⟨request, choice, space, naming, hnames, hchosen⟩ := ih hfresh.1 hbefore
        exact ⟨request, choice, space, naming, ⟨hnames.1.append _, hnames.2⟩, hchosen.append _⟩
      obtain hbefore | rfl | ⟨download, draw, before, _, rfl, hbefore, -, haccess⟩ :=
        found_cases hfound
      · exact hearlier hbefore
      · obtain ⟨_, heq⟩ | ⟨_, heq⟩ | ⟨_, heq⟩ := hfresh.2.cases <;> cases heq
      · cases haccess with
        | still => exact hearlier hbefore
        | @name request course _ started =>
            obtain ⟨hid, rfl⟩ := Card.id_of_startCard started
            obtain ⟨choice, space, hchosen⟩ := isChosen_of_naming hfresh.1 hbefore
            exact ⟨request, choice, space, _, ⟨occurs_snoc ⟨rfl, hbefore, _, _, rfl⟩, _, hid⟩,
              hchosen.append _⟩

/-- A card takes its course from the catalog on offer at one moment and its name from the
userspace that is open at a later one.  The catalog is that of the userspace, and at rest the
courses are those of the open userspace, unless openings have come in between: in the middle of
the one that supplied the courses, or while the card was made.  What an opening puts on offer is
what it found in the catalog of its userspace. -/
theorem mixed_only_by_interleaving (hfresh : ∀ event ∈ events, event.IsFresh) :
    (∀ (place : Nat) (card : Card), (new.run events).visits[place]? = some (.created card) →
      ∃ request choice space naming, Names events place request card naming ∧
        IsChosen events place request card.course choice space naming.cells.userspace) ∧
      (¬(new.run events).IsHalfOpen → (new.run events).IsSettled ∨
        ∃ space, (new.run events).Offers space ∧ IsTorn events space) ∧
      ∀ (place : Nat) (space : UserspaceId) (courses : List Course),
        (new.run events).visits[place]? = some (.opened space courses) →
          Fetches events place space courses := by
  exact ⟨fun place card hfound => isChosen_of_created hfresh hfound,
    fun hrest => (isTraced_run hfresh).settled hrest,
    fun place space courses hfound => fetches_of_fetched? hfresh hfound rfl⟩

/-! ## Requests that come in between each other -/

instance (hall : Hall) (space : UserspaceId) : Decidable (hall.Offers space) :=
  decidable_of_iff (hall.visits.any fun visit =>
      match visit with
      | .opened other courses => other == space && courses == hall.cells.courses
      | _ => false) <| by
    rw [List.any_eq_true, Offers]
    constructor
    · rintro ⟨visit, hmem, hsame⟩
      split at hsame
      · simp only [Bool.and_eq_true, beq_iff_eq] at hsame
        obtain ⟨rfl, rfl⟩ := hsame
        exact hmem
      · cases hsame
    · intro hmem
      exact ⟨_, hmem, by simp⟩

/-- The card that a visit has made. -/
def card? (hall : Hall) (place : Nat) : Option Card :=
  match hall.visits[place]? with
  | some (.created card) => some card
  | _ => none

theorem card?_eq_some_iff {card : Card} :
    hall.card? place = some card ↔ hall.visits[place]? = some (.created card) := by
  rw [card?]
  split
  · next found hfound => simp [hfound]
  · next hother => exact ⟨nofun, fun hfound => absurd hfound (hother card)⟩

/-- The promise: a card is named after a userspace that its course was on offer for, and when
no opening is under way the courses are those of the open userspace. -/
def KeepsApart (events : List Event) : Prop :=
  (∀ (place : Nat) (card : Card), (new.run events).visits[place]? = some (.created card) →
    ∃ request choice space draw, Chooses events place request card.course choice ∧
      choice.Offers space ∧ card.id = .issue (some space) draw) ∧
    ((∀ visit ∈ (new.run events).visits, visit.isOpening = false) → (new.run events).IsSettled)

/-- The userspace of the passphrase "alpha", whose catalog has one course. -/
def alpha : UserspaceId where
  chars := "8ed3f6ad685b959e".toList
  lowerHex := List.all_eq_true.mp (by decide)
  length_eq := by decide

/-- The userspace of the passphrase "beta", which has no catalog. -/
def beta : UserspaceId where
  chars := "f44e64e75f3948e9".toList
  lowerHex := List.all_eq_true.mp (by decide)
  length_eq := by decide

def openAlpha : Visit :=
  .downloading alpha

def openBeta : Visit :=
  .downloading beta

theorem ofPassphrase_alpha : .ofPassphrase ⟨"alpha"⟩ = openAlpha := by
  have hspace : UserspaceId.ofPassphrase "alpha" = .ok alpha := by decide +kernel
  rw [Visit.ofPassphrase, hspace]
  rfl

theorem ofPassphrase_beta : .ofPassphrase ⟨"beta"⟩ = openBeta := by
  have hspace : UserspaceId.ofPassphrase "beta" = .ok beta := by decide +kernel
  rw [Visit.ofPassphrase, hspace]
  rfl

def alphaStore (key : DocumentKey) : Except StorageError (Option Json) :=
  if key = .courses alpha.text then
    .ok (some (CatalogDocument.codec.encode
      { courses :=
          [{ courseId := "links", holeNumbers := ["1"], holePars := [3], enabled := true }] }))
  else .ok none

def laterDraw : Draw :=
  { millis := 5, picks := .replicate 6 (Fin.last _) }

def goOn (place : Nat) : Event :=
  .step place alphaStore laterDraw

/-- A userspace is opened, and then a card is started. -/
def oneByOne : List Event :=
  [.enter openAlpha, goOn 0, goOn 0, goOn 0, .enter (.create ⟨"links", []⟩), goOn 1, goOn 1]

theorem mixed_only_by_interleaving_oneByOne :
    (∀ event ∈ oneByOne, event.IsFresh) ∧ ∃ card : Card,
      (new.run oneByOne).visits[1]? = some (.created card) ∧
        card.id = .issue (some alpha) laterDraw ∧
          ∃ request choice space naming, Names oneByOne 1 request card naming ∧
            IsChosen oneByOne 1 request card.course choice space naming.cells.userspace := by
  have hfresh : ∀ event ∈ oneByOne, event.IsFresh := by
    simp only [oneByOne, List.forall_mem_cons]
    exact ⟨.inl ⟨_, ofPassphrase_alpha.symm⟩, trivial, trivial, trivial, .inr ⟨_, rfl⟩, trivial,
      trivial, nofun⟩
  have hcard : ((new.run oneByOne).card? 1).map Card.id = some (.issue (some alpha) laterDraw) := by
    decide +kernel
  obtain ⟨card, hfound, hid⟩ := Option.map_eq_some_iff.mp hcard
  have hcreated := card?_eq_some_iff.mp hfound
  exact ⟨hfresh, card, hcreated, hid, (mixed_only_by_interleaving hfresh).1 1 card hcreated⟩

/-- A card is started on the course of one userspace, and before it is named another userspace
is opened. -/
def crossedCreation : List Event :=
  [.enter openAlpha, .enter openBeta, .enter (.create ⟨"links", []⟩),
    goOn 0, goOn 0, goOn 0, goOn 1, goOn 2, goOn 1, goOn 2, goOn 1]

/-- Two userspaces are opened; the one that is first to write the userspace is the last to
write its courses. -/
def crossedOpenings : List Event :=
  [.enter openAlpha, .enter openBeta, goOn 0, goOn 0, goOn 1, goOn 1, goOn 1, goOn 0]

theorem not_keepsApart_crossed :
    ((∀ event ∈ crossedCreation, event.IsFresh) ∧ ¬KeepsApart crossedCreation) ∧
      (∀ event ∈ crossedOpenings, event.IsFresh) ∧ ¬KeepsApart crossedOpenings := by
  have halpha : (Event.enter openAlpha).IsFresh := .inl ⟨_, ofPassphrase_alpha.symm⟩
  have hbeta : (Event.enter openBeta).IsFresh := .inl ⟨_, ofPassphrase_beta.symm⟩
  refine ⟨⟨?_, fun hapart => ?_⟩, ?_, fun hapart => ?_⟩
  · simp only [crossedCreation, List.forall_mem_cons]
    exact ⟨halpha, hbeta, .inr ⟨_, rfl⟩, trivial, trivial, trivial, trivial, trivial, trivial,
      trivial, trivial, nofun⟩
  · have hcard : ((new.run crossedCreation).card? 2).map Card.id =
        some (.issue (some beta) laterDraw) := by decide +kernel
    obtain ⟨card, hfound, hid⟩ := Option.map_eq_some_iff.mp hcard
    obtain ⟨request, choice, space, draw, hchooses, hoffers, hissued⟩ :=
      hapart.1 2 card (card?_eq_some_iff.mp hfound)
    obtain rfl := Option.some.inj (ScorecardId.eq_of_issue_eq (hissued.symm.trans hid)).1
    -- at no moment before the last event have the courses been those of the second userspace
    have hnever : ∀ n < 11, ¬(new.run (crossedCreation.take n)).Offers beta := by decide +kernel
    obtain ⟨before, event, after, hsplit, rfl, -⟩ := hchooses.1
    have hlength := congrArg List.length hsplit
    rw [List.length_append, List.length_cons] at hlength
    have hshort : before.length < 11 := by
      have : crossedCreation.length = 11 := rfl
      omega
    apply hnever before.length hshort
    rw [hsplit, List.take_left]
    exact hoffers
  · simp only [crossedOpenings, List.forall_mem_cons]
    exact ⟨halpha, hbeta, trivial, trivial, trivial, trivial, trivial, trivial, nofun⟩
  · have hspace : (new.run crossedOpenings).cells.userspace = some beta := by decide +kernel
    have hoffers : ¬(new.run crossedOpenings).Offers beta := by decide +kernel
    obtain hnew | ⟨space, hopen, hoffered⟩ := hapart.2 (by decide +kernel)
    · rw [hnew] at hspace
      cases hspace
    · rw [hspace] at hopen
      cases hopen
      exact hoffers hoffered

end Hall

end Scorekeeper.Service
