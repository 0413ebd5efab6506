import Mathlib.Data.List.Basic
import Scorekeeper.Proofs.Card.Answers
import Scorekeeper.Proofs.Service.Refused

/-!
# Courses on offer

The listing shows the courses of a catalog under the ids that the catalog gives them.  A
request for a card drops the blanks around the id in it, refuses one of which nothing is
left, and takes the first course that has it, enabled or not.  The catalog is held to none
of this, so that an enabled course may be listed under an id by which it cannot be had.
This file says exactly which courses can be had, and that nothing else stands in the way of
a card.
-/

namespace Scorekeeper

open Json Service Text

/-! ## What a listing tells -/

namespace Service

theorem texts_injective : Function.Injective texts := by
  intro left right heq
  apply List.map_injective_iff.mpr _ (Json.arr.inj heq)
  intro a b hsame
  exact Json.str.inj hsame

theorem words_injective : Function.Injective words := by
  intro left right heq
  apply List.map_injective_iff.mpr _ (Json.arr.inj heq)
  intro a b hsame
  exact UInt32.toNat_inj.mp (Int.ofNat_inj.mp (Json.int.inj hsame))

/-- A course can be told from what is shown of it. -/
theorem viewCourse_injective : Function.Injective viewCourse := by
  intro left right heq
  simp only [viewCourse, Json.obj.injEq, List.cons.injEq, Prod.mk.injEq, true_and, and_true,
    Json.str.injEq, Json.bool.injEq] at heq
  obtain ⟨hid, hlabels, hpars, -, henabled⟩ := heq
  have hlabels := texts_injective hlabels
  have hpars := words_injective hpars
  cases left
  cases right
  cases hid
  cases hlabels
  cases hpars
  cases henabled
  rfl

end Service

/-! ## Starting a card -/

namespace Card

variable {card : Card} {course : Course} {space : Option UserspaceId} {draw : Draw}

/-- Players with valid names can always be put on a card. -/
theorem exists_lineUp {names : List String} (hnames : CreateCard.nameDefects names = [])
    (hone : 1 ∈ card.numbers) : ∃ made, lineUp card names = .ok made := by
  cases names with
  | nil => exact ⟨card, rfl⟩
  | cons first rest =>
      have hfirst := (nameDefects_eq_nil_iff.mp hnames).2 first List.mem_cons_self
      obtain ⟨after, _, hrename, -⟩ := exists_rename hone hfirst.1
      rw [lineUp, hrename]
      exact ⟨_, rfl⟩

theorem exists_startCard {names : List String} (henabled : course.enabled = true)
    (hnames : CreateCard.nameDefects names = []) (id : String) (space : Option UserspaceId)
    (draw : Draw) : ∃ card, startCard ⟨id, names⟩ course space draw = .ok card := by
  obtain ⟨started, hstarted, hone⟩ :
      ∃ started, Card.start course space draw = .ok started ∧ 1 ∈ started.numbers :=
    ⟨_, if_pos henabled, List.mem_cons_self⟩
  obtain ⟨card, hcard⟩ := exists_lineUp hnames hone
  exact ⟨card, bind_eq_ok_iff.mpr ⟨started, hstarted, hcard⟩⟩

end Card

namespace Service

/-! ## Finding a course by its id -/

/-- A course can be asked for by its id: something is left of the id when it is trimmed, and
that is the id itself, and no other course of that id comes before it. -/
structure IsAskable (courses : List Course) (course : Course) : Prop where
  notBlank : course.id ≠ ""
  trimmed : trim course.id = course.id
  first : ∀ (before : List Course) (other : Course) (after : List Course),
    courses = before ++ other :: after → course ∉ before → other.id = course.id → other = course

variable {courses : List Course} {course : Course}

theorem findCourse_eq_some_iff {id : String} {found : Course} :
    findCourse courses id = some found ↔ found.id = id ∧
      ∃ before after, courses = before ++ found :: after ∧ ∀ other ∈ before, other.id ≠ id := by
  rw [findCourse, List.find?_eq_some_iff_append, beq_iff_eq]
  simp only [Bool.not_eq_true', beq_eq_false_iff_ne]

/-- The first of the courses with an id is found. -/
theorem findCourse_id_eq_some_iff (hmem : course ∈ courses) :
    findCourse courses course.id = some course ↔
      ∀ (before : List Course) (other : Course) (after : List Course),
        courses = before ++ other :: after → course ∉ before → other.id = course.id →
          other = course := by
  constructor
  · intro hfound before other after hsplit hnew hsame
    rw [hsplit, findCourse, List.find?_append, Option.or_eq_some_iff] at hfound
    obtain hearlier | ⟨-, hhere⟩ := hfound
    · exact absurd (List.mem_of_find?_eq_some hearlier) hnew
    · simpa only [List.find?_cons, hsame, beq_self_eq_true, Option.some.injEq] using hhere
  · intro hfirst
    have hsome : (findCourse courses course.id).isSome = true :=
      List.find?_isSome.mpr ⟨course, hmem, beq_self_eq_true _⟩
    obtain ⟨found, hfound⟩ := Option.isSome_iff_exists.mp hsome
    obtain ⟨hid, before, after, hsplit, hbefore⟩ := findCourse_eq_some_iff.mp hfound
    have hnew : course ∉ before := fun hearlier => hbefore course hearlier rfl
    rw [hfound, hfirst before found after hsplit hnew hid]

/-- A request finds the course whose id it gives exactly when that can be asked for. -/
theorem isAskable_iff (hmem : course ∈ courses) :
    IsAskable courses course ↔
      trim course.id ≠ "" ∧ findCourse courses (trim course.id) = some course := by
  constructor
  · rintro ⟨hnotBlank, htrimmed, hfirst⟩
    rw [htrimmed, findCourse_id_eq_some_iff hmem]
    exact ⟨hnotBlank, hfirst⟩
  · rintro ⟨hnotBlank, hfound⟩
    have htrimmed : course.id = trim course.id := (findCourse_eq_some_iff.mp hfound).1
    rw [← htrimmed] at hnotBlank hfound
    exact ⟨hnotBlank, htrimmed.symm, (findCourse_id_eq_some_iff hmem).mp hfound⟩

theorem chooseCourse_eq_ok_iff {request : CreateCard} :
    chooseCourse courses request = .ok course ↔
      findCourse courses (trim request.courseId) = some course := by
  rw [chooseCourse]
  cases hfound : findCourse courses (trim request.courseId) <;> simp

/-! ## Asking for a card -/

namespace State

variable {state : State} {outside early late : Outside} {listing creation : HttpRequest}
  {names : List String}

/-- The listing shows the courses in their order and changes nothing. -/
theorem listing_eq {entries : List Json} (hlisting : listing.action = .ok .listCourses)
    (hshown : (state.respond early listing).1.content = .value (.arr entries)) :
    entries = state.cells.courses.map viewCourse ∧ (state.respond early listing).2 = state := by
  constructor
  · have hcontent := content_of_respond hlisting hshown
    exact (Json.arr.inj (Content.value.inj hcontent)).symm
  · exact (state.respond_of_action early hlisting).2

/-- A request starts a card on a course, with the pars of the course. -/
structure Starts (state : State) (outside : Outside) (creation : HttpRequest)
    (course : Course) : Prop where
  status : (state.respond outside creation).1.status = 200
  card : ∃ card, (state.respond outside creation).2.card = some card ∧
    card.course = course ∧ card.parValues = course.pars

/-- A card is started on a course exactly when the request has no defects and its id leads to
that course. -/
theorem starts_iff_found (henabled : course.enabled = true) {id : String}
    (hcreation : creation.action = .ok (.createCard ⟨id, names⟩))
    (hnames : CreateCard.nameDefects names = []) :
    state.Starts outside creation course ↔
      trim id ≠ "" ∧ findCourse state.cells.courses (trim id) = some course := by
  obtain ⟨hstatus, hstate⟩ := state.respond_of_action outside hcreation
  constructor
  · rintro ⟨hgranted, card, hcard, hcourse, -⟩
    rw [hstatus] at hgranted
    rw [hstate] at hcard
    have hperforms : state.Performs outside (.createCard ⟨id, names⟩)
        (state.perform outside (.createCard ⟨id, names⟩)) :=
      performs_checked fun hfit => performs_createCard hfit
    generalize state.perform outside (.createCard ⟨id, names⟩) = result at *
    have hsuccess : IsSuccess (Reply.ofOutcome result.1).status := by
      rw [hgranted]
      decide
    cases hperforms with
    | created fit chosen started =>
        have hfound := chooseCourse_eq_ok_iff.mp chosen
        have hchosen := (Card.id_of_startCard started).2
        rw [Option.some.inj hcard, hcourse] at hchosen
        rw [← hchosen] at hfound
        exact ⟨(createCard_defects_eq_nil_iff.mp fit).1, hfound⟩
    | edited fit edits_eq card_eq after_eq => cases edits_eq
    | shown reading => cases reading
    | _ => exact absurd hsuccess (not_isSuccess_ofRefusal _)
  · rintro ⟨hnotBlank, hfound⟩
    have hfit : (CreateCard.mk id names).defects = [] :=
      createCard_defects_eq_nil_iff.mpr ⟨hnotBlank, hnames⟩
    have hchosen : chooseCourse state.cells.courses ⟨id, names⟩ = .ok course :=
      chooseCourse_eq_ok_iff.mpr hfound
    obtain ⟨card, hstarted⟩ :=
      Card.exists_startCard henabled hnames id state.cells.userspace outside.draw
    have hperform : state.perform outside (.createCard ⟨id, names⟩) =
        (.ok (.value 200 (state.cardView card)), { state with card := some card }) := by
      rw [perform, hfit, checked, createCard, hchosen]
      simp only [hstarted]
      rfl
    rw [hperform] at hstatus hstate
    refine ⟨hstatus, card, ?_, (Card.id_of_startCard hstarted).2,
      Card.parValues_of_startCard hstarted⟩
    rw [hstate]

/-- Whatever catalog was opened and whatever was done since: whoever asks for an enabled course
by the id in the listing gets a card on it exactly when that id is not blank, has no blanks
around it, and belongs to no other course before. -/
theorem starts_iff_isAskable {entries : List Json}
    (hlisting : listing.action = .ok .listCourses)
    (hshown : (state.respond early listing).1.content = .value (.arr entries))
    (hentry : viewCourse course ∈ entries) (henabled : course.enabled = true)
    (hcreation : creation.action = .ok (.createCard ⟨course.id, names⟩))
    (hnames : CreateCard.nameDefects names = []) :
    (state.respond early listing).2.Starts late creation course ↔
      IsAskable state.cells.courses course := by
  obtain ⟨rfl, hsame⟩ := listing_eq hlisting hshown
  have hmem : course ∈ state.cells.courses :=
    (List.mem_map_of_injective viewCourse_injective).mp hentry
  rw [hsame, isAskable_iff hmem]
  exact starts_iff_found henabled hcreation hnames

/-! ## A catalog with odd ids -/

/-- A course is listed under an id with blanks around it, and one under an id that a closed
course before it has. -/
def oddStore : Outside :=
  { courseStore with
    download := fun _ => .ok (some (CatalogDocument.codec.encode
      { courses :=
        [{ courseId := " links ", holeNumbers := ["home"], holePars := [3], enabled := true },
          { courseId := "greens", holeNumbers := ["home"], holePars := [3], enabled := false },
          { courseId := "greens", holeNumbers := ["home"], holePars := [4], enabled := true },
          { courseId := "", holeNumbers := ["home"], holePars := [3], enabled := true },
          { courseId := "dunes", holeNumbers := ["home"], holePars := [5], enabled := true }] })) }

def oneHole (id : String) (par : UInt8) : Course where
  id
  labels := ["home"]
  pars := [par.toUInt32]
  enabled := true
  labels_ne_nil := List.cons_ne_nil _ _
  length_eq := rfl
  inRange := by
    intro other hmem
    have hpar := par.toNat_lt
    rw [List.mem_singleton.mp hmem, UInt8.toNat_toUInt32, maxValue]
    omega

def openedOdd : Reply × State :=
  (State.new .default).respond oddStore openBirdie

def askCourses : HttpRequest where
  method := "GET"
  target := "/courses"
  contentType := none
  body := .empty

def askCard (id : String) : HttpRequest :=
  requestWith "POST" "/scorecards" CreateCard.codec ⟨id, []⟩

def oddCourses : List Course :=
  [oneHole " links " 3, { oneHole "greens" 3 with enabled := false },
    oneHole "greens" 4, oneHole "" 3, oneHole "dunes" 5]

theorem courses_openedOdd : openedOdd.2.cells.courses = oddCourses := by
  decide +kernel

theorem action_askCourses : askCourses.action = .ok .listCourses := by
  decide +kernel

theorem content_askCourses : (openedOdd.2.respond oddStore askCourses).1.content =
    .value (.arr (oddCourses.map viewCourse)) := by
  have hcontent : (openedOdd.2.respond oddStore askCourses).1.content =
      .value (viewCourses openedOdd.2.cells.courses) := rfl
  rw [hcontent, courses_openedOdd]
  rfl

theorem starts_iff_isAskable_dunes :
    let dunes := oneHole "dunes" 5
    openedOdd.1.status = 200 ∧ askCourses.action = .ok .listCourses ∧
      (openedOdd.2.respond oddStore askCourses).1.content =
        .value (.arr (oddCourses.map viewCourse)) ∧
      viewCourse dunes ∈ oddCourses.map viewCourse ∧ dunes.enabled = true ∧
      (askCard "dunes").action = .ok (.createCard ⟨"dunes", []⟩) ∧
      CreateCard.nameDefects [] = [] ∧ IsAskable openedOdd.2.cells.courses dunes ∧
      (openedOdd.2.respond oddStore askCourses).2.Starts oddStore (askCard "dunes") dunes := by
  intro dunes
  have hmem : dunes ∈ oddCourses := by decide
  have hentry : viewCourse dunes ∈ oddCourses.map viewCourse := List.mem_map_of_mem hmem
  have hcreation : (askCard "dunes").action = .ok (.createCard ⟨"dunes", []⟩) := by
    decide +kernel
  have haskable : IsAskable openedOdd.2.cells.courses dunes := by
    rw [courses_openedOdd, isAskable_iff hmem]
    decide
  have hstarts :
      (openedOdd.2.respond oddStore askCourses).2.Starts oddStore (askCard "dunes") dunes :=
    (starts_iff_isAskable action_askCourses content_askCourses hentry rfl hcreation rfl).mpr
      haskable
  exact ⟨by decide +kernel, action_askCourses, content_askCourses, hentry, rfl, hcreation, rfl,
    haskable, hstarts⟩

/-- Every enabled course that is listed can be had by the id in the listing. -/
def PlaysOffers (state : State) : Prop :=
  ∀ (early late : Outside) (listing creation : HttpRequest) (entries : List Json)
    (course : Course) (names : List String), listing.action = .ok .listCourses →
      (state.respond early listing).1.content = .value (.arr entries) →
      viewCourse course ∈ entries → course.enabled = true →
      creation.action = .ok (.createCard ⟨course.id, names⟩) →
      CreateCard.nameDefects names = [] →
      (state.respond early listing).2.Starts late creation course

/-- Of the four enabled courses of a catalog, three cannot be had: their ids are trimmed in
the request, or found at a closed course first, or blank. -/
theorem not_playsOffers_odd :
    (openedOdd.1.status = 200 ∧ (openedOdd.2.respond oddStore (askCard " links ")).1.status = 404 ∧
      (openedOdd.2.respond oddStore (askCard "greens")).1.status = 409 ∧
      (openedOdd.2.respond oddStore (askCard "")).1.status = 400) ∧
      ¬openedOdd.2.PlaysOffers := by
  have hunknown : (openedOdd.2.respond oddStore (askCard " links ")).1.status = 404 := by
    decide +kernel
  refine ⟨⟨by decide +kernel, hunknown, by decide +kernel, by decide +kernel⟩, fun hplays => ?_⟩
  have hmem : oneHole " links " 3 ∈ oddCourses := List.mem_cons_self
  have hcreation : (askCard " links ").action = .ok (.createCard ⟨" links ", []⟩) := by
    decide +kernel
  have hstarts := hplays oddStore oddStore askCourses (askCard " links ") _ _ []
    action_askCourses content_askCourses (List.mem_map_of_mem hmem) rfl hcreation rfl
  have hstatus := hstarts.status
  rw [(listing_eq action_askCourses content_askCourses).2, hunknown] at hstatus
  cases hstatus

end State

end Service

end Scorekeeper
