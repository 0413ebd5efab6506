import Scorekeeper.Proofs.Card.Ids
import Scorekeeper.Proofs.Card.Normal
import Scorekeeper.Proofs.Service.Catalogs
import Scorekeeper.Proofs.Service.Offers

/-!
# New cards

A card starts with one row.  The first name of a request renames that row, which may be
refused; every further name adds a row, which never is, and a blank name would be replaced
by a default one.  Requests are checked by a third rule.  The three agree: a request without
defects gets a row for each of its names, in their order, and nothing stands on the card yet.

Pars are bounded, but the number of holes is not, and totals are kept in words.  So the par
total of the card is the sum of the pars exactly when that sum fits into a word.
-/

namespace Scorekeeper

open Service Text

/-- The row at a place of a card that nobody has played on. -/
structure Player.IsFresh (player : Player) (place holes : Nat) (name : String) : Prop where
  number : player.number.toNat = place + 1
  name : player.name = name
  scores : player.scores.map (fun field => (field.value, field.qualifiers, field.rank)) =
    List.replicate holes (0, .empty, some .unranked)
  total : player.total.value = 0 ∧ player.total.qualifiers = .empty

/-- The name that the row at a place is to have; a card has a row also when no name is given. -/
def Service.CreateCard.nameAt (request : CreateCard) (place : Nat) : String :=
  match request.playerNames[place]? with
  | some name => trim name
  | none => "Player 1"

/-- The text that leads the ids of the cards of a userspace. -/
def idPrefix (space : Option UserspaceId) : String :=
  match space with
  | some space => space.text ++ "-"
  | none => ""

namespace Card

/-- A card as a request asks for it, with nothing entered. -/
structure IsAsked (card : Card) (request : CreateCard) (course : Course)
    (space : Option UserspaceId) (draw : Draw) : Prop where
  onCourse : card.course = course
  pars : card.parValues = course.pars
  /-- A total is a word, and the sum of the pars need not fit into one. -/
  parTotal : card.parTotal.value.toNat = course.parSum % UInt32.size
  exact_iff : card.parTotal.value.toNat = course.parSum ↔ course.parSum < UInt32.size
  exact_of_le : course.holes ≤ holeLimit → card.parTotal.value.toNat = course.parSum
  size : card.players.length = max 1 request.playerNames.length
  row : ∀ (place : Nat) (player : Player), card.players[place]? = some player →
    player.IsFresh place course.holes (request.nameAt place)
  notes : card.notes = ""
  id : card.id.text = idPrefix space ++ draw.text
  parses : ScorecardId.parse card.id.text = .ok card.id

/-! ## Rows one after the other -/

variable {card : Card} {names : List String}

/-- The rows of a line-up: one for each name, or a single one without a name. -/
def rowNames : List String → List (Option String)
  | [] => [none]
  | names => names.map some

/-- New rows behind `count` others. -/
def newRows (holes count : Nat) (names : List (Option String)) : List Player :=
  names.mapIdx fun place name => .new (UInt32.ofNat (count + place + 1)) name holes

theorem newRows_cons (holes count : Nat) (name : Option String) (names : List (Option String)) :
    newRows holes count (name :: names) =
      .new (UInt32.ofNat (count + 1)) name holes :: newRows holes (count + 1) names := by
  rw [newRows, List.mapIdx_cons, newRows]
  congr 2
  funext place name
  rw [Nat.add_right_comm count 1 place, Nat.add_assoc count place 1]

/-- Rows that are added get the numbers that follow those of the rows before. -/
theorem foldl_addPlayer (hnumbered : AreNumbered card.players)
    (hroom : card.players.length + names.length < UInt32.size) :
    names.foldl (fun card name => (card.addPlayer (some name)).2) card =
      { card with players :=
          card.players ++ newRows card.holes card.players.length (names.map some) } := by
  induction names generalizing card with
  | nil => simp [newRows]
  | cons name names ih =>
      rw [List.length_cons] at hroom
      have hnext := hnumbered.nextNumber_eq (by omega)
      have hadded : (card.addPlayer (some name)).2 =
          { card with players := card.players ++
              [.new (UInt32.ofNat (card.players.length + 1)) (some name) card.holes] } := by
        rw [addPlayer, hnext]
      rw [List.foldl_cons, hadded, ih]
      · simp [newRows_cons, holes]
      · exact hnumbered.append fun _ => rfl
      · rw [List.length_append, List.length_singleton]
        omega

/-- The first name of a request gives the row of a new card the name that a new row of that name
would have. -/
theorem rename_first (card : Card) {first : String} (hfirst : trim first ≠ "") :
    rename { card with players := [.new 1 none card.holes] } 1 first =
      (.ok (), { card with players := [.new 1 (some first) card.holes] }) := by
  have hnamed : Player.new 1 (some first) card.holes =
      { Player.new 1 none card.holes with name := trim first } := by
    rw [Player.new, Player.chosenName_eq, if_neg hfirst]
    rfl
  have hrenamed : (Player.new 1 none card.holes).rename first =
      .ok (Player.new 1 (some first) card.holes) := by
    rw [hnamed, Player.rename, if_neg (by simpa using hfirst)]
  have hnumber : (Player.new 1 none card.holes).number = 1 := rfl
  rw [rename, editPlayer, editRow, if_pos hnumber, hrenamed]
  rfl

/-- Valid names are put on a new card in their order. -/
theorem lineUp_eq (card : Card) (hnames : CreateCard.nameDefects names = []) :
    lineUp { card with players := [.new 1 none card.holes] } names =
      .ok { card with players := newRows card.holes 0 (rowNames names) } := by
  cases names with
  | nil => rfl
  | cons first rest =>
      obtain ⟨hcount, hfit⟩ := nameDefects_eq_nil_iff.mp hnames
      have hfirst := (hfit first List.mem_cons_self).1
      have hroom : 1 + rest.length < UInt32.size := by
        rw [List.length_cons, maxStartingPlayers] at hcount
        have hsize : 17 < UInt32.size := by decide
        omega
      have hnumbered :
          AreNumbered (players { card with players := [.new 1 (some first) card.holes] }) :=
        areNumbered_new (some first) card.holes
      have hrows : newRows card.holes 0 (rowNames (first :: rest)) =
          .new 1 (some first) card.holes :: newRows card.holes 1 (rest.map some) :=
        newRows_cons card.holes 0 (some first) (rest.map some)
      rw [lineUp, rename_first card hfirst]
      dsimp only
      rw [foldl_addPlayer hnumbered hroom, hrows]
      rfl

variable {request : CreateCard} {course : Course} {space : Option UserspaceId} {draw : Draw}

theorem startCard_eq (henabled : course.enabled = true)
    (hnames : CreateCard.nameDefects request.playerNames = []) :
    startCard request course space draw =
      .ok { blank (.issue space draw) course course.pars "" with
        players := newRows course.holes 0 (rowNames request.playerNames) } := by
  have hholes : (blank (.issue space draw) course course.pars "").holes = course.holes := by
    simp [blank_eq, holes, parFields, Course.holes]
  have hlineUp := lineUp_eq (blank (.issue space draw) course course.pars "") hnames
  rw [hholes] at hlineUp
  exact bind_eq_ok_iff.mpr ⟨_, if_pos henabled, hlineUp⟩

theorem length_rowNames (names : List String) : (rowNames names).length = max 1 names.length := by
  cases names with
  | nil => rfl
  | cons first rest => simp [rowNames]

/-- Rows get the names that were given for them, trimmed. -/
theorem chosenName_rowNames {place : Nat} {name : Option String}
    (hnames : CreateCard.nameDefects request.playerNames = [])
    (hname : (rowNames request.playerNames)[place]? = some name) :
    Player.chosenName (UInt32.ofNat (place + 1)) name = request.nameAt place := by
  rw [CreateCard.nameAt]
  cases hplayers : request.playerNames with
  | nil =>
      rw [hplayers, rowNames, List.getElem?_singleton] at hname
      split at hname
      · next hfirst =>
        cases hname
        cases hfirst
        rfl
      · cases hname
  | cons first rest =>
      rw [hplayers] at hnames
      rw [hplayers, rowNames, List.getElem?_map, Option.map_eq_some_iff] at hname
      · obtain ⟨given, hgiven, rfl⟩ := hname
        have hfit := (nameDefects_eq_nil_iff.mp hnames).2 given (List.mem_of_getElem? hgiven)
        rw [hgiven, Player.chosenName_eq, if_neg hfit.1]
      · exact List.cons_ne_nil first rest

theorem isFresh_newRows {place : Nat} {player : Player}
    (hnames : CreateCard.nameDefects request.playerNames = []) {holes : Nat}
    (hfound : (newRows holes 0 (rowNames request.playerNames))[place]? = some player) :
    player.IsFresh place holes (request.nameAt place) := by
  rw [newRows, List.getElem?_mapIdx, Option.map_eq_some_iff] at hfound
  obtain ⟨name, hname, rfl⟩ := hfound
  rw [Nat.zero_add]
  refine ⟨?_, chosenName_rowNames hnames hname, ?_, rfl, rfl⟩
  · have hcount := (nameDefects_eq_nil_iff.mp hnames).1
    have hplace : place < (rowNames request.playerNames).length :=
      (List.getElem?_eq_some_iff.mp hname).1
    have hsize : 17 < UInt32.size := by decide
    rw [length_rowNames] at hplace
    rw [maxStartingPlayers] at hcount
    exact UInt32.toNat_ofNat_of_lt' (by omega)
  · rw [Player.new, List.eq_replicate_iff]
    simp [Field.score]

theorem text_issue (space : Option UserspaceId) (draw : Draw) :
    (ScorecardId.issue space draw).text = idPrefix space ++ draw.text := by
  apply String.toList_inj.mp
  cases space with
  | none => simp [ScorecardId.issue, ScorecardId.issueChars, idPrefix, Draw.text]
  | some space =>
      simp [ScorecardId.issue, ScorecardId.issueChars, idPrefix, Draw.text, UserspaceId.text]

/-- A request without defects for a course on which cards can be started gets its card. -/
theorem exists_isAsked (henabled : course.enabled = true)
    (hnames : CreateCard.nameDefects request.playerNames = []) (space : Option UserspaceId)
    (draw : Draw) : ∃ card, startCard request course space draw = .ok card ∧
      card.IsAsked request course space draw := by
  have htotal : (Field.sum (parFields course.pars)).toNat = course.parSum % UInt32.size := by
    rw [Field.sum_eq_foldr, value_parFields, toNat_foldr_add_mod, Course.parSum]
  have hexact : (Field.sum (parFields course.pars)).toNat = course.parSum ↔
      course.parSum < UInt32.size := by
    rw [htotal, Nat.mod_eq_iff_lt (by decide)]
  refine ⟨_, startCard_eq henabled hnames, ?_⟩
  exact
    { onCourse := rfl
      pars := value_parFields course.pars
      parTotal := htotal
      exact_iff := hexact
      exact_of_le := fun hholes => hexact.mpr (Course.parSum_lt_size hholes)
      size := by rw [newRows, List.length_mapIdx, length_rowNames]
      row := fun place player hfound => isFresh_newRows hnames hfound
      notes := rfl
      id := text_issue space draw
      parses := ScorecardId.parse_text _ }

end Card

namespace Service.State

variable {state : State} {outside : Outside} {creation : HttpRequest} {request : CreateCard}
  {course : Course}

/-! ## Requests for a card -/

/-- What becomes of a request for a card: the first course that has the id in it decides. -/
structure Creates (state : State) (outside : Outside) (creation : HttpRequest)
    (request : CreateCard) : Prop where
  created : ∀ before course after, state.cells.courses = before ++ course :: after →
    course.id = trim request.courseId → (∀ other ∈ before, other.id ≠ trim request.courseId) →
    course.enabled = true → (state.respond outside creation).1.status = 200 ∧
      ∃ card, (state.respond outside creation).2 = { state with card := some card } ∧
        card.IsAsked request course state.cells.userspace outside.draw
  closed : ∀ before course after, state.cells.courses = before ++ course :: after →
    course.id = trim request.courseId → (∀ other ∈ before, other.id ≠ trim request.courseId) →
    course.enabled = false → (state.respond outside creation).1.status = 409 ∧
      (state.respond outside creation).2 = state
  missing : (∀ course ∈ state.cells.courses, course.id ≠ trim request.courseId) →
    (state.respond outside creation).1.status = 404 ∧ (state.respond outside creation).2 = state
  neverBlank : (state.perform outside (.createCard request)).1 ≠ .error (.card .blankName)

/-- How a request for a card ends, by the course that is found. -/
theorem perform_createCard (hfit : request.defects = []) :
    state.perform outside (.createCard request) =
      match findCourse state.cells.courses (trim request.courseId) with
      | none => (.error (.unknownCourse (trim request.courseId)), state)
      | some course =>
        match startCard request course state.cells.userspace outside.draw with
        | .error error => (.error (.card error), state)
        | .ok card =>
          (.ok (.value 200 (state.cardView card)), { state with card := some card }) := by
  rw [perform, hfit, checked, createCard, chooseCourse]
  cases findCourse state.cells.courses (trim request.courseId) with
  | none => rfl
  | some course =>
      dsimp only
      cases startCard request course state.cells.userspace outside.draw <;> rfl

theorem findCourse_eq_none_iff {courses : List Course} {id : String} :
    findCourse courses id = none ↔ ∀ course ∈ courses, course.id ≠ id := by
  simp [findCourse]

theorem startCard_of_closed (hclosed : course.enabled = false) (space : Option UserspaceId)
    (draw : Draw) : startCard request course space draw = .error (.disabledCourse course.id) := by
  rw [startCard, Card.start, hclosed, if_neg Bool.false_ne_true]
  rfl

/-- A request without defects gets its card on an open course that is found. -/
theorem respond_of_found (state : State) (outside : Outside)
    (haction : creation.action = .ok (.createCard request)) (hfit : request.defects = [])
    (hfound : findCourse state.cells.courses (trim request.courseId) = some course)
    (henabled : course.enabled = true) :
    (state.respond outside creation).1.status = 200 ∧
      ∃ card, (state.respond outside creation).2 = { state with card := some card } ∧
        card.IsAsked request course state.cells.userspace outside.draw := by
  obtain ⟨hstatus, hstate⟩ := state.respond_of_action outside haction
  obtain ⟨card, hstarted, hasked⟩ := Card.exists_isAsked henabled
    (createCard_defects_eq_nil_iff.mp hfit).2 state.cells.userspace outside.draw
  rw [perform_createCard hfit] at hstatus hstate
  simp only [hfound, hstarted] at hstatus hstate
  exact ⟨hstatus, card, hstate, hasked⟩

/-- A request for a card without defects is granted when it leads to an open course, and the
card is then as it asks for; the names in it are never in the way. -/
theorem creates_of_fit (state : State) (outside : Outside)
    (haction : creation.action = .ok (.createCard request)) (hfit : request.defects = []) :
    state.Creates outside creation request := by
  have hnames := (createCard_defects_eq_nil_iff.mp hfit).2
  obtain ⟨hstatus, hstate⟩ := state.respond_of_action outside haction
  rw [perform_createCard hfit] at hstatus hstate
  refine ⟨?_, ?_, ?_, ?_⟩
  · intro before course after hsplit hid hbefore henabled
    exact state.respond_of_found outside haction hfit
      (findCourse_eq_some_iff.mpr ⟨hid, before, after, hsplit, hbefore⟩) henabled
  · intro before course after hsplit hid hbefore hclosed
    have hfound := findCourse_eq_some_iff.mpr ⟨hid, before, after, hsplit, hbefore⟩
    simp only [hfound, startCard_of_closed hclosed] at hstatus hstate
    exact ⟨hstatus, hstate⟩
  · intro hmissing
    rw [findCourse_eq_none_iff.mpr hmissing] at hstatus hstate
    exact ⟨hstatus, hstate⟩
  · rw [perform_createCard hfit]
    cases findCourse state.cells.courses (trim request.courseId) with
    | none => nofun
    | some course =>
        cases henabled : course.enabled with
        | false =>
            dsimp only
            rw [startCard_of_closed henabled]
            nofun
        | true =>
            dsimp only
            rw [Card.startCard_eq henabled hnames]
            nofun

/-- Two players, with blanks around the names and the id. -/
def pairOnDunes : CreateCard where
  courseId := " dunes"
  playerNames := [" Ann ", "Bo"]

def askPair : HttpRequest :=
  requestWith "POST" "/scorecards" CreateCard.codec pairOnDunes

theorem creates_of_fit_pairOnDunes :
    askPair.action = .ok (.createCard pairOnDunes) ∧ pairOnDunes.defects = [] ∧
      openedOdd.2.Creates oddStore askPair pairOnDunes ∧
      ∃ card, (openedOdd.2.respond oddStore askPair).2.card = some card ∧
        card.IsAsked pairOnDunes (oneHole "dunes" 5) openedOdd.2.cells.userspace oddStore.draw ∧
        card.players.map Player.name = ["Ann", "Bo"] := by
  have haction : askPair.action = .ok (.createCard pairOnDunes) := by decide +kernel
  have hfit : pairOnDunes.defects = [] := by decide
  have hcreates := creates_of_fit openedOdd.2 oddStore haction hfit
  obtain ⟨-, card, hstate, hasked⟩ := hcreates.created (oddCourses.take 4) (oneHole "dunes" 5) []
    courses_openedOdd (by decide) (by decide) rfl
  have hcard : (openedOdd.2.respond oddStore askPair).2.card = some card := by rw [hstate]
  have hnames : (openedOdd.2.respond oddStore askPair).2.card.map
      (fun card => card.players.map Player.name) = some ["Ann", "Bo"] := by
    decide +kernel
  rw [hcard] at hnames
  exact ⟨haction, hfit, hcreates, card, hcard, hasked, Option.some.inj hnames⟩

/-! ## Sums that are no words -/

/-- The promise: a card that is started on a course of the catalog has the sum of the pars of the
course for its total. -/
def SumsPars (state : State) : Prop :=
  ∀ (outside : Outside) (creation : HttpRequest) (request : CreateCard) (course : Course)
    (card : Card), creation.action = .ok (.createCard request) → request.defects = [] →
      findCourse state.cells.courses (trim request.courseId) = some course →
      course.enabled = true → (state.respond outside creation).2.card = some card →
      card.parTotal.value.toNat = course.parSum

/-- A store with a catalog of these courses for every userspace. -/
def storeWith (courses : List Course) : Outside :=
  { courseStore with
    download := fun _ =>
      .ok (some (CatalogDocument.codec.encode ⟨courses.map Course.document⟩)) }

def openedWith (courses : List Course) : State :=
  ((State.new .default).respond (storeWith courses) openBirdie).2

theorem courses_openedWith (courses : List Course) :
    (openedWith courses).cells.courses = courses := by
  have haction : openBirdie.action = .ok (.openUserspace ⟨"birdie"⟩) := by decide +kernel
  have hphrase : ∃ c ∈ "birdie".toList, isBlank c = false := ⟨'b', by decide, rfl⟩
  obtain ⟨space, hspace⟩ := UserspaceId.exists_ofPassphrase_iff.mpr hphrase
  have hfit : (OpenUserspace.mk "birdie").defects = [] := by decide
  have hstate := ((State.new .default).respond_of_action (storeWith courses) haction).2
  rw [openedWith, hstate, perform, hfit, checked]
  simp only [openUserspace, hspace, storeWith, readCatalog_encode courses]
  rfl

theorem reached_openedWith (courses : List Course) : (openedWith courses).Reached := by
  rw [openedWith]
  exact (Reached.fresh .default .temporary).answered _ _

/-- A course with `holes + 1` holes, all of the highest par. -/
def steepCourse (holes : Nat) : Course where
  id := "steep"
  labels := .replicate (holes + 1) "home"
  pars := .replicate (holes + 1) 999
  enabled := true
  labels_ne_nil := by simp
  length_eq := by simp
  inRange := by
    intro par hmem
    rw [List.eq_of_mem_replicate hmem]
    decide

theorem parSum_steepCourse (holes : Nat) : (steepCourse holes).parSum = (holes + 1) * 999 := by
  simp [Course.parSum, steepCourse]

theorem action_askSteep : (askCard "steep").action = .ok (.createCard ⟨"steep", []⟩) := by
  decide +kernel

theorem findCourse_steepCourse (holes : Nat) :
    findCourse (openedWith [steepCourse holes]).cells.courses (trim "steep") =
      some (steepCourse holes) := by
  have htrim : trim "steep" = (steepCourse holes).id := by
    change trim "steep" = "steep"
    decide
  rw [courses_openedWith, htrim, findCourse, List.find?_cons_of_pos (by simp)]

/-- With one hole more than is safe, the highest pars sum up to a number that is no word, and the
total of the card is what is left of it. -/
theorem not_sumsPars_steep :
    (openedWith [steepCourse holeLimit]).Reached ∧
      (∃ card, ((openedWith [steepCourse holeLimit]).respond courseStore
          (askCard "steep")).2.card = some card ∧
        card.course = steepCourse holeLimit ∧ card.course.parSum = 4294967733 ∧
        card.parTotal.value = 437) ∧
      ¬(openedWith [steepCourse holeLimit]).SumsPars := by
  have hfit : (CreateCard.mk "steep" []).defects = [] := by decide
  have hfound := findCourse_steepCourse holeLimit
  have hsum : (steepCourse holeLimit).parSum = 4294967733 := by
    rw [parSum_steepCourse]
    decide
  obtain ⟨-, card, hstate, hasked⟩ := (openedWith [steepCourse holeLimit]).respond_of_found
    courseStore action_askSteep hfit hfound rfl
  have hcard : ((openedWith [steepCourse holeLimit]).respond courseStore
      (askCard "steep")).2.card = some card := by rw [hstate]
  have hcourse := hasked.onCourse
  have htotal := hasked.parTotal
  rw [hsum] at htotal
  have hleft : card.parTotal.value = 437 := UInt32.toNat_inj.mp htotal
  refine ⟨reached_openedWith _, ⟨card, hcard, hcourse, hcourse ▸ hsum, hleft⟩, fun hpromise => ?_⟩
  have hexact := hpromise courseStore (askCard "steep") ⟨"steep", []⟩ _ card action_askSteep
    hfit hfound rfl hcard
  rw [hsum, hleft] at hexact
  exact absurd hexact (by decide)

end Service.State

end Scorekeeper
