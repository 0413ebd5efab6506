import Scorekeeper.Proofs.Card.Derived

/-!
# Defects of documents

A document describes a card when it passes a list of tests, and what is reported for one
that does not is the first test that fails.  The list is written down in the order in
which the defects are to be named; that making a card goes through it test by test, and
through nothing else, is what is proved.
-/

namespace Scorekeeper

/-- A test, and the error that is reported when it fails. -/
structure Check where
  passes : Bool
  error : CardError

namespace Check

/-- A field may hold the value. -/
def value (word : UInt32) : Check :=
  ⟨decide (word.toNat ≤ maxValue), .invalidValue word.toNat⟩

def length (list : HoleList) (expected actual : Nat) : Check :=
  ⟨decide (actual = expected), .lengthMismatch list expected actual⟩

/-- The row at `place` has the number of its place; numbers begin with one. -/
def number (place : Nat) (actual : UInt32) : Check :=
  ⟨decide (actual.toNat = place + 1), .playerNumbering (UInt32.ofNat (place + 1)) actual⟩

def error? (check : Check) : Option CardError :=
  if check.passes then none else some check.error

/-- The error of the first of `checks` that fails. -/
def IsFirst (checks : List Check) (error : CardError) : Prop :=
  ∃ (earlier : List Check) (check : Check) (later : List Check),
    checks = earlier ++ check :: later ∧ (∀ other ∈ earlier, other.passes = true) ∧
      check.passes = false ∧ check.error = error

variable {checks : List Check} {check : Check} {error : CardError}

theorem error?_eq_none_iff : check.error? = none ↔ check.passes = true := by
  rw [error?]
  cases check.passes <;> simp

theorem error?_eq_some_iff :
    check.error? = some error ↔ check.passes = false ∧ check.error = error := by
  rw [error?]
  cases check.passes <;> simp

theorem findSome?_error?_cons :
    (check :: checks).findSome? error? = check.error?.or (checks.findSome? error?) := by
  rw [List.findSome?_cons]
  cases check.error? <;> rfl

theorem findSome?_error?_eq_none_iff :
    checks.findSome? error? = none ↔ ∀ check ∈ checks, check.passes = true := by
  simp only [List.findSome?_eq_none_iff, error?_eq_none_iff]

theorem findSome?_error?_eq_some_iff :
    checks.findSome? error? = some error ↔ IsFirst checks error := by
  simp only [List.findSome?_eq_some_iff, error?_eq_none_iff, error?_eq_some_iff]
  constructor
  · rintro ⟨earlier, check, later, hchecks, ⟨hfails, herror⟩, hearlier⟩
    exact ⟨earlier, check, later, hchecks, hearlier, hfails, herror⟩
  · rintro ⟨earlier, check, later, hchecks, hearlier, hfails, herror⟩
    exact ⟨earlier, check, later, hchecks, ⟨hfails, herror⟩, hearlier⟩

end Check

open Check

/-! ## The tests in their order -/

def CourseDocument.checks (doc : CourseDocument) : List Check :=
  [⟨!doc.holeNumbers.isEmpty, .emptyCourse doc.courseId⟩,
    .length .coursePars doc.holeNumbers.length doc.holePars.length] ++
  doc.holePars.map .value

/-- The tests of a row on a card with `holes` holes. -/
def PlayerDocument.checks (holes : Nat) (doc : PlayerDocument) : List Check :=
  .length .playerScores holes doc.holeScores.length ::
    doc.holeScores.map fun score => .value score.value

/-- The tests of what is to line up with a course of `holes` holes. -/
def ScorecardDocument.bodyChecks (holes : Nat) (doc : ScorecardDocument) : List Check :=
  [.length .holeNumbers holes doc.holeNumbers.length,
    .length .holePars holes doc.holePars.length, ⟨!doc.players.isEmpty, .noPlayers⟩] ++
  doc.holePars.map .value ++
  (doc.players.mapIdx fun place row => .number place row.playerNumber) ++
  doc.players.flatMap (PlayerDocument.checks doc.holePars.length)

def ScorecardDocument.checks (doc : ScorecardDocument) : List Check :=
  ⟨ScorecardId.isId doc.scorecardId.toList, .invalidId doc.scorecardId⟩ ::
    (doc.course.checks ++ doc.bodyChecks doc.course.holePars.length)

/-! ## What each step tests -/

theorem errorOf_checkValue (word : UInt32) :
    errorOf (checkValue word.toNat) = (Check.value word).error? := by
  rw [checkValue, Check.value, error?]
  by_cases hword : word.toNat ≤ maxValue
  · rw [if_pos ⟨Int.natCast_nonneg _, Int.ofNat_le.mpr hword⟩, decide_eq_true hword]
    rfl
  · rw [if_neg fun hrange => hword (Int.ofNat_le.mp hrange.2), decide_eq_false hword]
    rfl

theorem errorOf_checkLength (list : HoleList) (expected actual : Nat) :
    errorOf (Card.checkLength list expected actual) =
      (Check.length list expected actual).error? := by
  rw [Card.checkLength, Check.length, error?]
  by_cases hsame : actual = expected
  · rw [if_pos hsame, decide_eq_true hsame]
    rfl
  · rw [if_neg hsame, decide_eq_false hsame]
    rfl

theorem errorOf_parse (raw : String) :
    errorOf (ScorecardId.parse raw) =
      (Check.mk (ScorecardId.isId raw.toList) (.invalidId raw)).error? := by
  rw [ScorecardId.parse]
  by_cases hform : ScorecardId.isId raw.toList = true
  · rw [dif_pos hform, error?, if_pos hform]
    rfl
  · rw [dif_neg hform, error?, if_neg hform]
    rfl

theorem findSome?_value (words : List UInt32) :
    (words.map Check.value).findSome? error? =
      (words.find? fun word => decide (maxValue < word.toNat)).map fun word =>
        .invalidValue word.toNat := by
  induction words with
  | nil => rfl
  | cons word words ih =>
      rw [List.map_cons, List.findSome?_cons, List.find?_cons, Check.value, error?, ih]
      by_cases hword : word.toNat ≤ maxValue
      · simp [hword, Nat.not_lt.mpr hword]
      · simp [hword, Nat.not_le.mp hword]

theorem errorOf_course (doc : CourseDocument) :
    errorOf (Course.ofDocument doc) = doc.checks.findSome? error? := by
  rw [Course.ofDocument, Course.make, CourseDocument.checks, List.findSome?_append,
    findSome?_value]
  by_cases hlabels : doc.holeNumbers = []
  · rw [dif_pos hlabels]
    simp [hlabels, errorOf, error?]
  · rw [dif_neg hlabels]
    by_cases hlength : doc.holeNumbers.length = doc.holePars.length
    · rw [dif_neg (not_not_intro hlength)]
      split
      · next par hpar => simp [hlabels, hlength, hpar, errorOf, error?, Check.length]
      · next hpars => simp [hlabels, hlength, hpars, errorOf, error?, Check.length]
    · rw [dif_pos hlength]
      simp [hlabels, Ne.symm hlength, errorOf, error?, Check.length]

theorem errorOf_checkNumbering {docs : List PlayerDocument} (place : Nat)
    (hroom : place + docs.length < UInt32.size) :
    errorOf (Card.checkNumbering (UInt32.ofNat (place + 1)) docs) =
      (docs.mapIdx fun offset row => Check.number (place + offset) row.playerNumber).findSome?
        error? := by
  induction docs generalizing place with
  | nil => rfl
  | cons doc docs ih =>
      rw [List.length_cons] at hroom
      have hword : (UInt32.ofNat (place + 1)).toNat = place + 1 :=
        UInt32.toNat_ofNat_of_lt' (by omega)
      rw [Card.checkNumbering, List.mapIdx_cons, List.findSome?_cons, Check.number, error?]
      by_cases hnumber : doc.playerNumber = UInt32.ofNat (place + 1)
      · have hnat : doc.playerNumber.toNat = place + 1 := by rw [hnumber, hword]
        rw [if_pos hnumber, decide_eq_true hnat, ← UInt32.ofNat_one, ← UInt32.ofNat_add,
          ih (place + 1) (by omega)]
        simp only [Nat.add_right_comm, Nat.add_assoc]
        rfl
      · have hnat : doc.playerNumber.toNat ≠ place + 1 := by
          rw [← hword]
          exact fun heq => hnumber (UInt32.toNat_inj.mp heq)
        rw [if_neg hnumber, decide_eq_false hnat]
        rfl

theorem errorOf_setScore {player : Player} {hole : Nat} (hhole : hole < player.scores.length)
    (word : UInt32) (qualifiers : String) (par : UInt32) :
    errorOf (player.setScore hole word.toNat qualifiers par) = (Check.value word).error? := by
  rw [← errorOf_checkValue, Player.setScore]
  cases checkValue word.toNat with
  | error error => rfl
  | ok value =>
      simp only [List.getElem?_eq_getElem hhole]
      rfl

/-- Entering scores that are as many as the pars tests the values and nothing else. -/
theorem errorOf_enterScores {docs : List ScoreDocument} {pars : List UInt32} {player : Player}
    {hole : Nat} (hpars : docs.length = pars.length)
    (hroom : hole + docs.length ≤ player.scores.length) :
    errorOf (player.enterScores hole docs pars) =
      (docs.map fun score => Check.value score.value).findSome? error? := by
  induction docs generalizing player hole pars with
  | nil => rfl
  | cons doc docs ih =>
      cases pars with
      | nil => cases hpars
      | cons par pars =>
          rw [List.length_cons] at hroom
          have hrest (entered : Rank × Player)
              (hset : player.setScore hole doc.value.toNat doc.qualifiers par = .ok entered) :
              errorOf (entered.2.enterScores (hole + 1) docs pars) =
                (docs.map fun score => Check.value score.value).findSome? error? := by
            obtain ⟨_, _, -, -, -, -, -, hscores⟩ := Player.setScore_cases hset
            apply ih (Nat.succ.inj hpars)
            rw [hscores, List.length_set]
            omega
          rw [Player.enterScores, errorOf_bind hrest, errorOf_setScore (by omega), List.map_cons,
            List.findSome?_cons]
          cases (Check.value doc.value).error? <;> rfl

theorem errorOf_row (doc : PlayerDocument) (pars : List UInt32) :
    errorOf (Player.ofDocument doc pars) = (doc.checks pars.length).findSome? error? := by
  rw [Player.ofDocument, PlayerDocument.checks, List.findSome?_cons, Check.length, error?]
  by_cases hlength : doc.holeScores.length = pars.length
  · rw [if_neg (not_not_intro hlength), decide_eq_true hlength]
    apply errorOf_enterScores hlength
    simp [Player.new, hlength]
  · rw [if_pos hlength, decide_eq_false hlength]
    rfl

/-- Making a card from a document goes through the tests in their order. -/
theorem errorOf_ofDocument (doc : ScorecardDocument)
    (hroom : doc.players.length < UInt32.size) :
    errorOf (Card.ofDocument doc) = doc.checks.findSome? error? := by
  have hnumbering : errorOf (Card.checkNumbering 1 doc.players) =
      (doc.players.mapIdx fun place row => Check.number place row.playerNumber).findSome?
        error? := by
    simpa using errorOf_checkNumbering 0 (by simpa using hroom)
  have hplayers : (if doc.players.isEmpty = true then some CardError.noPlayers else none) =
      (Check.mk (!doc.players.isEmpty) .noPlayers).error? := by
    cases doc.players <;> rfl
  have hvalues : errorOf (doc.holePars.forM fun par => discard (checkValue par.toNat)) =
      (doc.holePars.map Check.value).findSome? error? := by
    simp only [errorOf_forM, errorOf_discard, errorOf_checkValue, List.findSome?_map,
      Function.comp_def]
  have hrows : errorOf (doc.players.mapM fun row => Player.ofDocument row doc.holePars) =
      (doc.players.flatMap (PlayerDocument.checks doc.holePars.length)).findSome? error? := by
    simp only [errorOf_mapM, errorOf_row, findSome?_flatMap]
  calc
    errorOf (Card.ofDocument doc) =
        (errorOf (ScorecardId.parse doc.scorecardId)).or
          ((errorOf (Course.ofDocument doc.course)).or
            ((doc.bodyChecks doc.course.holePars.length).findSome? error?)) := by
      refine errorOf_bind fun id _ => errorOf_bind fun course hmade => ?_
      have hholes : course.holes = doc.course.holePars.length := by
        rw [← Card.document_course hmade]
        rfl
      simp only [hholes, errorOf_bind_unit, errorOf_throwIf, errorOf_bind_pure, hnumbering,
        hplayers, hvalues, hrows, errorOf_checkLength, ScorecardDocument.bodyChecks,
        List.findSome?_append, findSome?_error?_cons, List.findSome?_nil, Option.or_none,
        Option.or_assoc]
    _ = doc.checks.findSome? error? := by
      rw [errorOf_parse, errorOf_course, ScorecardDocument.checks, findSome?_error?_cons,
        List.findSome?_append]

/-! ## Documents without a defect -/

/-- What a document has to be for a card to be made from it. -/
structure ScorecardDocument.IsWellFormed (doc : ScorecardDocument) : Prop where
  id : ∃ id : ScorecardId, id.text = doc.scorecardId
  holes_pos : 0 < doc.course.holeNumbers.length
  coursePars : doc.course.holePars.length = doc.course.holeNumbers.length
  coursePars_le : ∀ par ∈ doc.course.holePars, par.toNat ≤ maxValue
  holeNumbers : doc.holeNumbers.length = doc.course.holeNumbers.length
  holePars : doc.holePars.length = doc.course.holeNumbers.length
  players_ne : doc.players ≠ []
  holePars_le : ∀ par ∈ doc.holePars, par.toNat ≤ maxValue
  numbered : ∀ (place : Nat) (row : PlayerDocument), doc.players[place]? = some row →
    row.playerNumber.toNat = place + 1
  scores : ∀ row ∈ doc.players, row.holeScores.length = doc.course.holeNumbers.length
  scores_le : ∀ row ∈ doc.players, ∀ score ∈ row.holeScores, score.value.toNat ≤ maxValue

theorem forall_values_iff {words : List UInt32} :
    (∀ check ∈ words.map Check.value, check.passes = true) ↔
      ∀ word ∈ words, word.toNat ≤ maxValue := by
  simp [Check.value]

theorem PlayerDocument.forall_checks_iff {holes : Nat} {doc : PlayerDocument} :
    (∀ check ∈ doc.checks holes, check.passes = true) ↔
      doc.holeScores.length = holes ∧ ∀ score ∈ doc.holeScores, score.value.toNat ≤ maxValue := by
  simp [checks, Check.length, Check.value]

theorem forall_numbers_iff {docs : List PlayerDocument} :
    (∀ check ∈ docs.mapIdx fun place row => Check.number place row.playerNumber,
        check.passes = true) ↔
      ∀ (place : Nat) (row : PlayerDocument), docs[place]? = some row →
        row.playerNumber.toNat = place + 1 := by
  simp only [List.mem_mapIdx, Check.number]
  constructor
  · intro hall place row hrow
    obtain ⟨hlt, rfl⟩ := List.getElem?_eq_some_iff.mp hrow
    simpa using hall _ ⟨place, hlt, rfl⟩
  · rintro hall check ⟨place, hlt, rfl⟩
    simpa using hall place _ (List.getElem?_eq_getElem hlt)

theorem ScorecardDocument.forall_checks_iff (doc : ScorecardDocument) :
    (∀ check ∈ doc.checks, check.passes = true) ↔ doc.IsWellFormed := by
  simp only [checks, bodyChecks, CourseDocument.checks, List.forall_mem_cons,
    List.forall_mem_append, List.forall_mem_flatMap, forall_values_iff, forall_numbers_iff,
    PlayerDocument.forall_checks_iff, Check.length, decide_eq_true_eq, Bool.not_eq_true',
    List.isEmpty_eq_false_iff, List.not_mem_nil, false_implies, implies_true, and_true]
  constructor
  · rintro ⟨hid, ⟨⟨hlabels, hpars⟩, hcourse⟩, ⟨⟨⟨hnumbers, hcount, hplayers⟩, hvalues⟩, hnumbered⟩,
      hrows⟩
    exact
      { id := ⟨⟨doc.scorecardId, hid⟩, rfl⟩
        holes_pos := List.length_pos_iff.mpr hlabels
        coursePars := hpars
        coursePars_le := hcourse
        holeNumbers := hnumbers.trans hpars
        holePars := hcount.trans hpars
        players_ne := hplayers
        holePars_le := hvalues
        numbered := hnumbered
        scores := fun row hrow => (hrows row hrow).1.trans (hcount.trans hpars)
        scores_le := fun row hrow => (hrows row hrow).2 }
  · intro hdoc
    obtain ⟨id, hid⟩ := hdoc.id
    have hcount := hdoc.holePars.trans hdoc.coursePars.symm
    refine ⟨hid ▸ id.wellFormed, ⟨⟨List.length_pos_iff.mp hdoc.holes_pos, hdoc.coursePars⟩,
      hdoc.coursePars_le⟩, ⟨⟨⟨hdoc.holeNumbers.trans hdoc.coursePars.symm, hcount,
      hdoc.players_ne⟩, hdoc.holePars_le⟩, hdoc.numbered⟩, fun row hrow => ⟨?_, ?_⟩⟩
    · exact (hdoc.scores row hrow).trans hdoc.holePars.symm
    · exact hdoc.scores_le row hrow

namespace Card

/-- A card is made from a document that is well formed; otherwise the first test that the
document fails is reported. -/
theorem ofDocument_decides (doc : ScorecardDocument) (hroom : doc.players.length < UInt32.size) :
    ((∃ card, ofDocument doc = .ok card) ↔ doc.IsWellFormed) ∧
      ∀ error, ofDocument doc = .error error ↔ IsFirst doc.checks error := by
  have herror := errorOf_ofDocument doc hroom
  constructor
  · rw [← errorOf_eq_none_iff, herror, findSome?_error?_eq_none_iff, doc.forall_checks_iff]
  · intro error
    rw [← errorOf_eq_some_iff, herror, findSome?_error?_eq_some_iff]

/-- The second row has a wrong number, and before it there is a value that is too large. -/
def misnumbered : ScorecardDocument :=
  { openedRound.document with
    players := [⟨1, "Ann", [⟨1000, ""⟩, ⟨3, ""⟩], ⟨3, ""⟩, []⟩, ⟨3, "", [], ⟨0, ""⟩, []⟩] }

/-- All numbers are looked at before any score. -/
theorem ofDocument_decides_misnumbered :
    misnumbered.players.length < UInt32.size ∧
      ofDocument misnumbered = .error (.playerNumbering 2 3) := by
  have hroom : misnumbered.players.length < UInt32.size := by decide
  refine ⟨hroom, ((ofDocument_decides misnumbered hroom).2 _).mpr ?_⟩
  exact ⟨misnumbered.checks.take 11, .number 1 3, misnumbered.checks.drop 12, rfl, by decide, rfl,
    rfl⟩

end Card

end Scorekeeper
