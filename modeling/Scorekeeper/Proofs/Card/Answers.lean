import Scorekeeper.Proofs.Card.Roster

/-!
# What an edit answers

Every edit looks at its arguments in an order of its own: a score is refused for its hole
before its player and its value, a par for its value before its hole.  Here each answer is
given in full, with the card that it leaves behind.  Two invariants carry this: every row
has a score for each hole, so that ranking the rows cannot stop half way, and every score
keeps a rank, so that the rank answered is the rank kept.  Neither needs the holes to be
few.
-/

namespace Scorekeeper

open Text

namespace Player

/-- Every score of the row keeps a rank. -/
def IsRanked (player : Player) : Prop :=
  ∀ field ∈ player.scores, field.rank ≠ none

theorem rank_rerank_ne_none {field : Field} (hrank : field.rank ≠ none) (par : UInt32) :
    (field.rerank par).rank ≠ none := by
  rw [Field.rerank, Ne, Option.map_eq_none_iff]
  exact hrank

theorem rowLaw_isRanked (holes : Nat) : Card.RowLaw holes IsRanked where
  new := by
    intro number name field hmem
    obtain ⟨hole, -, rfl⟩ := List.mem_map.mp hmem
    exact Option.some_ne_none _
  setScore := by
    intro player changed hole value qualifiers par rank hranked hset
    obtain ⟨field, word, hfield, -, -, -, -, hscores⟩ := setScore_cases hset
    rw [IsRanked, hscores]
    apply forall_mem_set hranked
    apply rank_rerank_ne_none
    exact hranked field (List.mem_of_getElem? hfield)
  rename := by
    intro player changed name hranked hrename
    rw [(Card.rename_cases hrename).2]
    exact hranked
  updateTotal := fun hranked => hranked
  ranked := by
    intro player pars hranked _ field hmem
    obtain ⟨hole, hfield⟩ := List.mem_iff_getElem?.mp hmem
    rw [Player.ranked, List.getElem?_zipWith_eq_some] at hfield
    obtain ⟨old, par, hold, -, rfl⟩ := hfield
    exact rank_rerank_ne_none (hranked old (List.mem_of_getElem? hold)) par

variable {player : Player} {hole : Nat} {value : Int}

theorem setScore_of_invalid (hvalue : ¬(0 ≤ value ∧ value ≤ maxValue)) (qualifiers : String)
    (par : UInt32) : player.setScore hole value qualifiers par = .error (.invalidValue value) := by
  rw [setScore, checkValue, if_neg hvalue]

/-- A value that a field may hold, entered on a hole of a ranked row. -/
theorem IsRanked.setScore_eq (hranked : player.IsRanked) (hhole : hole < player.scores.length)
    (hvalue : 0 ≤ value ∧ value ≤ maxValue) (qualifiers : String) (par : UInt32) :
    ∃ changed field, player.setScore hole value qualifiers par =
        .ok (.classify value par.toNat, changed) ∧ changed.number = player.number ∧
      changed.scores[hole]? = some field ∧ field.value.toNat = value ∧
        field.rank = some (.classify value par.toNat) := by
  obtain ⟨word, hword⟩ := Card.exists_checkValue hvalue
  obtain ⟨rfl, hle⟩ := checkValue_eq_ok_iff.mp hword
  obtain ⟨before, hbefore⟩ :=
    Option.ne_none_iff_exists'.mp (hranked player.scores[hole] (List.getElem_mem hhole))
  have hset := setScore_of_ranked (List.getElem?_eq_getElem hhole) hbefore hle qualifiers par
  have hrank : ((player.scores[hole].write word (.ofString qualifiers)).rerank par).rank =
      some (.classify word.toNat par.toNat) := by
    rw [Field.rerank, Field.write, hbefore]
    rfl
  simp only [Field.countedRank, hrank, Option.getD_some] at hset
  exact ⟨_, _, hset, rfl, List.getElem?_set_self hhole, rfl, hrank⟩

end Player

namespace Card

variable {card : Card} {number : UInt32} {hole : Nat} {value : Int}

theorem setScore_of_le (hhole : card.holes ≤ hole) (number : UInt32) (value : Int)
    (qualifiers : String) : card.setScore number hole value qualifiers =
      (.error (.holeOutOfRange hole card.holes), card) := by
  rw [setScore, List.getElem?_eq_none hhole]

theorem exists_reaches_of_mem (hmem : number ∈ card.numbers) :
    ∃ place player, card.placeOf number = some place ∧ card.Reaches number place player := by
  obtain ⟨place, player, hplace, hfound⟩ := exists_placeOf hmem
  exact ⟨place, player, hplace, reaches_of_placeOf hplace hfound⟩

/-- A row that has changed is found again under its number. -/
theorem player?_set_players {place : Nat} {player changed : Player}
    (hplace : card.placeOf number = some place) (hfound : card.players[place]? = some player)
    (hnumber : changed.number = player.number) :
    { card with players := card.players.set place changed }.player? number = some changed := by
  obtain ⟨hlt, -⟩ := List.getElem?_eq_some_iff.mp hfound
  rw [player?_eq_bind_placeOf, placeOf_eq_findIdx?, numbers_set_players hfound hnumber,
    ← placeOf_eq_findIdx?, hplace]
  exact List.getElem?_set_self hlt

/-- What each edit of a card answers, and what it leaves behind. -/
structure AnswersEdits (card : Card) : Prop where
  holes_eq : card.holes = card.course.holes
  score_hole : ∀ (number : UInt32) (hole : Nat) (value : Int) (qualifiers : String),
    card.holes ≤ hole → card.setScore number hole value qualifiers =
      (.error (.holeOutOfRange hole card.holes), card)
  score_player : ∀ (number : UInt32) (hole : Nat) (value : Int) (qualifiers : String),
    hole < card.holes → number ∉ card.numbers →
      card.setScore number hole value qualifiers = (.error (.unknownPlayer number), card)
  score_value : ∀ (number : UInt32) (hole : Nat) (value : Int) (qualifiers : String),
    hole < card.holes → number ∈ card.numbers → ¬(0 ≤ value ∧ value ≤ maxValue) →
      card.setScore number hole value qualifiers = (.error (.invalidValue value), card)
  score_done : ∀ (number : UInt32) (hole : Nat) (value : Int) (qualifiers : String),
    hole < card.holes → number ∈ card.numbers → 0 ≤ value ∧ value ≤ maxValue →
      ∃ par after player field, card.pars[hole]? = some par ∧
        card.setScore number hole value qualifiers =
          (.ok (.classify value par.value.toNat), after) ∧
        after.player? number = some player ∧ player.scores[hole]? = some field ∧
        field.value.toNat = value ∧ field.rank = some (.classify value par.value.toNat)
  par_value : ∀ (hole : Nat) (value : Int), ¬(0 ≤ value ∧ value ≤ maxValue) →
    card.setPar hole value = (.error (.invalidValue value), card)
  par_hole : ∀ (hole : Nat) (value : Int), 0 ≤ value ∧ value ≤ maxValue → card.holes ≤ hole →
    card.setPar hole value = (.error (.holeOutOfRange hole card.holes), card)
  par_done : ∀ (hole : Nat) (value : Int), 0 ≤ value ∧ value ≤ maxValue → hole < card.holes →
    ∃ (word : UInt32) (after : Card), value = word.toNat ∧
      card.setPar hole value = (.ok (), after) ∧
        after.parValues = card.parValues.set hole word
  name_player : ∀ (number : UInt32) (name : String), number ∉ card.numbers →
    card.rename number name = (.error (.unknownPlayer number), card)
  name_blank : ∀ (number : UInt32) (name : String), number ∈ card.numbers →
    (∀ c ∈ name.toList, isBlank c = true) →
      card.rename number name = (.error .blankName, card)
  name_done : ∀ (number : UInt32) (name : String), number ∈ card.numbers →
    (∃ c ∈ name.toList, isBlank c = false) → ∃ after player,
      card.rename number name = (.ok (), after) ∧ after.player? number = some player ∧
        player.name = trim name
  total_player : ∀ number, number ∉ card.numbers →
    card.updateTotals (.only number) = (.error (.unknownPlayer number), card)
  total_done : ∀ number, number ∈ card.numbers →
    ∃ after, card.updateTotals (.only number) = (.ok (), after)
  /-- Of whatever kind the edit is. -/
  unchanged : ∀ (change : Edit) (error : CardError),
    card.outcome change = .error error → card.edit change = card

/-! ## Scores and names -/

theorem setScore_of_invalid (hmem : number ∈ card.numbers) (hhole : hole < card.holes)
    (hvalue : ¬(0 ≤ value ∧ value ≤ maxValue)) (qualifiers : String) :
    card.setScore number hole value qualifiers = (.error (.invalidValue value), card) := by
  obtain ⟨place, player, -, hreaches⟩ := exists_reaches_of_mem hmem
  calc
    card.setScore number hole value qualifiers =
        card.changeRow place (player.setScore hole value qualifiers card.pars[hole].value) :=
      hreaches.setScore_eq hole value qualifiers _ (List.getElem?_eq_getElem hhole)
    _ = (.error (.invalidValue value), card) := by
      rw [Player.setScore_of_invalid hvalue, changeRow]

/-- A score that nothing stands against is entered, and its rank answered. -/
theorem IsAligned.exists_setScore (haligned : card.IsAligned)
    (hranked : ∀ player ∈ card.players, player.IsRanked) (hmem : number ∈ card.numbers)
    (hhole : hole < card.holes) (hvalue : 0 ≤ value ∧ value ≤ maxValue) (qualifiers : String) :
    ∃ par after player field, card.pars[hole]? = some par ∧
      card.setScore number hole value qualifiers =
        (.ok (.classify value par.value.toNat), after) ∧
      after.player? number = some player ∧ player.scores[hole]? = some field ∧
      field.value.toNat = value ∧ field.rank = some (.classify value par.value.toNat) := by
  obtain ⟨place, player, hplace, hreaches⟩ := exists_reaches_of_mem hmem
  have hplayer := List.mem_of_getElem? hreaches.found
  have hpar : card.pars[hole]? = some card.pars[hole] := List.getElem?_eq_getElem hhole
  have hlength : hole < player.scores.length := by
    rw [haligned player hplayer]
    exact hhole
  obtain ⟨changed, field, hset, hnumber, hfield, hentered, hrank⟩ :=
    (hranked player hplayer).setScore_eq hlength hvalue qualifiers card.pars[hole].value
  refine ⟨_, _, changed, field, hpar, ?_, player?_set_players hplace hreaches.found hnumber,
    hfield, hentered, hrank⟩
  rw [hreaches.setScore_eq hole value qualifiers _ hpar, hset, changeRow]

theorem rename_of_blank (hmem : number ∈ card.numbers) {name : String} (hname : trim name = "") :
    card.rename number name = (.error .blankName, card) := by
  obtain ⟨place, player, -, hreaches⟩ := exists_reaches_of_mem hmem
  rw [hreaches.rename_eq, Player.rename, hname]
  rfl

theorem exists_rename (hmem : number ∈ card.numbers) {name : String} (hname : trim name ≠ "") :
    ∃ after player, card.rename number name = (.ok (), after) ∧
      after.player? number = some player ∧ player.name = trim name := by
  obtain ⟨place, player, hplace, hreaches⟩ := exists_reaches_of_mem hmem
  have hrename : player.rename name = .ok { player with name := trim name } := by
    rw [Player.rename, if_neg]
    simpa using hname
  refine ⟨_, { player with name := trim name }, ?_,
    player?_set_players hplace hreaches.found rfl, rfl⟩
  rw [hreaches.rename_eq, hrename]
  rfl

/-! ## Pars -/

/-- A par that nothing stands against is overridden, and all rows can be ranked. -/
theorem IsAligned.exists_setPar (haligned : card.IsAligned) (hhole : hole < card.holes)
    (hvalue : 0 ≤ value ∧ value ≤ maxValue) :
    ∃ (word : UInt32) (after : Card), value = word.toNat ∧
      card.setPar hole value = (.ok (), after) ∧
        after.parValues = card.parValues.set hole word := by
  obtain ⟨error, -, hcheck | hpar⟩ | ⟨word, par, hword, -, -, hset⟩ :=
    haligned.setPar_cases hole value
  · rw [checkValue, if_pos hvalue] at hcheck
    cases hcheck
  · exact absurd hhole (Nat.not_lt.mpr (List.getElem?_eq_none_iff.mp hpar))
  · exact ⟨word, _, hword, hset, List.map_set⟩

/-! ## All edits -/

theorem IsAligned.answersEdits (haligned : card.IsAligned)
    (hranked : ∀ player ∈ card.players, player.IsRanked)
    (hholes : card.holes = card.course.holes) : card.AnswersEdits where
  holes_eq := hholes
  score_hole := fun number hole value qualifiers hhole =>
    setScore_of_le hhole number value qualifiers
  score_player := by
    intro number hole value qualifiers hhole hmissing
    rw [(misses_of_not_mem hmissing).setScore_eq, if_pos hhole]
  score_value := fun number hole value qualifiers hhole hmem hvalue =>
    setScore_of_invalid hmem hhole hvalue qualifiers
  score_done := fun number hole value qualifiers hhole hmem hvalue =>
    haligned.exists_setScore hranked hmem hhole hvalue qualifiers
  par_value := by
    intro hole value hvalue
    rw [setPar, checkValue, if_neg hvalue]
  par_hole := by
    intro hole value hvalue hhole
    rw [setPar, checkValue, if_pos hvalue, List.getElem?_eq_none hhole]
  par_done := fun hole value hvalue hhole => haligned.exists_setPar hhole hvalue
  name_player := fun number name hmissing => (misses_of_not_mem hmissing).rename_eq name
  name_blank := fun number name hmem hblank => rename_of_blank hmem (trim_eq_empty_iff.mpr hblank)
  name_done := by
    intro number name hmem hname
    apply exists_rename hmem
    rw [Ne, trim_eq_empty_iff]
    simpa using hname
  total_player := fun number hmissing => (misses_of_not_mem hmissing).updateTotals_eq
  total_done := by
    intro number hmem
    obtain ⟨place, player, -, hreaches⟩ := exists_reaches_of_mem hmem
    exact ⟨_, hreaches.updateTotals_eq⟩
  unchanged := fun change error hrefused => haligned.edit_of_refused hrefused

/-- However a card came to be and whatever was done to it, each edit is carried out or refused
for the reason that comes first, and a refused edit changes nothing. -/
theorem answersEdits_run (hopens : card.Opens) (edits : List Edit) :
    (card.run edits).AnswersEdits := by
  have haligned := hopens.isAligned
  apply (haligned.run edits).answersEdits
  · exact haligned.forall_players_run (Player.rowLaw_isRanked card.holes)
      (hopens.forall_players (Player.rowLaw_isRanked card.holes)) edits
  · obtain ⟨pars, hlength, hpars⟩ := hopens.exists_parFields
    calc
      (card.run edits).holes = card.holes := haligned.length_pars_run edits
      _ = card.course.holes := by
        rw [holes, hpars, parFields, List.length_mapIdx, hlength]
      _ = (card.run edits).course.holes := by
        rw [(card.run_keeps edits).2]

/-- With two things wrong at once, the first one looked for is answered. -/
theorem answersEdits_playedRound :
    openedRound.Opens ∧ (openedRound.run playedRound).AnswersEdits ∧
      (openedRound.run playedRound).outcome (.setScore 7 2 1000 "") =
        .error (.holeOutOfRange 2 2) ∧
      (openedRound.run playedRound).outcome (.setPar 2 1000) = .error (.invalidValue 1000) := by
  have hopens : openedRound.Opens :=
    .started twoHoles none { millis := 5, picks := .replicate 6 (Fin.last _) } rfl
  exact ⟨hopens, answersEdits_run hopens playedRound, by decide, by decide⟩

end Card

end Scorekeeper
