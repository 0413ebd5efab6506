import Scorekeeper.Proofs.Card.Derived
import Scorekeeper.Proofs.Card.Refusals

/-!
# The rows of a card

A number is found for a new row by looking at all rows, a row is looked up by its number,
and rows are taken away by their place.  These views agree because of one invariant: every
row has the number of its place, and every field says on which row and on which hole it
stands.  No bound on the holes of a course is needed here, since nothing is added up.
-/

namespace Scorekeeper

open Text

/-- The row and the hole on which a field says that it stands. -/
def Field.site (field : Field) : Option UInt32 × Nat :=
  (field.owner, field.hole)

namespace Player

/-- The fields of a row stand where they say, and the row is named. -/
structure IsLaidOut (holes : Nat) (player : Player) : Prop where
  scores : player.scores.map Field.site =
    (List.range holes).map fun hole => (some player.number, hole)
  total : player.total.owner = some player.number
  trimmed : trim player.name = player.name
  named : player.name ≠ ""

variable {player after : Player} {holes : Nat}

theorem isLaidOut_new (number : UInt32) (name : Option String) (holes : Nat) :
    (new number name holes).IsLaidOut holes where
  scores := by
    rw [new, List.map_map]
    rfl
  total := rfl
  trimmed := trim_chosenName number name
  named := chosenName_ne number name

theorem owner_total_setScore {hole : Nat} {value : Int} {qualifiers : String} {par : UInt32}
    {rank : Rank} (hset : player.setScore hole value qualifiers par = .ok (rank, after)) :
    after.total.owner = player.total.owner := by
  rw [setScore] at hset
  split at hset
  · cases hset
  · split at hset
    · cases hset
    · cases hset
      rfl

theorem IsLaidOut.setScore (hlaid : player.IsLaidOut holes) {hole : Nat} {value : Int}
    {qualifiers : String} {par : UInt32} {rank : Rank}
    (hset : player.setScore hole value qualifiers par = .ok (rank, after)) :
    after.IsLaidOut holes := by
  obtain ⟨field, word, hfield, -, -, hnumber, hname, hscores⟩ := setScore_cases hset
  refine ⟨?_, ?_, ?_, ?_⟩
  · -- entering a value leaves the field where it stands
    have hsites : after.scores.map Field.site = player.scores.map Field.site := by
      rw [hscores]
      exact map_set_of_eq hfield rfl
    rw [hsites, hnumber]
    exact hlaid.scores
  · rw [owner_total_setScore hset, hnumber]
    exact hlaid.total
  · rw [hname]
    exact hlaid.trimmed
  · rw [hname]
    exact hlaid.named

theorem IsLaidOut.rename (hlaid : player.IsLaidOut holes) {name : String}
    (hrename : player.rename name = .ok after) : after.IsLaidOut holes := by
  obtain ⟨hname, rfl⟩ := Card.rename_cases hrename
  exact ⟨hlaid.scores, hlaid.total, trim_trim name, hname⟩

theorem IsLaidOut.updateTotal (hlaid : player.IsLaidOut holes) :
    player.updateTotal.IsLaidOut holes :=
  ⟨hlaid.scores, hlaid.total, hlaid.trimmed, hlaid.named⟩

theorem IsLaidOut.length_eq (hlaid : player.IsLaidOut holes) : player.scores.length = holes := by
  simpa using congrArg List.length hlaid.scores

theorem IsLaidOut.ranked (hlaid : player.IsLaidOut holes) {pars : List UInt32}
    (hlength : pars.length = holes) : (player.ranked pars).IsLaidOut holes where
  scores := by
    rw [Player.ranked, Field.map_zipWith_rerank (fun _ _ => rfl)]
    · exact hlaid.scores
    · rw [hlaid.length_eq, hlength]
  total := hlaid.total
  trimmed := hlaid.trimmed
  named := hlaid.named

theorem rowLaw_isLaidOut (holes : Nat) : Card.RowLaw holes (IsLaidOut holes) where
  new := fun number name => isLaidOut_new number name holes
  setScore := fun hlaid hset => hlaid.setScore hset
  rename := fun hlaid hrename => hlaid.rename hrename
  updateTotal := fun hlaid => hlaid.updateTotal
  ranked := fun hlaid hlength => hlaid.ranked hlength

end Player

namespace Card

/-- The fields of a card stand where they say, and its rows are numbered by their places. -/
structure IsLaidOut (card : Card) : Prop where
  pars : card.pars.map Field.site = (List.range card.holes).map fun hole => (none, hole)
  player : ∀ player ∈ card.players, player.IsLaidOut card.holes
  numbered : AreNumbered card.players

variable {card after : Card} {change : Edit}

theorem IsLaidOut.isAligned (hlaid : card.IsLaidOut) : card.IsAligned :=
  fun player hmem => (hlaid.player player hmem).length_eq

/-! ## The layout is kept -/

theorem map_site_parFields (pars : List UInt32) :
    (parFields pars).map Field.site = (List.range pars.length).map fun hole => (none, hole) := by
  apply List.ext_getElem
  · simp [parFields]
  · intro hole _ _
    simp [parFields, Field.par, Field.site]

theorem Opens.areNumbered (hopens : card.Opens) : AreNumbered card.players := by
  cases hopens with
  | started course space draw hstart =>
      rw [start] at hstart
      split at hstart
      · cases hstart
        exact areNumbered_new none course.holes
      · cases hstart
  | stored document hmade => exact (ofDocument_eq_ok_iff.mp hmade).areNumbered

theorem Opens.isLaidOut (hopens : card.Opens) : card.IsLaidOut where
  pars := by
    obtain ⟨pars, -, hpars⟩ := hopens.exists_parFields
    rw [holes, hpars, map_site_parFields, parFields, List.length_mapIdx]
  player := hopens.forall_players (Player.rowLaw_isLaidOut card.holes)
  numbered := hopens.areNumbered

theorem Effect.map_site_pars (heffect : card.Effect change after) :
    after.pars.map Field.site = card.pars.map Field.site := by
  cases heffect with
  | par value_eq inRange par_eq => exact map_set_of_eq par_eq rfl
  | removed =>
      rw [removePlayer]
      split <;> rfl
  | _ => rfl

theorem Effect.areNumbered (heffect : card.Effect change after)
    (hnumbered : AreNumbered card.players) : AreNumbered after.players := by
  cases heffect with
  | score par_eq place_eq found set =>
      obtain ⟨_, _, -, -, -, hnumber, -⟩ := Player.setScore_cases set
      exact hnumbered.set found hnumber
  | par value_eq inRange par_eq => exact hnumbered.map fun _ => rfl
  | name place_eq found renamed =>
      apply hnumbered.set found
      rw [(rename_cases renamed).2]
  | total place_eq found => exact hnumbered.set found rfl
  | totals => exact hnumbered.map fun _ => rfl
  | added name => exact hnumbered.append hnumbered.nextNumber_eq
  | removed =>
      rw [removePlayer]
      split
      · exact hnumbered
      · exact hnumbered.dropLast
  | notes notes => exact hnumbered
  | parTotal => exact hnumbered

theorem Effect.isLaidOut (heffect : card.Effect change after) (hlaid : card.IsLaidOut) :
    after.IsLaidOut where
  pars := by
    rw [heffect.map_site_pars, holes, heffect.length_pars]
    exact hlaid.pars
  player := by
    rw [holes, heffect.length_pars]
    exact heffect.forall_players (Player.rowLaw_isLaidOut card.holes) hlaid.player
  numbered := heffect.areNumbered hlaid.numbered

theorem IsLaidOut.run (hlaid : card.IsLaidOut) (edits : List Edit) :
    (card.run edits).IsLaidOut :=
  hlaid.isAligned.keeps_run IsLaidOut hlaid (fun heffect hcard => heffect.isLaidOut hcard) edits

/-! ## From numbers to rows -/

section Lookup

variable {A : Type} {number : UInt32} {place : Nat} {player : Player}

/-- Whether a number is one of those that the rows of a card have: they begin with one. -/
def HasNumber (card : Card) (number : UInt32) : Prop :=
  0 < number.toNat ∧ number.toNat ≤ card.players.length

/-- The answer of an edit of the row at `place`, and the card with what became of that row. -/
def changeRow (card : Card) (place : Nat) (result : Except CardError (A × Player)) :
    Except CardError A × Card :=
  match result with
  | .ok (answer, changed) => (.ok answer, { card with players := card.players.set place changed })
  | .error error => (.error error, card)

/-- A number leads whatever is addressed to it to the row at `place`. -/
structure Reaches (card : Card) (number : UInt32) (place : Nat) (player : Player) : Prop where
  found : card.players[place]? = some player
  player?_eq : card.player? number = some player
  setScore_eq : ∀ (hole : Nat) (value : Int) (qualifiers : String) (par : Field),
    card.pars[hole]? = some par → card.setScore number hole value qualifiers =
      card.changeRow place (player.setScore hole value qualifiers par.value)
  rename_eq : ∀ name, card.rename number name =
    card.changeRow place ((player.rename name).map fun changed => ((), changed))
  updateTotals_eq : card.updateTotals (.only number) =
    card.changeRow place (.ok ((), player.updateTotal))

/-- Whatever is addressed to a number finds no row. -/
structure Misses (card : Card) (number : UInt32) : Prop where
  player?_eq : card.player? number = none
  /-- The hole is looked up before the row. -/
  setScore_eq : ∀ (hole : Nat) (value : Int) (qualifiers : String),
    card.setScore number hole value qualifiers =
      (.error (if hole < card.holes then .unknownPlayer number
        else .holeOutOfRange hole card.holes), card)
  rename_eq : ∀ name, card.rename number name = (.error (.unknownPlayer number), card)
  updateTotals_eq : card.updateTotals (.only number) = (.error (.unknownPlayer number), card)

theorem player?_eq_bind_placeOf (card : Card) (number : UInt32) :
    card.player? number = (card.placeOf number).bind fun place => card.players[place]? :=
  List.find?_eq_bind_findIdx?_getElem?

theorem editRow_of_findIdx? {change : Player → Except CardError (A × Player)}
    {players : List Player}
    (hplace : players.findIdx? (fun player => player.number == number) = some place)
    (hfound : players[place]? = some player) :
    editRow number change players =
      (change player).map fun (answer, changed) => (answer, players.set place changed) := by
  induction players generalizing place with
  | nil => cases hfound
  | cons first rest ih =>
      rw [List.findIdx?_cons] at hplace
      rw [editRow]
      by_cases hfirst : first.number = number
      · rw [hfirst, beq_self_eq_true, if_pos rfl] at hplace
        cases hplace
        cases hfound
        rw [if_pos hfirst]
        rfl
      · rw [beq_eq_false_iff_ne.mpr hfirst, if_neg Bool.false_ne_true,
          Option.map_eq_some_iff] at hplace
        obtain ⟨place, hrest, rfl⟩ := hplace
        rw [if_neg hfirst, ih hrest hfound]
        cases change player <;> rfl

theorem editPlayer_eq_changeRow {change : Player → Except CardError (A × Player)}
    (hplace : card.placeOf number = some place) (hfound : card.players[place]? = some player) :
    card.editPlayer number change = card.changeRow place (change player) := by
  rw [editPlayer, editRow_of_findIdx? hplace hfound]
  cases change player <;> rfl

theorem reaches_of_placeOf (hplace : card.placeOf number = some place)
    (hfound : card.players[place]? = some player) : card.Reaches number place player where
  found := hfound
  player?_eq := by
    rw [player?_eq_bind_placeOf, hplace]
    exact hfound
  setScore_eq := by
    intro hole value qualifiers par hpar
    rw [setScore, hpar]
    exact editPlayer_eq_changeRow hplace hfound
  rename_eq := fun _ => editPlayer_eq_changeRow hplace hfound
  updateTotals_eq := editPlayer_eq_changeRow hplace hfound

theorem editPlayer_of_not_mem (change : Player → Except CardError (A × Player))
    (hmissing : number ∉ card.numbers) :
    card.editPlayer number change = (.error (.unknownPlayer number), card) := by
  obtain ⟨error, hrefused⟩ | ⟨place, player, _, _, hplace, -⟩ :=
    card.editPlayer_cases number change
  · obtain ⟨-, rfl⟩ | ⟨hmem, -⟩ := error_of_editPlayer (congrArg Prod.fst hrefused)
    · exact hrefused
    · exact absurd hmem hmissing
  · exact absurd (mem_numbers_of_placeOf hplace) hmissing

theorem misses_of_not_mem (hmissing : number ∉ card.numbers) : card.Misses number where
  player?_eq := by
    rw [player?, List.find?_eq_none]
    intro player hmem hnumber
    rw [beq_iff_eq] at hnumber
    exact hmissing (hnumber ▸ List.mem_map_of_mem hmem)
  setScore_eq := by
    intro hole value qualifiers
    rw [setScore]
    by_cases hhole : hole < card.holes
    · rw [List.getElem?_eq_getElem hhole, if_pos hhole]
      exact editPlayer_of_not_mem _ hmissing
    · rw [List.getElem?_eq_none (Nat.not_lt.mp hhole), if_neg hhole]
  rename_eq := fun _ => editPlayer_of_not_mem _ hmissing
  updateTotals_eq := editPlayer_of_not_mem _ hmissing

theorem IsLaidOut.number_eq (hlaid : card.IsLaidOut)
    (hroom : card.players.length + 1 < UInt32.size)
    (hfound : card.players[place]? = some player) : player.number.toNat = place + 1 := by
  obtain ⟨hlt, -⟩ := List.getElem?_eq_some_iff.mp hfound
  rw [hlaid.numbered place player hfound (by omega), UInt32.toNat_ofNat_of_lt' (by omega)]

/-- A number that is not too large leads to its own place. -/
theorem IsLaidOut.placeOf_eq (hlaid : card.IsLaidOut)
    (hroom : card.players.length + 1 < UInt32.size) (hhas : card.HasNumber number) :
    card.placeOf number = some (number.toNat - 1) := by
  obtain ⟨hpos, hle⟩ := hhas
  have hlt : number.toNat - 1 < card.players.length := by omega
  have hfound := List.getElem?_eq_getElem hlt
  refine placeOf_eq_some_iff.mpr ⟨_, hfound, ?_, ?_⟩
  · apply UInt32.toNat_inj.mp
    rw [hlaid.number_eq hroom hfound]
    omega
  · rintro earlier other hless hother rfl
    have hnumber := hlaid.number_eq hroom hother
    omega

theorem IsLaidOut.mem_numbers_iff (hlaid : card.IsLaidOut)
    (hroom : card.players.length + 1 < UInt32.size) :
    number ∈ card.numbers ↔ card.HasNumber number := by
  constructor
  · intro hmem
    obtain ⟨player, hplayer, rfl⟩ := List.mem_map.mp hmem
    obtain ⟨place, hfound⟩ := List.mem_iff_getElem?.mp hplayer
    obtain ⟨hlt, -⟩ := List.getElem?_eq_some_iff.mp hfound
    have hnumber := hlaid.number_eq hroom hfound
    exact ⟨by omega, by omega⟩
  · intro hhas
    exact mem_numbers_of_placeOf (hlaid.placeOf_eq hroom hhas)

theorem IsLaidOut.exists_reaches (hlaid : card.IsLaidOut)
    (hroom : card.players.length + 1 < UInt32.size) (hhas : card.HasNumber number) :
    ∃ player, card.Reaches number (number.toNat - 1) player := by
  have hplace := hlaid.placeOf_eq hroom hhas
  obtain ⟨player, hfound, -⟩ := placeOf_eq_some_iff.mp hplace
  exact ⟨player, reaches_of_placeOf hplace hfound⟩

end Lookup

/-- The number that an edit is addressed to, if it is addressed to one row. -/
def Edit.number? : Edit → Option UInt32
  | .setScore number .. | .rename number _ | .updateTotals (.only number) => some number
  | _ => none

/-- An edit that asks nothing wrong of its row is carried out when there is such a row. -/
theorem IsAligned.outcome_eq_ok_iff_mem (haligned : card.IsAligned) {number : UInt32}
    (haddressed : change.number? = some number) (hfit : change.IsFit card.holes [number]) :
    card.outcome change = .ok () ↔ number ∈ card.numbers := by
  rw [haligned.outcome_eq_ok_iff]
  cases change with
  | setScore other hole value qualifiers =>
      cases haddressed
      obtain ⟨hhole, -, hvalue⟩ := hfit
      exact ⟨fun h => h.2.1, fun hmem => ⟨hhole, hmem, hvalue⟩⟩
  | rename other name =>
      cases haddressed
      exact ⟨fun h => h.1, fun hmem => ⟨hmem, hfit.2⟩⟩
  | updateTotals rows =>
      cases rows with
      | all => cases haddressed
      | only other =>
          cases haddressed
          exact Iff.rfl
  | _ => cases haddressed

/-! ## All views agree -/

/-- The rows of a card have the numbers from one on, their fields stand where they say, and
numbers, places and answers agree on which row is meant. -/
structure IsRoster (card : Card) : Prop where
  numbers : card.players.map (fun player => player.number.toNat) =
    (List.range card.players.length).map fun place => place + 1
  scores : ∀ player ∈ card.players, player.scores.map Field.site =
    (List.range card.holes).map fun hole => (some player.number, hole)
  totals : ∀ player ∈ card.players, player.total.owner = some player.number
  pars : card.pars.map Field.site = (List.range card.holes).map fun hole => (none, hole)
  names : ∀ player ∈ card.players, trim player.name = player.name ∧ player.name ≠ ""
  reaches : ∀ number, card.HasNumber number →
    ∃ player, card.Reaches number (number.toNat - 1) player
  misses : ∀ number, ¬card.HasNumber number → card.Misses number
  /-- Given that nothing else is wrong with it. -/
  outcome : ∀ (change : Edit) (number : UInt32), change.number? = some number →
    change.IsFit card.holes [number] →
      (card.outcome change = .ok () ↔ card.HasNumber number)
  added : ∀ name, ∃ number row,
    card.addPlayer name = (number, { card with players := card.players ++ [row] }) ∧
      number.toNat = card.players.length + 1 ∧ row.number = number ∧
        row.scores.map (fun field => (field.value, field.qualifiers, field.rank)) =
          List.replicate card.holes (0, .empty, some .unranked)
  removed : 1 < card.players.length →
    card.removePlayer =
      (true, { card with players := card.players.take (card.players.length - 1) })
  kept : card.players.length ≤ 1 → card.removePlayer = (false, card)

theorem IsLaidOut.isRoster (hlaid : card.IsLaidOut)
    (hroom : card.players.length + 1 < UInt32.size) : card.IsRoster where
  numbers := by
    apply List.ext_getElem
    · simp
    · intro place hplace _
      rw [List.length_map] at hplace
      simpa using hlaid.number_eq hroom (List.getElem?_eq_getElem hplace)
  scores := fun player hmem => (hlaid.player player hmem).scores
  totals := fun player hmem => (hlaid.player player hmem).total
  pars := hlaid.pars
  names := fun player hmem => ⟨(hlaid.player player hmem).trimmed, (hlaid.player player hmem).named⟩
  reaches := fun number hhas => hlaid.exists_reaches hroom hhas
  misses := fun number hmissing =>
    misses_of_not_mem fun hmem => hmissing ((hlaid.mem_numbers_iff hroom).mp hmem)
  outcome := fun change number haddressed hfit =>
    (hlaid.isAligned.outcome_eq_ok_iff_mem haddressed hfit).trans (hlaid.mem_numbers_iff hroom)
  added := by
    intro name
    refine ⟨card.nextNumber, .new card.nextNumber name card.holes, rfl, ?_, rfl, ?_⟩
    · rw [hlaid.numbered.nextNumber_eq hroom, UInt32.toNat_ofNat_of_lt' hroom]
    · rw [List.eq_replicate_iff]
      simp [Player.new, Field.score]
  removed := by
    intro hmany
    rw [removePlayer, if_neg (Nat.not_le.mpr hmany), List.dropLast_eq_take]
  kept := by
    intro hfew
    rw [removePlayer, if_pos hfew]

/-- After any edits, refused ones included, all views of the rows of a card agree. -/
theorem isRoster_run (hopens : card.Opens) (edits : List Edit)
    (hroom : (card.run edits).players.length < UInt32.size - 1) : (card.run edits).IsRoster :=
  (hopens.isLaidOut.run edits).isRoster (Nat.add_lt_of_lt_sub hroom)

/-- The third row is removed and added again, and two edits miss every row. -/
def comingAndGoing : List Edit :=
  [.addPlayer none, .addPlayer (some " Bo "), .removePlayer, .rename 3 "Cy", .addPlayer none,
    .setScore 3 1 4 "b", .updateTotals (.only 0)]

theorem isRoster_comingAndGoing :
    openedRound.Opens ∧
      (openedRound.run comingAndGoing).players.length < UInt32.size - 1 ∧
        (openedRound.run comingAndGoing).IsRoster ∧
          (openedRound.run comingAndGoing).numbers = [1, 2, 3] := by
  have hopens : openedRound.Opens :=
    .started twoHoles none { millis := 5, picks := .replicate 6 (Fin.last _) } rfl
  have hroom : (openedRound.run comingAndGoing).players.length < UInt32.size - 1 := by decide
  exact ⟨hopens, hroom, isRoster_run hopens comingAndGoing hroom, by decide⟩

end Card

end Scorekeeper
