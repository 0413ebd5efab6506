import Mathlib.Algebra.Group.Action.Defs
import Mathlib.Algebra.Order.BigOperators.Group.List
import Scorekeeper.Proofs.Service.Refused

/-!
# Limits of a card

Requests are checked before they get to a card, and the card trims what it is given, drops
blanks, sorts marks and makes up names.  This file proves that what is checked on the raw
text still holds of what the card keeps, for a card that was made here and whatever is
asked of it afterwards.
-/

namespace Scorekeeper

open Text Service

/-! ## Rows -/

/-- The score of a hole: its value may be held by a field, and its few marks are in order and
can be printed. -/
structure Field.IsWithinLimits (field : Field) : Prop where
  value : field.value.toNat ≤ maxValue
  size : field.qualifiers.size ≤ maxQualifiers
  ordered : field.qualifiers.marks.Pairwise (· ≤ ·)
  noBlank : ∀ c ∈ field.qualifiers.marks, isBlank c = false
  printable : ∀ c ∈ field.qualifiers.marks, isControl c = false

structure Player.IsWithinLimits (holes : Nat) (player : Player) : Prop where
  trimmed : trim player.name = player.name
  notBlank : trim player.name ≠ ""
  name : player.name.toList.length ≤ maxNameLength
  scores : player.scores.length = holes
  score : ∀ score ∈ player.scores, score.IsWithinLimits
  total : player.total.qualifiers.size ≤ maxQualifiers * holes

structure Card.IsWithinLimits (card : Card) : Prop where
  par : ∀ par ∈ card.pars, par.value.toNat ≤ maxValue
  player : ∀ player ∈ card.players, player.IsWithinLimits card.holes
  notes : card.notes.toList.length ≤ maxNotesLength

namespace Field

variable {field : Field}

theorem isWithinLimits_score (owner : UInt32) (hole : Nat) :
    (score owner hole).IsWithinLimits where
  value := Nat.zero_le _
  size := Nat.zero_le _
  ordered := .nil
  noBlank := by simp [score, Qualifiers.empty]
  printable := by simp [score, Qualifiers.empty]

theorem isWithinLimits_entered {word par : UInt32} {qualifiers : String}
    (hword : word.toNat ≤ maxValue) (hsize : (Qualifiers.ofString qualifiers).size ≤ maxQualifiers)
    (hprintable : ∀ c ∈ qualifiers.toList, isControl c = false) (field : Field) :
    ((field.write word (.ofString qualifiers)).rerank par).IsWithinLimits where
  value := hword
  size := hsize
  ordered := (Qualifiers.ofString qualifiers).ordered
  noBlank := (Qualifiers.ofString qualifiers).noBlank
  printable c hc := hprintable c (List.mem_of_mem_filter (Sorting.mem_sort.mp hc))

theorem IsWithinLimits.rerank (hfield : field.IsWithinLimits) (par : UInt32) :
    (field.rerank par).IsWithinLimits :=
  { hfield with }

end Field

namespace Player

variable {player after : Player} {holes : Nat}

theorem length_defaultName (number : UInt32) :
    (defaultName number).toList.length ≤ maxNameLength := by
  have hdigits : (Nat.toDigits 10 number.toNat).length ≤ 10 :=
    (Nat.length_toDigits_le_iff (by decide) (by decide)).mpr
      (number.toNat_lt.trans (by decide))
  rw [toList_defaultName, List.length_append]
  exact (Nat.add_le_add_left hdigits _).trans (by decide)

theorem length_chosenName (number : UInt32) {name : Option String}
    (hname : ∀ given ∈ name, given.toList.length ≤ maxNameLength) :
    (chosenName number name).toList.length ≤ maxNameLength := by
  cases name with
  | none => exact length_defaultName number
  | some given =>
      rw [chosenName]
      dsimp only [Option.map_some]
      split
      · exact length_defaultName number
      · exact (length_trim_le given).trans (hname given rfl)

/-- The marks of a total are no more than those of all scores together. -/
theorem size_concat_le {sets : List Qualifiers}
    (hsets : ∀ set ∈ sets, set.size ≤ maxQualifiers) :
    (Qualifiers.concat sets).size ≤ maxQualifiers * sets.length := by
  calc
    (Qualifiers.concat sets).size = (sets.map Qualifiers.size).sum := Qualifiers.size_concat sets
    _ ≤ (sets.map Qualifiers.size).length • maxQualifiers :=
      List.sum_le_card_nsmul _ _ (List.forall_mem_map.mpr hsets)
    _ = maxQualifiers * sets.length := by rw [List.length_map, smul_eq_mul, Nat.mul_comm]

theorem isWithinLimits_new (number : UInt32) {name : Option String} (holes : Nat)
    (hname : ∀ given ∈ name, given.toList.length ≤ maxNameLength) :
    (new number name holes).IsWithinLimits holes where
  trimmed := trim_chosenName number name
  notBlank := by
    rw [new, trim_chosenName]
    exact chosenName_ne number name
  name := length_chosenName number hname
  scores := by simp [new]
  score := by
    intro score hmem
    obtain ⟨hole, -, rfl⟩ := List.mem_map.mp hmem
    exact Field.isWithinLimits_score number hole
  total := Nat.zero_le _

theorem IsWithinLimits.updateTotal (hplayer : player.IsWithinLimits holes) :
    player.updateTotal.IsWithinLimits holes :=
  { hplayer with
    total := by
      have hmarks : ∀ set ∈ player.scores.map Field.qualifiers, set.size ≤ maxQualifiers :=
        List.forall_mem_map.mpr fun score hmem => (hplayer.score score hmem).size
      have htotal := size_concat_le hmarks
      rw [List.length_map, hplayer.scores] at htotal
      exact htotal }

theorem IsWithinLimits.rename (hplayer : player.IsWithinLimits holes) {name : String}
    (hlength : name.toList.length ≤ maxNameLength) (hrename : player.rename name = .ok after) :
    after.IsWithinLimits holes := by
  obtain ⟨hname, rfl⟩ := Card.rename_cases hrename
  exact { hplayer with
    trimmed := trim_trim name
    notBlank := by
      rw [trim_trim]
      exact hname
    name := (length_trim_le name).trans hlength }

theorem IsWithinLimits.setScore (hplayer : player.IsWithinLimits holes) {hole : Nat} {value : Int}
    {qualifiers : String} {par : UInt32} {rank : Rank}
    (hsize : (Qualifiers.ofString qualifiers).size ≤ maxQualifiers)
    (hprintable : ∀ c ∈ qualifiers.toList, isControl c = false)
    (hset : player.setScore hole value qualifiers par = .ok (rank, after)) :
    after.IsWithinLimits holes := by
  rw [Player.setScore] at hset
  split at hset
  · cases hset
  · next word hcheck =>
    obtain ⟨-, hword⟩ := checkValue_eq_ok_iff.mp hcheck
    split at hset
    · cases hset
    · next field hfield =>
      cases hset
      apply IsWithinLimits.updateTotal
      refine { hplayer with scores := ?_, score := ?_ }
      · rw [List.length_set]
        exact hplayer.scores
      · exact forall_mem_set hplayer.score
          (Field.isWithinLimits_entered hword hsize hprintable field)

theorem IsWithinLimits.ranked (hplayer : player.IsWithinLimits holes) {pars : List UInt32}
    (hlength : pars.length = holes) : (player.ranked pars).IsWithinLimits holes :=
  { hplayer with
    scores := by simp [Player.ranked, hplayer.scores, hlength]
    score := by
      intro score hmem
      obtain ⟨hole, hhole⟩ := List.getElem?_of_mem hmem
      rw [Player.ranked, List.getElem?_zipWith_eq_some] at hhole
      obtain ⟨before, par, hbefore, -, rfl⟩ := hhole
      exact (hplayer.score before (List.mem_of_getElem? hbefore)).rerank par }

end Player

/-! ## Cards -/

namespace Card

variable {card after : Card} {change : Edit}

theorem IsWithinLimits.isAligned (hcard : card.IsWithinLimits) : card.IsAligned :=
  fun player hmem => (hcard.player player hmem).scores

/-- One row takes the place of another. -/
theorem IsWithinLimits.set_players (hcard : card.IsWithinLimits) {changed : Player}
    (hchanged : changed.IsWithinLimits card.holes) (place : Nat) :
    { card with players := card.players.set place changed }.IsWithinLimits :=
  { hcard with player := forall_mem_set hcard.player hchanged }

theorem IsWithinLimits.withPars (hcard : card.IsWithinLimits) {pars : List Field}
    (hpars : ∀ par ∈ pars, par.value.toNat ≤ maxValue) (hlength : pars.length = card.holes) :
    (card.withPars pars).IsWithinLimits where
  par := hpars
  player := by
    intro player hmem
    obtain ⟨before, hbefore, rfl⟩ := List.mem_map.mp hmem
    change Player.IsWithinLimits pars.length _
    rw [hlength]
    exact (hcard.player before hbefore).ranked ((List.length_map _).trans hlength)
  notes := hcard.notes

theorem Effect.isWithinLimits (heffect : card.Effect change after)
    (hcard : card.IsWithinLimits) (hchange : change.IsWithinLimits) : after.IsWithinLimits := by
  cases heffect with
  | score par_eq place_eq found set =>
      obtain ⟨-, hsize, hprintable⟩ := hchange
      have hplayer := hcard.player _ (List.mem_of_getElem? found)
      exact hcard.set_players (hplayer.setScore hsize hprintable set) _
  | par value_eq inRange par_eq =>
      exact hcard.withPars (forall_mem_set hcard.par inRange) List.length_set
  | name place_eq found renamed =>
      have hplayer := hcard.player _ (List.mem_of_getElem? found)
      exact hcard.set_players (hplayer.rename hchange renamed) _
  | total place_eq found =>
      have hplayer := hcard.player _ (List.mem_of_getElem? found)
      exact hcard.set_players hplayer.updateTotal _
  | totals =>
      refine { hcard with player := ?_ }
      intro player hmem
      obtain ⟨before, hbefore, rfl⟩ := List.mem_map.mp hmem
      exact (hcard.player before hbefore).updateTotal
  | added name =>
      refine { hcard with player := ?_ }
      intro player hmem
      obtain hmem | hmem := List.mem_append.mp hmem
      · exact hcard.player player hmem
      · rw [List.mem_singleton.mp hmem]
        exact Player.isWithinLimits_new _ _ hchange
  | removed =>
      rw [removePlayer]
      split
      · exact hcard
      · exact { hcard with
          player := fun player hmem => hcard.player player (List.dropLast_subset _ hmem) }
  | notes notes => exact { hcard with notes := hchange }
  | parTotal => exact { hcard with }

/-- An edit within the limits keeps a card within them, whether it is refused or not. -/
theorem IsWithinLimits.edit (hcard : card.IsWithinLimits) (hchange : change.IsWithinLimits) :
    (card.edit change).IsWithinLimits :=
  hcard.isAligned.keeps_edit IsWithinLimits hcard fun _ heffect =>
    heffect.isWithinLimits hcard hchange

theorem IsWithinLimits.run (hcard : card.IsWithinLimits) {edits : List Edit}
    (hedits : ∀ change ∈ edits, change.IsWithinLimits) : (card.run edits).IsWithinLimits := by
  induction edits generalizing card with
  | nil => exact hcard
  | cons change edits ih =>
      obtain ⟨hchange, hrest⟩ := List.forall_mem_cons.mp hedits
      exact ih (hcard.edit hchange) hrest

variable {course : Course} {space : Option UserspaceId} {draw : Draw}

/-- The pars of a new card are those of its course, which are in range. -/
theorem isWithinLimits_start (hstart : start course space draw = .ok card) :
    card.IsWithinLimits := by
  rw [start] at hstart
  split at hstart
  · cases hstart
    have hlength : (parFields course.pars).length = course.holes := by
      simp [parFields, Course.holes]
    refine { par := ?_, player := ?_, notes := Nat.zero_le _ }
    · intro par hmem
      have hvalue : par.value ∈ (parFields course.pars).map Field.value :=
        List.mem_map_of_mem hmem
      rw [value_parFields] at hvalue
      exact course.inRange par.value hvalue
    · intro player hmem
      rw [List.mem_singleton.mp hmem]
      change Player.IsWithinLimits (parFields course.pars).length _
      rw [hlength]
      exact Player.isWithinLimits_new 1 course.holes fun given hgiven => by cases hgiven
  · cases hstart

theorem isWithinLimits_startCard {request : CreateCard}
    (hfit : request.defects = []) (hstart : startCard request course space draw = .ok card) :
    card.IsWithinLimits := by
  obtain ⟨started, hstarted, rfl⟩ := eq_run_of_startCard hstart
  exact (isWithinLimits_start hstarted).run (isWithinLimits_lineUpEdits hfit)

end Card

end Scorekeeper

namespace Scorekeeper.Service.State

variable {state : State}

/-- The states whose card was made here: a request created it, and no stored card was put in
its place by what was asked since. -/
inductive IsMadeHere : State → Prop
  | created {state : State} (before : state.Reached) (outside : Outside) (request : HttpRequest)
      {body : CreateCard} (asks : request.action = .ok (.createCard body))
      (granted : IsSuccess (state.respond outside request).1.status) :
      IsMadeHere (state.respond outside request).2
  | answered {state : State} (before : state.IsMadeHere) (outside : Outside)
      (request : HttpRequest) (loads_none : ∀ text, request.action ≠ .ok (.loadCard text)) :
      IsMadeHere (state.respond outside request).2
  | moved {state : State} (before : state.IsMadeHere) (event : Save.Event 1) :
      IsMadeHere { state with world := state.world.step event }
  | shared {state : State} (before : state.IsMadeHere) (folder : Files.Folder) :
      IsMadeHere { state with world := { state.world with folder } }

/-- A card that was made here is within the limits, whatever was asked of it since, granted
or refused. -/
theorem IsMadeHere.exists_isWithinLimits (hmade : state.IsMadeHere) :
    ∃ card, state.card = some card ∧ card.IsWithinLimits := by
  induction hmade with
  | @created state before outside request body asks granted =>
      obtain ⟨hstatus, hstate⟩ := state.respond_of_action outside asks
      rw [hstatus] at granted
      rw [hstate]
      have hperforms := before.isSound.performs outside (.createCard body)
      generalize state.perform outside (.createCard body) = result at granted hperforms
      cases hperforms with
      | created fit chosen started =>
          exact ⟨_, rfl, Card.isWithinLimits_startCard fit started⟩
      | edited fit edits_eq card_eq after_eq => cases edits_eq
      | shown reading => cases reading
      | _ => exact absurd granted (not_isSuccess_ofRefusal _)
  | @answered state before outside request loads_none ih =>
      obtain ⟨card, hcard, hlimits⟩ := ih
      obtain ⟨error, -, -, hsame⟩ | ⟨action, haction, -, hstate⟩ :=
        state.respond_cases outside request
      · rw [hsame]
        exact ⟨card, hcard, hlimits⟩
      · rw [hstate]
        have hsound := isSound_of_card hcard hlimits.isAligned
        have hperforms := hsound.performs outside action
        generalize state.perform outside action = result at hperforms
        cases hperforms with
        | edited fit edits_eq card_eq after_eq =>
            rw [hcard] at card_eq
            cases card_eq
            exact ⟨_, after_eq, hlimits.run (isWithinLimits_of_fit fit edits_eq)⟩
        | created fit chosen started =>
            exact ⟨_, rfl, Card.isWithinLimits_startCard fit started⟩
        | loaded loads => exact absurd haction (loads_none _)
        | _ => exact ⟨card, hcard, hlimits⟩
  | moved before event ih => exact ih
  | shared before folder ih => exact ih

/-! ## A score with marks after a refused par -/

def markedScore : HttpRequest :=
  requestWith "PUT" "/scorecard/players/2/holes/0" SetScore.codec ⟨4, "w o"⟩

def markedLinks : State :=
  ((startedLinks.respond courseStore secondPar).2.respond courseStore markedScore).2

theorem exists_isWithinLimits_markedLinks :
    let refused := startedLinks.respond courseStore secondPar
    (refused.1.status = 400 ∧ (refused.2.respond courseStore markedScore).1.status = 200) ∧
      markedLinks.IsMadeHere ∧ ∃ card, markedLinks.card = some card ∧ card.IsWithinLimits := by
  have hopened : openedLinks.Reached := (Reached.fresh .default .temporary).answered _ _
  have hcreate : (requestWith "POST" "/scorecards" CreateCard.codec
      ⟨"links", ["Ann", "Bo"]⟩).action = .ok (.createCard ⟨"links", ["Ann", "Bo"]⟩) := by
    decide +kernel
  have hpar : secondPar.action = .ok (.setPar 1 ⟨4⟩) := by decide +kernel
  have hscore : markedScore.action = .ok (.setScore 2 0 ⟨4, "w o"⟩) := by decide +kernel
  have hmade : markedLinks.IsMadeHere := by
    have hstarted : startedLinks.IsMadeHere :=
      .created hopened courseStore _ hcreate (by decide +kernel)
    refine (hstarted.answered courseStore secondPar ?_).answered courseStore markedScore ?_
    · intro text hload
      rw [hpar] at hload
      cases hload
    · intro text hload
      rw [hscore] at hload
      cases hload
  exact ⟨by decide +kernel, hmade, hmade.exists_isWithinLimits⟩

end Scorekeeper.Service.State
