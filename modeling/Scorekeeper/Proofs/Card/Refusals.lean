import Scorekeeper.Proofs.Card.Reachable
import Scorekeeper.Proofs.Replaced

/-!
# Refused edits

An edit is carried out, or it is refused and leaves the card as it was.  The one edit
that could fail half way is overriding a par: it writes the par before it ranks the rows.
It never does, because every row has a score for each hole.  Which edits are carried out
depends on nothing but the number of holes and the numbers of the rows.
-/

namespace Scorekeeper.Card

open Text

variable {card : Card} {A : Type}

def numbers (card : Card) : List UInt32 :=
  card.players.map Player.number

/-- The place of the first row with a number. -/
def placeOf (card : Card) (number : UInt32) : Option Nat :=
  card.players.findIdx? fun player => player.number == number

/-- Whether an edit is carried out, and why not. -/
def outcome (card : Card) : Edit → Except CardError Unit
  | .setScore number hole value qualifiers =>
    (card.setScore number hole value qualifiers).1.map fun _ => ()
  | .setPar hole value => (card.setPar hole value).1
  | .rename number name => (card.rename number name).1
  | .updateTotals rows => (card.updateTotals rows).1
  | .addPlayer _ | .removePlayer | .setNotes _ | .updateParTotal => .ok ()

/-! ## What an edit can do -/

/-- What an edit makes of a card when it is carried out. -/
inductive Effect (card : Card) : Edit → Card → Prop where
  | score {number : UInt32} {hole : Nat} {value : Int} {qualifiers : String} {par : Field}
      {place : Nat} {player changed : Player} {rank : Rank}
      (par_eq : card.pars[hole]? = some par) (place_eq : card.placeOf number = some place)
      (found : card.players[place]? = some player)
      (set : player.setScore hole value qualifiers par.value = .ok (rank, changed)) :
      Effect card (.setScore number hole value qualifiers)
        { card with players := card.players.set place changed }
  | par {hole : Nat} {value : Int} {word : UInt32} {par : Field}
      (value_eq : value = word.toNat) (inRange : word.toNat ≤ maxValue)
      (par_eq : card.pars[hole]? = some par) :
      Effect card (.setPar hole value)
        (card.withPars (card.pars.set hole { par with value := word }))
  | name {number : UInt32} {name : String} {place : Nat} {player changed : Player}
      (place_eq : card.placeOf number = some place)
      (found : card.players[place]? = some player) (renamed : player.rename name = .ok changed) :
      Effect card (.rename number name)
        { card with players := card.players.set place changed }
  | total {number : UInt32} {place : Nat} {player : Player}
      (place_eq : card.placeOf number = some place)
      (found : card.players[place]? = some player) :
      Effect card (.updateTotals (.only number))
        { card with players := card.players.set place player.updateTotal }
  | totals : Effect card (.updateTotals .all) (card.updateTotals .all).2
  | added (name : Option String) : Effect card (.addPlayer name) (card.addPlayer name).2
  | removed : Effect card .removePlayer card.removePlayer.2
  | notes (notes : String) : Effect card (.setNotes notes) (card.setNotes notes)
  | parTotal : Effect card .updateParTotal card.updateParTotal

/-- An edit of a row is refused, or it changes the first row with its number. -/
theorem editPlayer_cases (card : Card) (number : UInt32)
    (change : Player → Except CardError (A × Player)) :
    (∃ error, card.editPlayer number change = (.error error, card)) ∨
      ∃ place player answer changed, card.placeOf number = some place ∧
        card.players[place]? = some player ∧ change player = .ok (answer, changed) ∧
          card.editPlayer number change =
            (.ok answer, { card with players := card.players.set place changed }) := by
  rw [editPlayer]
  cases hedit : editRow number change card.players with
  | error error => exact .inl ⟨error, rfl⟩
  | ok result =>
      obtain ⟨answer, players⟩ := result
      obtain ⟨place, player, changed, hplace, hfound, hchange, rfl⟩ :=
        editRow_eq_ok_iff.mp hedit
      exact .inr ⟨place, player, answer, changed, hplace, hfound, hchange, rfl⟩

/-- An edit is refused and changes nothing, or it is carried out. -/
theorem IsAligned.edit_cases (haligned : card.IsAligned) (change : Edit) :
    (∃ error, card.outcome change = .error error ∧ card.edit change = card) ∨
      card.outcome change = .ok () ∧ card.Effect change (card.edit change) := by
  cases change with
  | setScore number hole value qualifiers =>
      rw [outcome, edit, setScore]
      cases hpar : card.pars[hole]? with
      | none => exact .inl ⟨_, rfl, rfl⟩
      | some par =>
          obtain ⟨error, hedit⟩ | ⟨place, player, rank, changed, hplace, hfound, hset, hedit⟩ :=
            card.editPlayer_cases number
              fun player => player.setScore hole value qualifiers par.value
          · dsimp only
            rw [hedit]
            exact .inl ⟨error, rfl, rfl⟩
          · dsimp only
            rw [hedit]
            exact .inr ⟨rfl, .score hpar hplace hfound hset⟩
  | setPar hole value =>
      rw [outcome, edit]
      obtain ⟨error, hset, -⟩ | ⟨word, par, hvalue, hword, hpar, hset⟩ :=
        haligned.setPar_cases hole value
      · rw [hset]
        exact .inl ⟨error, rfl, rfl⟩
      · rw [hset]
        exact .inr ⟨rfl, .par hvalue hword hpar⟩
  | rename number name =>
      rw [outcome, edit, rename]
      obtain ⟨error, hedit⟩ | ⟨place, player, _, changed, hplace, hfound, hrename, hedit⟩ :=
        card.editPlayer_cases number
          fun player => (player.rename name).map fun player => ((), player)
      · rw [hedit]
        exact .inl ⟨error, rfl, rfl⟩
      · obtain ⟨renamed, hrenamed, hsame⟩ := map_eq_ok_iff.mp hrename
        cases hsame
        rw [hedit]
        exact .inr ⟨rfl, .name hplace hfound hrenamed⟩
  | updateTotals rows =>
      cases rows with
      | all => exact .inr ⟨rfl, .totals⟩
      | only number =>
          rw [outcome, edit, updateTotals]
          obtain ⟨error, hedit⟩ | ⟨place, player, _, changed, hplace, hfound, htotal, hedit⟩ :=
            card.editPlayer_cases number fun player => .ok ((), player.updateTotal)
          · rw [hedit]
            exact .inl ⟨error, rfl, rfl⟩
          · cases htotal
            rw [hedit]
            exact .inr ⟨rfl, .total hplace hfound⟩
  | addPlayer name => exact .inr ⟨rfl, .added name⟩
  | removePlayer => exact .inr ⟨rfl, .removed⟩
  | setNotes notes => exact .inr ⟨rfl, .notes notes⟩
  | updateParTotal => exact .inr ⟨rfl, .parTotal⟩

theorem IsAligned.edit_of_refused (haligned : card.IsAligned) {change : Edit} {error : CardError}
    (hrefused : card.outcome change = .error error) : card.edit change = card := by
  obtain ⟨_, -, hsame⟩ | ⟨hdone, -⟩ := haligned.edit_cases change
  · exact hsame
  · rw [hrefused] at hdone
    cases hdone

/-! ## What every edit keeps -/

/-- Whether an edit leaves the rows in place: it neither adds one nor removes one. -/
def Edit.keepsRows : Edit → Bool
  | .addPlayer _ | .removePlayer => false
  | _ => true

theorem rename_cases {player changed : Player} {name : String}
    (hrename : player.rename name = .ok changed) :
    trim name ≠ "" ∧ changed = { player with name := trim name } := by
  rw [Player.rename] at hrename
  split at hrename
  · cases hrename
  · next hname =>
    cases hrename
    exact ⟨by simpa using hname, rfl⟩

/-- A property that a row has when it is made for so many holes, and keeps when it is changed. -/
structure RowLaw (holes : Nat) (law : Player → Prop) : Prop where
  new : ∀ number name, law (.new number name holes)
  setScore : ∀ {player changed : Player} {hole : Nat} {value : Int} {qualifiers : String}
    {par : UInt32} {rank : Rank}, law player →
      player.setScore hole value qualifiers par = .ok (rank, changed) → law changed
  rename : ∀ {player changed : Player} {name : String}, law player →
    player.rename name = .ok changed → law changed
  updateTotal : ∀ {player : Player}, law player → law player.updateTotal
  ranked : ∀ {player : Player} {pars : List UInt32}, law player → pars.length = holes →
    law (player.ranked pars)

theorem rowLaw_length (holes : Nat) : RowLaw holes fun player => player.scores.length = holes where
  new := by simp [Player.new]
  setScore := by
    intro player changed hole value qualifiers par rank hlength hset
    obtain ⟨_, _, -, -, -, -, -, hscores⟩ := Player.setScore_cases hset
    rw [hscores, List.length_set]
    exact hlength
  rename := by
    intro player changed name hlength hrename
    rw [(rename_cases hrename).2]
    exact hlength
  updateTotal := fun hlength => hlength
  ranked := by
    intro player pars hlength hpars
    rw [Player.ranked, List.length_zipWith, hlength, hpars, Nat.min_self]

theorem numbers_set_players {place : Nat} {player changed : Player}
    (hfound : card.players[place]? = some player)
    (hnumber : changed.number = player.number) :
    { card with players := card.players.set place changed }.numbers = card.numbers :=
  map_set_of_eq hfound hnumber

variable {change : Edit} {after : Card} {law : Player → Prop}

theorem Effect.length_pars (heffect : card.Effect change after) :
    after.pars.length = card.pars.length := by
  cases heffect with
  | par value_eq inRange par_eq => exact List.length_set
  | removed =>
      rw [removePlayer]
      split <;> rfl
  | _ => rfl

theorem Effect.forall_players (heffect : card.Effect change after)
    (hlaw : RowLaw card.holes law) (hall : ∀ player ∈ card.players, law player) :
    ∀ player ∈ after.players, law player := by
  cases heffect with
  | score par_eq place_eq found set =>
      exact forall_mem_set hall (hlaw.setScore (hall _ (List.mem_of_getElem? found)) set)
  | par value_eq inRange par_eq =>
      intro player hmem
      obtain ⟨before, hbefore, rfl⟩ := List.mem_map.mp hmem
      exact hlaw.ranked (hall before hbefore) (by simp [holes])
  | name place_eq found renamed =>
      exact forall_mem_set hall (hlaw.rename (hall _ (List.mem_of_getElem? found)) renamed)
  | total place_eq found =>
      exact forall_mem_set hall (hlaw.updateTotal (hall _ (List.mem_of_getElem? found)))
  | totals =>
      intro player hmem
      obtain ⟨before, hbefore, rfl⟩ := List.mem_map.mp hmem
      exact hlaw.updateTotal (hall before hbefore)
  | added name =>
      intro player hmem
      obtain hmem | hmem := List.mem_append.mp hmem
      · exact hall player hmem
      · rw [List.mem_singleton.mp hmem]
        exact hlaw.new _ _
  | removed =>
      rw [removePlayer]
      split
      · exact hall
      · exact fun player hmem => hall player (List.dropLast_subset _ hmem)
  | notes notes => exact hall
  | parTotal => exact hall

theorem Effect.isAligned (heffect : card.Effect change after) (haligned : card.IsAligned) :
    after.IsAligned := by
  rw [IsAligned, heffect.length_pars]
  exact heffect.forall_players (rowLaw_length card.holes) haligned

theorem Effect.numbers_eq (heffect : card.Effect change after) (hkeeps : change.keepsRows = true) :
    after.numbers = card.numbers := by
  cases heffect with
  | score par_eq place_eq found set =>
      obtain ⟨field, word, -, -, -, hnumber, -⟩ := Player.setScore_cases set
      exact numbers_set_players found hnumber
  | name place_eq found renamed =>
      apply numbers_set_players found
      rw [(rename_cases renamed).2]
  | total place_eq found => exact numbers_set_players found rfl
  | added name => cases hkeeps
  | removed => cases hkeeps
  | par value_eq inRange par_eq =>
      rw [numbers, withPars, List.map_map]
      rfl
  | totals =>
      rw [numbers, updateTotals, List.map_map]
      rfl
  | notes notes => rfl
  | parTotal => rfl

/-- What an edit keeps when it is carried out, it keeps when it is refused. -/
theorem IsAligned.keeps_edit (haligned : card.IsAligned) (kept : Card → Prop) (hcard : kept card)
    (heffect : ∀ after, card.Effect change after → kept after) : kept (card.edit change) := by
  obtain ⟨_, -, hsame⟩ | ⟨-, hdone⟩ := haligned.edit_cases change
  · rw [hsame]
    exact hcard
  · exact heffect _ hdone

theorem IsAligned.edit (haligned : card.IsAligned) (change : Edit) :
    (card.edit change).IsAligned :=
  haligned.keeps_edit IsAligned haligned fun _ heffect => heffect.isAligned haligned

/-- What every edit keeps is kept by all edits together. -/
theorem IsAligned.keeps_run (haligned : card.IsAligned) (kept : Card → Prop) (hcard : kept card)
    (hstep : ∀ {card after : Card} {change : Edit}, card.Effect change after → kept card →
      kept after) (edits : List Edit) : kept (card.run edits) := by
  induction edits generalizing card with
  | nil => exact hcard
  | cons change edits ih =>
      apply ih (haligned.edit change)
      exact haligned.keeps_edit kept hcard fun after heffect => hstep heffect hcard

theorem IsAligned.run (haligned : card.IsAligned) (edits : List Edit) :
    (card.run edits).IsAligned :=
  haligned.keeps_run IsAligned haligned (fun heffect hcard => heffect.isAligned hcard) edits

theorem IsAligned.length_pars_edit (haligned : card.IsAligned) (change : Edit) :
    (card.edit change).pars.length = card.pars.length :=
  haligned.keeps_edit (fun after => after.pars.length = card.pars.length) rfl
    fun _ heffect => heffect.length_pars

theorem IsAligned.length_pars_run (haligned : card.IsAligned) (edits : List Edit) :
    (card.run edits).pars.length = card.pars.length :=
  haligned.keeps_run (fun after => after.pars.length = card.pars.length) rfl
    (fun heffect hcard => heffect.length_pars.trans hcard) edits

/-- What every row has at first, every row has after any edits. -/
theorem IsAligned.forall_players_run (haligned : card.IsAligned) (hlaw : RowLaw card.holes law)
    (hall : ∀ player ∈ card.players, law player) (edits : List Edit) :
    ∀ player ∈ (card.run edits).players, law player := by
  -- the law is one for so many holes, so their number is carried along
  have hboth := haligned.keeps_run
    (fun after => after.holes = card.holes ∧ ∀ player ∈ after.players, law player) ⟨rfl, hall⟩
    (fun {before after change} heffect hcard =>
      ⟨heffect.length_pars.trans hcard.1,
        heffect.forall_players (hcard.1 ▸ hlaw) hcard.2⟩) edits
  exact hboth.2

theorem IsAligned.numbers_edit (haligned : card.IsAligned) (hkeeps : change.keepsRows = true) :
    (card.edit change).numbers = card.numbers :=
  haligned.keeps_edit (fun after => after.numbers = card.numbers) rfl
    fun _ heffect => heffect.numbers_eq hkeeps

/-- The pars of a card are fields on the holes of its course. -/
theorem Opens.exists_parFields (hopens : card.Opens) :
    ∃ pars : List UInt32, pars.length = card.course.holes ∧ card.pars = parFields pars := by
  cases hopens with
  | started course space draw hstart =>
      rw [start] at hstart
      split at hstart
      · cases hstart
        exact ⟨course.pars, rfl, rfl⟩
      · cases hstart
  | stored doc hmade =>
      have hdescribed := ofDocument_eq_ok_iff.mp hmade
      exact ⟨doc.holePars, hdescribed.pars, congrArg Card.pars hdescribed.rest⟩

theorem RowLaw.start {course : Course} {space : Option UserspaceId} {draw : Draw}
    (hlaw : RowLaw card.holes law) (hstart : start course space draw = .ok card) :
    ∀ player ∈ card.players, law player := by
  rw [Card.start] at hstart
  split at hstart
  · cases hstart
    intro player hmem
    rw [List.mem_singleton.mp hmem]
    have hholes : course.holes = (parFields course.pars).length := by
      rw [parFields, List.length_mapIdx, Course.holes]
    rw [hholes]
    exact hlaw.new _ _
  · cases hstart

theorem RowLaw.ofDocument {doc : ScorecardDocument} (hlaw : RowLaw card.holes law)
    (hmade : ofDocument doc = .ok card) : ∀ player ∈ card.players, law player := by
  have hdescribed := ofDocument_eq_ok_iff.mp hmade
  have hholes : card.holes = doc.holePars.length := by
    rw [holes, hdescribed.rest, blank_eq, parFields, List.length_mapIdx]
  intro player hmem
  obtain ⟨place, hfound⟩ := List.mem_iff_getElem?.mp hmem
  obtain ⟨row, -, hrow⟩ := hdescribed.exists_row hfound
  rw [Player.ofDocument] at hrow
  split at hrow
  · cases hrow
  · apply Player.enterScores_invariant law _ hrow
    · rw [← hholes]
      exact hlaw.new _ _
    · intro before entered hole score par rank hset hbefore
      exact hlaw.setScore hbefore hset

theorem Opens.forall_players (hopens : card.Opens) (hlaw : RowLaw card.holes law) :
    ∀ player ∈ card.players, law player := by
  cases hopens with
  | started course space draw hstart => exact hlaw.start hstart
  | stored document hmade => exact hlaw.ofDocument hmade

theorem isAligned_start {course : Course} {space : Option UserspaceId} {draw : Draw}
    (hstart : start course space draw = .ok card) : card.IsAligned :=
  (rowLaw_length card.holes).start hstart

theorem isAligned_ofDocument {doc : ScorecardDocument} (hmade : ofDocument doc = .ok card) :
    card.IsAligned :=
  (rowLaw_length card.holes).ofDocument hmade

theorem Opens.isAligned (hopens : card.Opens) : card.IsAligned :=
  hopens.forall_players (rowLaw_length card.holes)

/-! ## Which edits are carried out -/

/-- What it takes for an edit to be carried out, given the number of holes and the numbers
of the rows. -/
def Edit.IsFit (holes : Nat) (numbers : List UInt32) : Edit → Prop
  | .setScore number hole value _ =>
    hole < holes ∧ number ∈ numbers ∧ 0 ≤ value ∧ value ≤ maxValue
  | .setPar hole value => (0 ≤ value ∧ value ≤ maxValue) ∧ hole < holes
  | .rename number name => number ∈ numbers ∧ trim name ≠ ""
  | .updateTotals (.only number) => number ∈ numbers
  | _ => True

theorem placeOf_eq_some_iff {number : UInt32} {place : Nat} :
    card.placeOf number = some place ↔
      ∃ player, card.players[place]? = some player ∧ player.number = number ∧
        ∀ earlier other, earlier < place → card.players[earlier]? = some other →
          other.number ≠ number := by
  rw [placeOf, List.findIdx?_eq_some_iff_getElem]
  simp only [beq_iff_eq]
  constructor
  · rintro ⟨hlt, hnumber, hearlier⟩
    refine ⟨_, List.getElem?_eq_getElem hlt, hnumber, ?_⟩
    intro earlier other hless hother
    obtain ⟨hroom, rfl⟩ := List.getElem?_eq_some_iff.mp hother
    exact hearlier earlier hless
  · rintro ⟨player, hfound, hnumber, hearlier⟩
    obtain ⟨hlt, rfl⟩ := List.getElem?_eq_some_iff.mp hfound
    exact ⟨hlt, hnumber, fun earlier hless =>
      hearlier earlier _ hless (List.getElem?_eq_getElem (hless.trans hlt))⟩

theorem placeOf_eq_findIdx? (card : Card) (number : UInt32) :
    card.placeOf number = card.numbers.findIdx? (· == number) := by
  rw [placeOf, numbers, List.findIdx?_map]
  rfl

theorem mem_numbers_of_placeOf {number : UInt32} {place : Nat}
    (hplace : card.placeOf number = some place) : number ∈ card.numbers := by
  obtain ⟨player, hfound, rfl, -⟩ := placeOf_eq_some_iff.mp hplace
  exact List.mem_map_of_mem (List.mem_of_getElem? hfound)

theorem exists_placeOf {number : UInt32} (hmem : number ∈ card.numbers) :
    ∃ place player, card.placeOf number = some place ∧
      card.players[place]? = some player := by
  obtain ⟨player, hplayer, hnumber⟩ := List.mem_map.mp hmem
  cases hplace : card.placeOf number with
  | none =>
      have hnone := List.findIdx?_eq_none_iff.mp hplace player hplayer
      rw [hnumber, beq_self_eq_true] at hnone
      cases hnone
  | some place =>
      obtain ⟨found, hfound, -⟩ := placeOf_eq_some_iff.mp hplace
      exact ⟨place, found, rfl, hfound⟩

theorem editPlayer_of_placeOf {number : UInt32} {place : Nat} {player changed : Player}
    {answer : A} (edit : Player → Except CardError (A × Player))
    (hplace : card.placeOf number = some place) (hfound : card.players[place]? = some player)
    (hedit : edit player = .ok (answer, changed)) :
    (card.editPlayer number edit).1 = .ok answer := by
  have hrow : editRow number edit card.players = .ok (answer, card.players.set place changed) :=
    editRow_eq_ok_iff.mpr ⟨place, player, changed, hplace, hfound, hedit, rfl⟩
  rw [editPlayer, hrow]

theorem exists_checkValue {value : Int} (hvalue : 0 ≤ value ∧ value ≤ maxValue) :
    ∃ word, checkValue value = .ok word := by
  rw [checkValue, if_pos hvalue]
  exact ⟨_, rfl⟩

theorem exists_setScore {player : Player} {hole : Nat} {field : Field} {value : Int}
    (hfield : player.scores[hole]? = some field) (hvalue : 0 ≤ value ∧ value ≤ maxValue)
    (qualifiers : String) (par : UInt32) :
    ∃ rank changed, player.setScore hole value qualifiers par = .ok (rank, changed) := by
  obtain ⟨word, hword⟩ := exists_checkValue hvalue
  rw [Player.setScore]
  simp only [hword, hfield]
  exact ⟨_, _, rfl⟩

theorem Effect.isFit (heffect : card.Effect change after) :
    change.IsFit card.pars.length card.numbers := by
  cases heffect with
  | score par_eq place_eq found set =>
      obtain ⟨field, word, -, rfl, hword, -⟩ := Player.setScore_cases set
      exact ⟨(List.getElem?_eq_some_iff.mp par_eq).1, mem_numbers_of_placeOf place_eq,
        Int.natCast_nonneg _, Int.ofNat_le.mpr hword⟩
  | par value_eq inRange par_eq =>
      subst value_eq
      exact ⟨⟨Int.natCast_nonneg _, Int.ofNat_le.mpr inRange⟩,
        (List.getElem?_eq_some_iff.mp par_eq).1⟩
  | name place_eq found renamed =>
      exact ⟨mem_numbers_of_placeOf place_eq, (rename_cases renamed).1⟩
  | total place_eq found => exact mem_numbers_of_placeOf place_eq
  | _ => trivial

/-- An edit is carried out exactly when its hole, its row and its value will do. -/
theorem IsAligned.outcome_eq_ok_iff (haligned : card.IsAligned) :
    card.outcome change = .ok () ↔ change.IsFit card.pars.length card.numbers := by
  constructor
  · intro hdone
    obtain ⟨error, hrefused, -⟩ | ⟨-, heffect⟩ := haligned.edit_cases change
    · rw [hdone] at hrefused
      cases hrefused
    · exact heffect.isFit
  · intro hfit
    cases change with
    | setScore number hole value qualifiers =>
        obtain ⟨hhole, hnumber, hvalue⟩ := hfit
        obtain ⟨place, player, hplace, hfound⟩ := exists_placeOf hnumber
        have hfield : hole < player.scores.length := by
          rw [haligned player (List.mem_of_getElem? hfound)]
          exact hhole
        have hpar : card.pars[hole]? = some card.pars[hole] := List.getElem?_eq_getElem hhole
        obtain ⟨rank, changed, hset⟩ := exists_setScore (List.getElem?_eq_getElem hfield) hvalue
          qualifiers card.pars[hole].value
        rw [outcome, setScore, hpar]
        dsimp only
        rw [editPlayer_of_placeOf _ hplace hfound hset]
        rfl
    | setPar hole value =>
        obtain ⟨hvalue, hhole⟩ := hfit
        obtain ⟨word, hword⟩ := exists_checkValue hvalue
        obtain ⟨error, -, hcheck | hpar⟩ | ⟨word, par, -, -, -, hset⟩ :=
          haligned.setPar_cases hole value
        · rw [hword] at hcheck
          cases hcheck
        · rw [List.getElem?_eq_none_iff] at hpar
          omega
        · rw [outcome, hset]
    | rename number name =>
        obtain ⟨hnumber, hname⟩ := hfit
        obtain ⟨place, player, hplace, hfound⟩ := exists_placeOf hnumber
        have hrename : (player.rename name).map (fun player => ((), player)) =
            .ok ((), { player with name := trim name }) := by
          rw [Player.rename, if_neg (by simpa using hname)]
          rfl
        exact editPlayer_of_placeOf
          (fun player => (player.rename name).map fun player => ((), player))
          hplace hfound hrename
    | updateTotals rows =>
        cases rows with
        | all => rfl
        | only number =>
            obtain ⟨place, player, hplace, hfound⟩ := exists_placeOf hfit
            exact editPlayer_of_placeOf (fun player => .ok ((), player.updateTotal))
              hplace hfound rfl
    | _ => rfl

/-! ## Why an edit is refused -/

/-- What stands in the way of entering a value. -/
def valueObjection (value : Int) : Option CardError :=
  if 0 ≤ value ∧ value ≤ maxValue then none else some (.invalidValue value)

/-- The first thing that stands in the way of an edit, in the order in which it is looked for,
given the number of holes and the numbers of the rows. -/
def Edit.objection (holes : Nat) (numbers : List UInt32) : Edit → Option CardError
  | .setScore number hole value _ =>
    if holes ≤ hole then some (.holeOutOfRange hole holes)
    else if number ∈ numbers then valueObjection value
    else some (.unknownPlayer number)
  | .setPar hole value =>
    (valueObjection value).or (if holes ≤ hole then some (.holeOutOfRange hole holes) else none)
  | .rename number name =>
    if number ∈ numbers then (if trim name = "" then some .blankName else none)
    else some (.unknownPlayer number)
  | .updateTotals (.only number) =>
    if number ∈ numbers then none else some (.unknownPlayer number)
  | _ => none

theorem error_of_checkValue {value : Int} {error : CardError}
    (hcheck : checkValue value = .error error) : valueObjection value = some error := by
  rw [checkValue] at hcheck
  rw [valueObjection]
  split at hcheck
  · cases hcheck
  · next hvalue =>
    cases hcheck
    rw [if_neg hvalue]

theorem error_of_setScore {player : Player} {hole : Nat} {value : Int} {qualifiers : String}
    {par : UInt32} {error : CardError} (hroom : hole < player.scores.length)
    (hset : player.setScore hole value qualifiers par = .error error) :
    valueObjection value = some error := by
  rw [Player.setScore] at hset
  cases hcheck : checkValue value with
  | error refused =>
      simp only [hcheck] at hset
      cases hset
      exact error_of_checkValue hcheck
  | ok word =>
      simp only [hcheck, List.getElem?_eq_getElem hroom] at hset
      cases hset

theorem error_of_rename {player : Player} {name : String} {error : CardError}
    (hrename : player.rename name = .error error) : error = .blankName ∧ trim name = "" := by
  rw [Player.rename] at hrename
  split at hrename
  · next hblank =>
    cases hrename
    exact ⟨rfl, by simpa using hblank⟩
  · cases hrename

/-- An edit of a row is refused since no row has the number, or by the row that has it. -/
theorem error_of_editRow {number : UInt32} {change : Player → Except CardError (A × Player)}
    {players : List Player} {error : CardError}
    (hedit : editRow number change players = .error error) :
    (number ∉ players.map Player.number ∧ error = .unknownPlayer number) ∨
      number ∈ players.map Player.number ∧ ∃ player ∈ players, change player = .error error := by
  induction players with
  | nil =>
      cases hedit
      exact .inl ⟨List.not_mem_nil, rfl⟩
  | cons player rest ih =>
      rw [List.map_cons, List.mem_cons]
      rw [editRow] at hedit
      split at hedit
      · next hnumber =>
        have hchange := map_eq_error_iff.mp hedit
        exact .inr ⟨.inl hnumber.symm, player, List.mem_cons_self, hchange⟩
      · next hnumber =>
        obtain ⟨hmissing, rfl⟩ | ⟨hmem, other, hother, hchange⟩ := ih (map_eq_error_iff.mp hedit)
        · exact .inl ⟨not_or.mpr ⟨fun heq => hnumber heq.symm, hmissing⟩, rfl⟩
        · exact .inr ⟨.inr hmem, other, List.mem_cons_of_mem _ hother, hchange⟩

theorem error_of_editPlayer {number : UInt32} {change : Player → Except CardError (A × Player)}
    {error : CardError} (hedit : (card.editPlayer number change).1 = .error error) :
    (number ∉ card.numbers ∧ error = .unknownPlayer number) ∨
      number ∈ card.numbers ∧ ∃ player ∈ card.players, change player = .error error := by
  rw [editPlayer] at hedit
  split at hedit
  · cases hedit
  · next refused hrow =>
    cases hedit
    exact error_of_editRow hrow

/-- An edit is refused for the first thing that stands in its way. -/
theorem IsAligned.objection_of_refused (haligned : card.IsAligned) {error : CardError}
    (hrefused : card.outcome change = .error error) :
    change.objection card.pars.length card.numbers = some error := by
  cases change with
  | setScore number hole value qualifiers =>
      rw [outcome, map_eq_error_iff, setScore] at hrefused
      rw [Edit.objection]
      cases hpar : card.pars[hole]? with
      | none =>
          rw [hpar] at hrefused
          cases hrefused
          exact if_pos (List.getElem?_eq_none_iff.mp hpar)
      | some par =>
          have hhole := (List.getElem?_eq_some_iff.mp hpar).1
          rw [if_neg (Nat.not_le.mpr hhole)]
          rw [hpar] at hrefused
          obtain ⟨hmissing, rfl⟩ | ⟨hmem, player, hplayer, hset⟩ := error_of_editPlayer hrefused
          · exact if_neg hmissing
          · rw [if_pos hmem]
            exact error_of_setScore (haligned player hplayer ▸ hhole) hset
  | setPar hole value =>
      -- ranking the rows is never what fails: then the edit would be fit
      have hunfit : ¬(Edit.setPar hole value).IsFit card.pars.length card.numbers := by
        intro hfit
        rw [haligned.outcome_eq_ok_iff.mpr hfit] at hrefused
        cases hrefused
      rw [outcome, setPar] at hrefused
      rw [Edit.objection]
      cases hcheck : checkValue value with
      | error refused =>
          rw [hcheck] at hrefused
          cases hrefused
          rw [error_of_checkValue hcheck, Option.some_or]
      | ok word =>
          obtain ⟨rfl, hword⟩ := checkValue_eq_ok_iff.mp hcheck
          have hvalue : (0 : Int) ≤ word.toNat ∧ (word.toNat : Int) ≤ maxValue :=
            ⟨Int.natCast_nonneg _, Int.ofNat_le.mpr hword⟩
          rw [valueObjection, if_pos hvalue, Option.none_or]
          cases hpar : card.pars[hole]? with
          | none =>
              rw [hcheck, hpar] at hrefused
              cases hrefused
              exact if_pos (List.getElem?_eq_none_iff.mp hpar)
          | some par =>
              exact absurd ⟨hvalue, (List.getElem?_eq_some_iff.mp hpar).1⟩ hunfit
  | rename number name =>
      rw [Edit.objection]
      obtain ⟨hmissing, rfl⟩ | ⟨hmem, player, -, hrename⟩ := error_of_editPlayer hrefused
      · exact if_neg hmissing
      · obtain ⟨rfl, hblank⟩ := error_of_rename (map_eq_error_iff.mp hrename)
        rw [if_pos hmem, if_pos hblank]
  | updateTotals rows =>
      cases rows with
      | all => cases hrefused
      | only number =>
          obtain ⟨hmissing, rfl⟩ | ⟨-, player, -, htotal⟩ := error_of_editPlayer hrefused
          · exact if_neg hmissing
          · cases htotal
  | _ => cases hrefused

end Scorekeeper.Card
