import Scorekeeper.Card.Edit
import Scorekeeper.Proofs.Card.Rows
import Scorekeeper.Proofs.Outcome
import Scorekeeper.Proofs.Replaced

/-!
# Cards that can be reached

A card is started on a course or made from a document, and then edited.  Derived values
are updated along several routes: entering a score moves them along, overriding a par
ranks every row anew, and making a card from its document replays all scores.  Here one
invariant is proved for all of them.  It says of every derived value that it is exactly
what the pars and the scores make it, after any edits, refused ones included.
-/

namespace Scorekeeper.Card

inductive Edit where
  | setScore (number : UInt32) (hole : Nat) (value : Int) (qualifiers : String)
  | setPar (hole : Nat) (value : Int)
  | addPlayer (name : Option String)
  | removePlayer
  | rename (number : UInt32) (name : String)
  | setNotes (notes : String)
  | updateParTotal
  | updateTotals (rows : Rows)
  deriving DecidableEq

/-- The card that an edit leaves behind, whether it is refused or not. -/
def edit (card : Card) : Edit → Card
  | .setScore number hole value qualifiers => (card.setScore number hole value qualifiers).2
  | .setPar hole value => (card.setPar hole value).2
  | .addPlayer name => (card.addPlayer name).2
  | .removePlayer => card.removePlayer.2
  | .rename number name => (card.rename number name).2
  | .setNotes notes => card.setNotes notes
  | .updateParTotal => card.updateParTotal
  | .updateTotals rows => (card.updateTotals rows).2

def run (card : Card) (edits : List Edit) : Card :=
  edits.foldl edit card

/-- The ways in which a card comes to be. -/
inductive Opens (card : Card) : Prop where
  | started (course : Course) (space : Option UserspaceId) (draw : Draw)
      (starts : start course space draw = .ok card)
  | stored (document : ScorecardDocument) (made : ofDocument document = .ok card)

/-- Everything derived on a card is what its pars and scores make it. -/
structure IsExact (card : Card) : Prop where
  length_eq : card.parValues.length = card.course.holes
  pars_eq : card.pars = parFields card.parValues
  inRange : ∀ par ∈ card.parValues, par.toNat ≤ maxValue
  parTotal : card.parTotal = { Field.total none with value := Field.sum card.pars }
  players_ne : card.players ≠ []
  player : ∀ player ∈ card.players, player.IsExact card.parValues
  /-- Numbers are words, so that only so many rows can be told apart by them. -/
  numbered : ∀ (place : Nat) (player : Player), card.players[place]? = some player →
    place + 1 < UInt32.size → player.number = UInt32.ofNat (place + 1)

variable {card : Card} {A : Type}

/-! ## Numbers of rows -/

/-- Rows are numbered by their places, as far as numbers go: they are words. -/
def AreNumbered (players : List Player) : Prop :=
  ∀ (place : Nat) (player : Player), players[place]? = some player →
    place + 1 < UInt32.size → player.number = UInt32.ofNat (place + 1)

section Numbers

variable {players : List Player}

theorem areNumbered_new (name : Option String) (holes : Nat) :
    AreNumbered [.new 1 name holes] := by
  intro place player hfound _
  cases place with
  | zero =>
      cases hfound
      rfl
  | succ place => cases hfound

theorem AreNumbered.set (hnumbered : AreNumbered players) {place : Nat}
    {player changed : Player} (hfound : players[place]? = some player)
    (hnumber : changed.number = player.number) : AreNumbered (players.set place changed) := by
  intro other row hrow hroom
  obtain ⟨rfl, rfl⟩ | ⟨-, hrow⟩ := getElem?_set_cases hrow
  · rw [hnumber]
    exact hnumbered other player hfound hroom
  · exact hnumbered other row hrow hroom

theorem AreNumbered.map (hnumbered : AreNumbered players) {change : Player → Player}
    (hnumber : ∀ player, (change player).number = player.number) :
    AreNumbered (players.map change) := by
  intro place row hrow hroom
  rw [List.getElem?_map] at hrow
  obtain ⟨player, hfound, rfl⟩ := Option.map_eq_some_iff.mp hrow
  rw [hnumber]
  exact hnumbered place player hfound hroom

theorem AreNumbered.dropLast (hnumbered : AreNumbered players) :
    AreNumbered players.dropLast := by
  intro place row hrow hroom
  rw [List.getElem?_dropLast] at hrow
  split at hrow
  · exact hnumbered place row hrow hroom
  · cases hrow

theorem AreNumbered.append (hnumbered : AreNumbered players) {player : Player}
    (hnumber : players.length + 1 < UInt32.size →
      player.number = UInt32.ofNat (players.length + 1)) :
    AreNumbered (players ++ [player]) := by
  intro place row hrow hroom
  rw [List.getElem?_append] at hrow
  split at hrow
  · exact hnumbered place row hrow hroom
  · -- what is found behind the old rows is the new one
    obtain ⟨hlt, rfl⟩ := List.getElem?_eq_some_iff.mp hrow
    rw [List.length_singleton, Nat.lt_one_iff] at hlt
    obtain rfl : place = players.length := by omega
    simpa using hnumber hroom

/-- The next number is that of the next row, as long as numbers do not run out. -/
theorem AreNumbered.nextNumber_eq (hnumbered : AreNumbered card.players)
    (hroom : card.players.length + 1 < UInt32.size) :
    card.nextNumber = UInt32.ofNat (card.players.length + 1) := by
  have hmax (count : Nat) (hcount : count ≤ card.players.length) :
      ((card.players.take count).map Player.number).foldl max 0 = UInt32.ofNat count := by
    induction count with
    | zero => rfl
    | succ count ih =>
        have hlt : count < card.players.length := hcount
        have hnumber := hnumbered count card.players[count]
          (List.getElem?_eq_getElem hlt) (by omega)
        rw [List.take_succ_eq_append_getElem hlt, List.map_append, List.foldl_append,
          ih (Nat.le_of_lt hlt)]
        simp only [List.map_cons, List.map_nil, List.foldl_cons, List.foldl_nil, hnumber]
        rw [UInt32.max_def, if_pos]
        rw [UInt32.le_iff_toNat_le, UInt32.toNat_ofNat_of_lt' (by omega),
          UInt32.toNat_ofNat_of_lt' (by omega)]
        exact Nat.le_succ count
  rw [nextNumber, UInt32.ofNat_add]
  have hall := hmax card.players.length (Nat.le_refl _)
  rw [List.take_length] at hall
  rw [hall]
  rfl

end Numbers

@[simp]
theorem value_parFields (pars : List UInt32) : (parFields pars).map Field.value = pars := by
  apply List.ext_getElem
  · simp [parFields]
  · intro hole _ _
    simp [parFields, Field.par]

theorem length_lt_size (hexact : card.IsExact) (hholes : card.course.holes ≤ holeLimit) :
    card.parValues.length < UInt32.size := by
  rw [hexact.length_eq]
  exact Nat.lt_of_le_of_lt hholes (by decide)

/-! ## Cards that are opened -/

theorem blank_eq (id : ScorecardId) (course : Course) (pars : List UInt32) (notes : String) :
    blank id course pars notes =
      { id, course, pars := parFields pars
        parTotal := { Field.total none with value := Field.sum (parFields pars) }
        players := [], notes } :=
  rfl

/-- A card with exact rows on pars that fields may hold. -/
theorem isExact_blank {course : Course} {pars : List UInt32} {players : List Player}
    (hlength : pars.length = course.holes) (hinRange : ∀ par ∈ pars, par.toNat ≤ maxValue)
    (hne : players ≠ []) (hplayers : ∀ player ∈ players, player.IsExact pars)
    (hnumbered : ∀ (place : Nat) (player : Player), players[place]? = some player →
      place + 1 < UInt32.size → player.number = UInt32.ofNat (place + 1))
    (id : ScorecardId) (notes : String) :
    IsExact { blank id course pars notes with players } where
  length_eq := by simpa [blank_eq, parValues] using hlength
  pars_eq := by simp [blank_eq, parValues]
  inRange := by simpa [blank_eq, parValues] using hinRange
  parTotal := rfl
  players_ne := hne
  player := by simpa [blank_eq, parValues] using hplayers
  numbered := hnumbered

theorem isExact_start {course : Course} {space : Option UserspaceId} {draw : Draw}
    (hstart : start course space draw = .ok card) (hholes : card.course.holes ≤ holeLimit) :
    card.IsExact := by
  rw [start] at hstart
  split at hstart
  · cases hstart
    have hlength : course.pars.length < UInt32.size :=
      Nat.lt_of_le_of_lt hholes (by decide)
    apply isExact_blank rfl course.inRange (List.cons_ne_nil _ _)
    · intro player hmem
      rw [List.mem_singleton.mp hmem]
      exact Player.isExact_new 1 none hlength
    · exact areNumbered_new none course.holes
  · cases hstart

theorem checkLength_eq_ok_iff {list : HoleList} {expected actual : Nat} {done : Unit} :
    checkLength list expected actual = .ok done ↔ actual = expected := by
  simp [checkLength]

theorem checkNumbering_eq_ok_iff {position : UInt32} {docs : List PlayerDocument}
    {done : Unit} :
    checkNumbering position docs = .ok done ↔
      ∀ (place : Nat) (doc : PlayerDocument), docs[place]? = some doc →
        doc.playerNumber = position + UInt32.ofNat place := by
  induction docs generalizing position with
  | nil => simp [checkNumbering]
  | cons first docs ih =>
      have hnext (place : Nat) :
          position + UInt32.ofNat (place + 1) = position + 1 + UInt32.ofNat place := by
        rw [UInt32.ofNat_add, UInt32.add_comm (UInt32.ofNat place), UInt32.add_assoc]
        rfl
      rw [checkNumbering]
      constructor
      · intro hcheck
        split at hcheck
        · next hfirst =>
          intro place doc hfound
          cases place with
          | zero =>
              cases hfound
              simpa using hfirst
          | succ place =>
              rw [hnext]
              exact ih.mp hcheck place doc hfound
        · cases hcheck
      · intro hall
        have hfirst : first.playerNumber = position := by simpa using hall 0 first rfl
        rw [if_pos hfirst, ih]
        intro place doc hfound
        rw [← hnext]
        exact hall (place + 1) doc hfound

/-- A course keeps everything that its document says. -/
theorem document_course {doc : CourseDocument} {course : Course}
    (hmade : Course.ofDocument doc = .ok course) : course.document = doc := by
  rw [Course.ofDocument, Course.make] at hmade
  split at hmade
  · cases hmade
  · split at hmade
    · cases hmade
    · split at hmade
      · cases hmade
      · cases hmade
        rfl

/-- What it takes for a document to describe a card. -/
structure IsDescribed (card : Card) (doc : ScorecardDocument) : Prop where
  id : ScorecardId.parse doc.scorecardId = .ok card.id
  course : Course.ofDocument doc.course = .ok card.course
  labels : doc.holeNumbers.length = card.course.holes
  pars : doc.holePars.length = card.course.holes
  players_ne : doc.players ≠ []
  inRange : ∀ par ∈ doc.holePars, par.toNat ≤ maxValue
  numbered : ∀ (place : Nat) (row : PlayerDocument), doc.players[place]? = some row →
    row.playerNumber = 1 + UInt32.ofNat place
  players : List.Forall₂ (fun row player => Player.ofDocument row doc.holePars = .ok player)
    doc.players card.players
  rest : card =
    { blank card.id card.course doc.holePars doc.notes with players := card.players }

theorem ofDocument_eq_ok_iff {doc : ScorecardDocument} :
    ofDocument doc = .ok card ↔ card.IsDescribed doc := by
  have hvalues (par : UInt32) :
      discard (checkValue par.toNat) = .ok () ↔ par.toNat ≤ maxValue := by
    rw [discard_eq_ok_iff]
    constructor
    · rintro ⟨word, hword⟩
      obtain ⟨hsame, hle⟩ := checkValue_eq_ok_iff.mp hword
      omega
    · intro hle
      exact ⟨par, checkValue_eq_ok_iff.mpr ⟨rfl, hle⟩⟩
  rw [ofDocument]
  simp only [bind_eq_ok_iff, throwIf_eq_ok_iff, checkLength_eq_ok_iff,
    checkNumbering_eq_ok_iff, forM_eq_ok_iff, mapM_eq_ok_iff, hvalues]
  constructor
  · rintro ⟨id, hid, course, hcourse, _, hlabels, _, hpars, hne, _, hinRange, _, hnumbered,
      players, hplayers, hcard⟩
    cases hcard
    exact ⟨hid, hcourse, hlabels, hpars, by simpa using hne, hinRange, hnumbered, hplayers, rfl⟩
  · intro hdescribed
    exact ⟨card.id, hdescribed.id, card.course, hdescribed.course, (), hdescribed.labels, (),
      hdescribed.pars, by simpa using hdescribed.players_ne, (), hdescribed.inRange, (),
      hdescribed.numbered, card.players, hdescribed.players,
      congrArg Except.ok hdescribed.rest.symm⟩

/-- Every row of a card was made from the row of the document at its place. -/
theorem IsDescribed.exists_row {doc : ScorecardDocument} (hdescribed : card.IsDescribed doc)
    {place : Nat} {player : Player} (hfound : card.players[place]? = some player) :
    ∃ row, doc.players[place]? = some row ∧
      Player.ofDocument row doc.holePars = .ok player := by
  obtain ⟨-, hnone⟩ | ⟨row, made, hrow, hmade, hsame⟩ :=
    getElem?_cases_of_forall₂ hdescribed.players place
  · rw [hfound] at hnone
    cases hnone
  · rw [hfound] at hmade
    cases hmade
    exact ⟨row, hrow, hsame⟩

theorem IsDescribed.areNumbered {doc : ScorecardDocument} (hdescribed : card.IsDescribed doc) :
    AreNumbered card.players := by
  intro place player hfound _
  obtain ⟨row, hrow, hmade⟩ := hdescribed.exists_row hfound
  rw [(Player.titles_ofDocument hmade).1, hdescribed.numbered place row hrow, UInt32.ofNat_add,
    UInt32.add_comm]
  rfl

theorem isExact_ofDocument {doc : ScorecardDocument} (hmade : ofDocument doc = .ok card)
    (hholes : card.course.holes ≤ holeLimit) : card.IsExact := by
  have hdescribed := ofDocument_eq_ok_iff.mp hmade
  have hlength : doc.holePars.length < UInt32.size := by
    rw [hdescribed.pars]
    exact Nat.lt_of_le_of_lt hholes (by decide)
  rw [hdescribed.rest]
  apply isExact_blank hdescribed.pars hdescribed.inRange
  · intro hnone
    have hsame := hdescribed.players.length_eq
    rw [hnone, List.length_nil] at hsame
    exact hdescribed.players_ne (List.length_eq_zero_iff.mp hsame)
  · intro player hmem
    obtain ⟨place, hfound⟩ := List.mem_iff_getElem?.mp hmem
    obtain ⟨row, -, hrow⟩ := hdescribed.exists_row hfound
    exact Player.isExact_ofDocument hlength hrow
  · exact hdescribed.areNumbered

theorem Opens.isExact (hopens : card.Opens) (hholes : card.course.holes ≤ holeLimit) :
    card.IsExact := by
  cases hopens with
  | started course space draw hstart => exact isExact_start hstart hholes
  | stored document hmade => exact isExact_ofDocument hmade hholes

/-! ## What edits keep -/

/-- An edit of a row is carried out when it can be made to the first row with its number. -/
theorem editRow_eq_ok_iff {number : UInt32} {change : Player → Except CardError (A × Player)}
    {players after : List Player} {answer : A} :
    editRow number change players = .ok (answer, after) ↔
      ∃ place player changed,
        players.findIdx? (fun player => player.number == number) = some place ∧
          players[place]? = some player ∧ change player = .ok (answer, changed) ∧
            after = players.set place changed := by
  induction players generalizing after with
  | nil => simp [editRow]
  | cons first rest ih =>
      rw [editRow, List.findIdx?_cons]
      by_cases hfirst : first.number = number
      · simp only [hfirst, if_true, beq_self_eq_true, map_eq_ok_iff]
        constructor
        · rintro ⟨⟨_, changed⟩, hchange, hsame⟩
          cases hsame
          exact ⟨0, first, changed, rfl, rfl, hchange, rfl⟩
        · rintro ⟨place, player, changed, hplace, hfound, hchange, rfl⟩
          cases hplace
          cases hfound
          exact ⟨(answer, changed), hchange, rfl⟩
      · have hskip : (first.number == number) = false := beq_eq_false_iff_ne.mpr hfirst
        simp only [hfirst, if_false, hskip, Bool.false_eq_true, map_eq_ok_iff,
          Option.map_eq_some_iff]
        constructor
        · rintro ⟨⟨_, last⟩, hrest, hsame⟩
          cases hsame
          obtain ⟨place, player, changed, hplace, hfound, hchange, rfl⟩ := ih.mp hrest
          exact ⟨place + 1, player, changed, ⟨place, hplace, rfl⟩, hfound, hchange, rfl⟩
        · rintro ⟨_, player, changed, ⟨place, hplace, rfl⟩, hfound, hchange, rfl⟩
          exact ⟨(answer, rest.set place changed),
            ih.mpr ⟨place, player, changed, hplace, hfound, hchange, rfl⟩, rfl⟩

/-- A change of rows that leaves each exact and under its number. -/
def KeepsRows (card : Card) (change : Player → Except CardError (A × Player)) : Prop :=
  ∀ (player after : Player) (answer : A), player.IsExact card.parValues →
    change player = .ok (answer, after) →
      after.IsExact card.parValues ∧ after.number = player.number

theorem editPlayer_eq (card : Card) (number : UInt32)
    (change : Player → Except CardError (A × Player)) :
    ∃ players, (card.editPlayer number change).2 = { card with players } := by
  rw [editPlayer]
  split
  · exact ⟨_, rfl⟩
  · exact ⟨card.players, rfl⟩

theorem IsExact.editPlayer (hexact : card.IsExact) {number : UInt32}
    {change : Player → Except CardError (A × Player)} (hkeeps : card.KeepsRows change) :
    (card.editPlayer number change).2.IsExact := by
  rw [Card.editPlayer]
  split
  · next answer players hedit =>
    obtain ⟨place, player, changed, -, hfound, hchange, rfl⟩ := editRow_eq_ok_iff.mp hedit
    obtain ⟨hchanged, hnumber⟩ :=
      hkeeps player changed answer (hexact.player player (List.mem_of_getElem? hfound)) hchange
    refine { hexact with players_ne := ?_, player := ?_, numbered := ?_ }
    · simpa using hexact.players_ne
    · exact forall_mem_set hexact.player hchanged
    · exact AreNumbered.set hexact.numbered hfound hnumber
  · exact hexact

theorem getElem?_parValues {hole : Nat} {par : Field} (hpar : card.pars[hole]? = some par) :
    card.parValues[hole]? = some par.value := by
  rw [parValues, List.getElem?_map, hpar]
  rfl

theorem IsExact.setScore (hexact : card.IsExact) (hholes : card.course.holes ≤ holeLimit)
    (number : UInt32) (hole : Nat) (value : Int) (qualifiers : String) :
    (card.setScore number hole value qualifiers).2.IsExact := by
  rw [Card.setScore]
  split
  · exact hexact
  · next par hpar =>
    apply hexact.editPlayer
    intro player after rank hplayer hset
    exact hplayer.setScore (length_lt_size hexact hholes) (getElem?_parValues hpar) hset

theorem IsExact.rename (hexact : card.IsExact) (number : UInt32) (name : String) :
    (card.rename number name).2.IsExact := by
  apply hexact.editPlayer
  intro player after answer hplayer hrename
  obtain ⟨renamed, hrenamed, hsame⟩ := map_eq_ok_iff.mp hrename
  cases hsame
  exact hplayer.rename hrenamed

theorem IsExact.updateTotals (hexact : card.IsExact) (rows : Rows) :
    (card.updateTotals rows).2.IsExact := by
  cases rows with
  | all =>
      have hplayers : card.players.map Player.updateTotal = card.players := by
        calc
          card.players.map Player.updateTotal = card.players.map fun player => player :=
            List.map_congr_left fun player hmem => (hexact.player player hmem).updateTotal_eq
          _ = card.players := List.map_id' _
      rw [Card.updateTotals, hplayers]
      exact hexact
  | only number =>
      apply hexact.editPlayer
      intro player after answer hplayer hupdate
      cases hupdate
      rw [hplayer.updateTotal_eq]
      exact ⟨hplayer, rfl⟩

/-- Rows can be ranked against pars that are as many as their scores. -/
theorem rerankRows_eq {pars : List UInt32} {players : List Player}
    (hsame : ∀ player ∈ players, player.scores.length = pars.length) :
    rerankRows pars players = (.ok (), players.map fun player => player.ranked pars) := by
  induction players with
  | nil => rfl
  | cons player players ih =>
      obtain ⟨hplayer, hrest⟩ := List.forall_mem_cons.mp hsame
      rw [rerankRows]
      simp only [Player.updateRanks_eq hplayer, ih hrest, List.map_cons]

/-- Every row has a score for each hole. -/
def IsAligned (card : Card) : Prop :=
  ∀ player ∈ card.players, player.scores.length = card.pars.length

theorem IsExact.isAligned (hexact : card.IsExact) : card.IsAligned := by
  intro player hmem
  rw [(hexact.player player hmem).length_eq, parValues, List.length_map]

/-- The card with other pars: they are added up, and every row is ranked against them. -/
def withPars (card : Card) (pars : List Field) : Card :=
  { updateParTotal { card with pars } with
    players := card.players.map fun player => player.ranked (pars.map Field.value) }

/-- An override of a par is refused and changes nothing, or it reaches every row. -/
theorem IsAligned.setPar_cases (haligned : card.IsAligned) (hole : Nat) (value : Int) :
    (∃ error, card.setPar hole value = (.error error, card) ∧
        (checkValue value = .error error ∨ card.pars[hole]? = none)) ∨
      ∃ (word : UInt32) (par : Field), value = word.toNat ∧ word.toNat ≤ maxValue ∧
        card.pars[hole]? = some par ∧ card.setPar hole value =
          (.ok (), card.withPars (card.pars.set hole { par with value := word })) := by
  rw [Card.setPar]
  cases hcheck : checkValue value with
  | error error => exact .inl ⟨error, rfl, .inl rfl⟩
  | ok word =>
      cases hpar : card.pars[hole]? with
      | none => exact .inl ⟨_, rfl, .inr rfl⟩
      | some par =>
          obtain ⟨hvalue, hword⟩ := checkValue_eq_ok_iff.mp hcheck
          refine .inr ⟨word, par, hvalue, hword, rfl, ?_⟩
          have hsame : ∀ player ∈ card.players, player.scores.length =
              ((card.pars.set hole { par with value := word }).map Field.value).length := by
            simpa [IsAligned] using haligned
          have hrows := rerankRows_eq hsame
          simp only [withPars, parValues, updateParTotal, hrows]

/-- The card after the par of a hole has been overridden. -/
def override (card : Card) (hole : Nat) (value : UInt32) : Card :=
  let pars := card.parValues.set hole value
  { card with
    pars := parFields pars
    parTotal := { Field.total none with value := Field.sum (parFields pars) }
    players := card.players.map fun player => player.ranked pars }

@[simp]
theorem parValues_override (card : Card) (hole : Nat) (value : UInt32) :
    (card.override hole value).parValues = card.parValues.set hole value :=
  value_parFields _

/-- The par of a hole of an exact card is overridden, or the override is refused. -/
theorem IsExact.setPar_cases (hexact : card.IsExact) (hole : Nat) (value : Int) :
    (∃ error, card.setPar hole value = (.error error, card)) ∨
      ∃ word : UInt32, value = word.toNat ∧ word.toNat ≤ maxValue ∧ hole < card.pars.length ∧
        card.setPar hole value = (.ok (), card.override hole word) := by
  obtain ⟨error, hrefused, -⟩ | ⟨word, par, hvalue, hword, hpar, hset⟩ :=
    hexact.isAligned.setPar_cases hole value
  · exact .inl ⟨error, hrefused⟩
  · refine .inr ⟨word, hvalue, hword, (List.getElem?_eq_some_iff.mp hpar).1, ?_⟩
    have hpars : card.pars.set hole { par with value := word } =
        parFields (card.parValues.set hole word) := by
      have hfield : { par with value := word } = Field.par hole word := by
        rw [hexact.pars_eq, parFields, List.getElem?_mapIdx] at hpar
        obtain ⟨old, -, rfl⟩ := Option.map_eq_some_iff.mp hpar
        rfl
      conv_lhs => rw [hexact.pars_eq]
      rw [hfield, parFields, parFields, List.mapIdx_set]
    rw [hset]
    simp only [withPars, hpars, Card.updateParTotal, value_parFields, hexact.parTotal, override]

theorem IsExact.override (hexact : card.IsExact) (hholes : card.course.holes ≤ holeLimit)
    {value : UInt32} (hvalue : value.toNat ≤ maxValue) (hole : Nat) :
    (card.override hole value).IsExact where
  length_eq := by
    rw [parValues_override, List.length_set]
    exact hexact.length_eq
  pars_eq := by
    rw [parValues_override]
    rfl
  inRange := by
    rw [parValues_override]
    exact forall_mem_set hexact.inRange hvalue
  parTotal := rfl
  players_ne := by simpa [Card.override] using hexact.players_ne
  player := by
    rw [parValues_override]
    intro player hmem
    obtain ⟨before, hbefore, rfl⟩ := List.mem_map.mp hmem
    apply (hexact.player before hbefore).ranked List.length_set
    simpa using length_lt_size hexact hholes
  numbered := AreNumbered.map hexact.numbered fun _ => rfl

theorem IsExact.addPlayer (hexact : card.IsExact) (hholes : card.course.holes ≤ holeLimit)
    (name : Option String) : (card.addPlayer name).2.IsExact := by
  have hnew : (Player.new card.nextNumber name card.holes).IsExact card.parValues := by
    have hholes : card.holes = card.parValues.length := by simp [holes, parValues]
    rw [hholes]
    exact Player.isExact_new _ _ (length_lt_size hexact ‹_›)
  refine { hexact with players_ne := ?_, player := ?_, numbered := ?_ }
  · simp [Card.addPlayer]
  · intro player hmem
    obtain hmem | hmem := List.mem_append.mp hmem
    · exact hexact.player player hmem
    · rw [List.mem_singleton.mp hmem]
      exact hnew
  · exact AreNumbered.append hexact.numbered (AreNumbered.nextNumber_eq hexact.numbered)

theorem IsExact.removePlayer (hexact : card.IsExact) : card.removePlayer.2.IsExact := by
  rw [Card.removePlayer]
  split
  · exact hexact
  · next hmany =>
    refine { hexact with players_ne := ?_, player := ?_, numbered := ?_ }
    · intro hnone
      have hlength := congrArg List.length hnone
      rw [List.length_dropLast, List.length_nil] at hlength
      omega
    · intro player hmem
      exact hexact.player player (List.dropLast_subset _ hmem)
    · exact AreNumbered.dropLast hexact.numbered

theorem IsExact.updateParTotal_eq (hexact : card.IsExact) : card.updateParTotal = card := by
  have htotal := hexact.parTotal
  cases card with
  | mk id course pars parTotal players notes =>
      simp only [Card.updateParTotal, mk.injEq, true_and, and_true] at htotal ⊢
      rw [htotal]

theorem IsExact.edit (hexact : card.IsExact) (hholes : card.course.holes ≤ holeLimit)
    (change : Edit) : (card.edit change).IsExact := by
  cases change with
  | setScore number hole value qualifiers =>
      exact hexact.setScore hholes number hole value qualifiers
  | setPar hole value =>
      obtain ⟨error, hset⟩ | ⟨word, -, hword, -, hset⟩ := hexact.setPar_cases hole value
      · rw [Card.edit, hset]
        exact hexact
      · rw [Card.edit, hset]
        exact hexact.override hholes hword hole
  | addPlayer name => exact hexact.addPlayer hholes name
  | removePlayer => exact hexact.removePlayer
  | rename number name => exact hexact.rename number name
  | setNotes notes => exact { hexact with }
  | updateParTotal =>
      rw [Card.edit, hexact.updateParTotal_eq]
      exact hexact
  | updateTotals rows => exact hexact.updateTotals rows

/-- No edit touches the id of a card or its course. -/
theorem edit_keeps (card : Card) (change : Edit) :
    (card.edit change).id = card.id ∧ (card.edit change).course = card.course := by
  have hplayer {B : Type} (number : UInt32)
      (rewrite : Player → Except CardError (B × Player)) :
      (card.editPlayer number rewrite).2.id = card.id ∧
        (card.editPlayer number rewrite).2.course = card.course := by
    obtain ⟨players, hplayers⟩ := editPlayer_eq card number rewrite
    rw [hplayers]
    exact ⟨rfl, rfl⟩
  cases change with
  | setScore number hole value qualifiers =>
      rw [edit, setScore]
      split
      · exact ⟨rfl, rfl⟩
      · exact hplayer _ _
  | setPar hole value =>
      rw [edit, setPar]
      split
      · exact ⟨rfl, rfl⟩
      · split
        · exact ⟨rfl, rfl⟩
        · exact ⟨rfl, rfl⟩
  | addPlayer name => exact ⟨rfl, rfl⟩
  | removePlayer =>
      rw [edit, removePlayer]
      split
      · exact ⟨rfl, rfl⟩
      · exact ⟨rfl, rfl⟩
  | rename number name => exact hplayer _ _
  | setNotes notes => exact ⟨rfl, rfl⟩
  | updateParTotal => exact ⟨rfl, rfl⟩
  | updateTotals rows =>
      cases rows with
      | all => exact ⟨rfl, rfl⟩
      | only number => exact hplayer _ _

theorem run_keeps (card : Card) (edits : List Edit) :
    (card.run edits).id = card.id ∧ (card.run edits).course = card.course := by
  induction edits generalizing card with
  | nil => exact ⟨rfl, rfl⟩
  | cons change edits ih =>
      obtain ⟨hid, hcourse⟩ := edit_keeps card change
      obtain ⟨hlastId, hlastCourse⟩ := ih (card.edit change)
      exact ⟨hlastId.trans hid, hlastCourse.trans hcourse⟩

theorem IsExact.run (hexact : card.IsExact) (hholes : card.course.holes ≤ holeLimit)
    (edits : List Edit) : (card.run edits).IsExact := by
  induction edits generalizing card with
  | nil => exact hexact
  | cons change edits ih =>
      apply ih (hexact.edit hholes change)
      rw [(edit_keeps card change).2]
      exact hholes

end Scorekeeper.Card
