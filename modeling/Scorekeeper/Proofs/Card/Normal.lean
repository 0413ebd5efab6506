import Scorekeeper.Proofs.Card.Derived
import Scorekeeper.Proofs.Card.Storage

/-!
# What a document says

Of a document only a part is read: ids, pars, numbers, names and scores, the names up to
blanks around them and the marks up to blanks and their order.  Documents that say the same
make the same card, or fail alike.  A card writes a document that says what the one did from
which it was made, so making a card and writing it down again is a projection, and what it
writes is worked out here field by field.
-/

namespace Scorekeeper

open Text

/-! ## Documents that say the same -/

/-- Rows that have the same number, name and entries, however they are written. -/
structure PlayerDocument.SaysAs (row other : PlayerDocument) : Prop where
  number : other.playerNumber = row.playerNumber
  name : Player.chosenName other.playerNumber (some other.name) =
    Player.chosenName row.playerNumber (some row.name)
  entries : other.holeScores.map ScoreDocument.entry = row.holeScores.map ScoreDocument.entry

/-- Rows that differ in nothing but what is derived from their scores. -/
structure PlayerDocument.Agrees (row other : PlayerDocument) : Prop where
  number : other.playerNumber = row.playerNumber
  name : other.name = row.name
  scores : other.holeScores = row.holeScores

/-- Documents that differ in nothing but the total of the pars, the texts of the hole numbers
and their rows, and in these as `rows` allows. -/
structure ScorecardDocument.Matches (rows : PlayerDocument → PlayerDocument → Prop)
    (doc other : ScorecardDocument) : Prop where
  id : other.scorecardId = doc.scorecardId
  course : other.course = doc.course
  labels : other.holeNumbers.length = doc.holeNumbers.length
  pars : other.holePars = doc.holePars
  players : List.Forall₂ rows doc.players other.players
  notes : other.notes = doc.notes

theorem PlayerDocument.Agrees.saysAs {row other : PlayerDocument} (hagrees : row.Agrees other) :
    row.SaysAs other where
  number := hagrees.number
  name := by rw [hagrees.number, hagrees.name]
  entries := by rw [hagrees.scores]

theorem ScorecardDocument.Matches.imp {rows wider : PlayerDocument → PlayerDocument → Prop}
    {doc other : ScorecardDocument} (hmatches : doc.Matches rows other)
    (hrows : ∀ row other, rows row other → wider row other) : doc.Matches wider other :=
  { hmatches with players := hmatches.players.imp hrows }

theorem Player.enterScores_congr {docs others : List ScoreDocument}
    (hsame : others.map ScoreDocument.entry = docs.map ScoreDocument.entry) (player : Player)
    (hole : Nat) (pars : List UInt32) :
    player.enterScores hole others pars = player.enterScores hole docs pars := by
  induction docs generalizing others player hole pars with
  | nil =>
      rw [List.map_eq_nil_iff.mp hsame]
  | cons doc docs ih =>
      obtain ⟨other, rest, rfl, hentry, hrest⟩ := List.map_eq_cons_iff.mp hsame
      obtain ⟨hvalue, hmarks⟩ := Prod.mk.inj hentry
      cases pars with
      | nil => rfl
      | cons par pars =>
          have hset : player.setScore hole other.value.toNat other.qualifiers par =
              player.setScore hole doc.value.toNat doc.qualifiers par := by
            simp only [Player.setScore, hvalue, hmarks]
          rw [Player.enterScores, Player.enterScores, hset]
          exact bind_congr fun entered => ih hrest entered.2 (hole + 1) pars

theorem PlayerDocument.SaysAs.ofDocument_eq {row other : PlayerDocument}
    (hreads : row.SaysAs other) (pars : List UInt32) :
    Player.ofDocument other pars = Player.ofDocument row pars := by
  have hlength : other.holeScores.length = row.holeScores.length := by
    simpa using congrArg List.length hreads.entries
  have hnew : Player.new other.playerNumber (some other.name) pars.length =
      Player.new row.playerNumber (some row.name) pars.length := by
    rw [Player.new, Player.new, hreads.name, hreads.number]
  rw [Player.ofDocument, Player.ofDocument, hlength, hnew,
    Player.enterScores_congr hreads.entries]

namespace Card

theorem checkNumbering_congr {rows others : List PlayerDocument}
    (hrows : List.Forall₂ PlayerDocument.SaysAs rows others) (position : UInt32) :
    checkNumbering position others = checkNumbering position rows := by
  induction hrows generalizing position with
  | nil => rfl
  | cons hrow _ ih => rw [checkNumbering, checkNumbering, hrow.number, ih]

theorem mapM_ofDocument_congr {rows others : List PlayerDocument}
    (hrows : List.Forall₂ PlayerDocument.SaysAs rows others) (pars : List UInt32) :
    others.mapM (fun row => Player.ofDocument row pars) =
      rows.mapM fun row => Player.ofDocument row pars := by
  induction hrows with
  | nil => rfl
  | cons hrow _ ih => rw [List.mapM_cons, List.mapM_cons, hrow.ofDocument_eq, ih]

/-- Documents that say the same make the same card, or fail alike. -/
theorem ofDocument_congr {doc other : ScorecardDocument}
    (hreads : doc.Matches PlayerDocument.SaysAs other) : ofDocument other = ofDocument doc := by
  have hempty : other.players.isEmpty = doc.players.isEmpty := by
    rw [Bool.eq_iff_iff, List.isEmpty_iff_length_eq_zero, List.isEmpty_iff_length_eq_zero,
      hreads.players.length_eq]
  simp only [ofDocument, hreads.id, hreads.course, hreads.labels, hreads.pars, hreads.notes, hempty,
    checkNumbering_congr hreads.players, mapM_ofDocument_congr hreads.players]

end Card

/-! ## What a card writes -/

/-- The marks of `raw` in one canonical text: in order, and without blanks. -/
def IsSortedText (raw : List Char) (text : String) : Prop :=
  text.toList.Pairwise (· ≤ ·) ∧ text.toList.Perm (raw.filter fun c => !isBlank c)

/-- What a row written by a card says, given the row from which the card was made. -/
structure PlayerDocument.IsNormalOf (pars : List UInt32) (row written : PlayerDocument) :
    Prop where
  number : written.playerNumber = row.playerNumber
  name : written.name =
    if trim row.name = "" then Player.defaultName row.playerNumber else trim row.name
  scores : List.Forall₂
    (fun score kept => kept.value = score.value ∧
      IsSortedText score.qualifiers.toList kept.qualifiers)
    row.holeScores written.holeScores
  total : written.totalScore.value.toNat =
    (row.holeScores.map fun score => score.value.toNat).sum
  marks : IsSortedText (row.holeScores.flatMap fun score => score.qualifiers.toList)
    written.totalScore.qualifiers
  stats : written.stats.map (fun entry => (entry.1, entry.2.toNat)) =
    Rank.all.map fun rank =>
      (rank, (row.holeScores.zipWith
        (fun score par => Rank.classify score.value.toNat par.toNat) pars).count rank)

/-- What a card writes, given the document from which it was made. -/
structure ScorecardDocument.IsNormalOf (doc written : ScorecardDocument) : Prop where
  id : written.scorecardId = doc.scorecardId
  course : written.course = doc.course
  labels : written.holeNumbers = doc.course.holeNumbers
  pars : written.holePars = doc.holePars
  parTotal : written.holesParTotal.toNat = (doc.holePars.map UInt32.toNat).sum
  players : List.Forall₂ (PlayerDocument.IsNormalOf doc.holePars) doc.players written.players
  notes : written.notes = doc.notes

theorem isSortedText_ofString (raw : String) :
    IsSortedText raw.toList (Qualifiers.ofString raw).text := by
  rw [IsSortedText, Qualifiers.text, String.toList_ofList]
  exact ⟨(Qualifiers.ofString raw).ordered, Qualifiers.perm_ofString raw⟩

namespace Player

variable {player : Player} {pars : List UInt32} {row : PlayerDocument}

theorem chosenName_eq (number : UInt32) (name : String) :
    chosenName number (some name) = if trim name = "" then defaultName number else trim name := by
  simp [chosenName]

theorem entry_document (field : Field) :
    field.document.entry = (field.value, field.qualifiers) := by
  rw [ScoreDocument.entry, Field.document, Qualifiers.ofString_text]

/-- A row that is written down says what the row said from which it was made. -/
theorem saysAs_document (hmade : ofDocument row pars = .ok player) :
    row.SaysAs player.document := by
  obtain ⟨hnumber, hname⟩ := titles_ofDocument hmade
  refine ⟨hnumber, ?_, ?_⟩
  · change chosenName player.number (some player.name) = _
    rw [chosenName_eq, hname, trim_chosenName, if_neg (chosenName_ne _ _)]
  · rw [← entered_ofDocument hmade, document, List.map_map, entered]
    exact List.map_congr_left fun field _ => entry_document field

theorem holeScores_document (hmade : ofDocument row pars = .ok player) :
    player.document.holeScores = row.holeScores.map fun score =>
      { value := score.value, qualifiers := (Qualifiers.ofString score.qualifiers).text } := by
  have hentered := congrArg
    (List.map fun entry => ScoreDocument.mk entry.1 (Qualifiers.text entry.2))
    (entered_ofDocument hmade)
  rw [entered, List.map_map, List.map_map] at hentered
  exact hentered

theorem map_value_scores (hmade : ofDocument row pars = .ok player) :
    player.scores.map Field.value = row.holeScores.map ScoreDocument.value := by
  have hentered := congrArg (List.map Prod.fst) (entered_ofDocument hmade)
  rw [entered, List.map_map, List.map_map] at hentered
  exact hentered

theorem isSortedText_total (hderived : player.IsDerived pars)
    (hmade : ofDocument row pars = .ok player) :
    IsSortedText (row.holeScores.flatMap fun score => score.qualifiers.toList)
      player.total.qualifiers.text := by
  rw [IsSortedText, Qualifiers.text, String.toList_ofList, List.filter_flatMap]
  refine ⟨hderived.ordered, hderived.marks.trans ?_⟩
  have hmarks : (player.scores.flatMap fun field => field.qualifiers.marks) =
      row.holeScores.flatMap fun score => (Qualifiers.ofString score.qualifiers).marks := by
    have hentered := congrArg (List.flatMap fun entry => Qualifiers.marks entry.2)
      (entered_ofDocument hmade)
    simpa [entered, ScoreDocument.entry, List.flatMap_map] using hentered
  rw [hmarks]
  exact List.Perm.flatMap_left _ fun score _ => Qualifiers.perm_ofString score.qualifiers

theorem map_rank_scores (hderived : player.IsDerived pars)
    (hmade : ofDocument row pars = .ok player) :
    player.scores.map Field.rank =
      (row.holeScores.zipWith (fun score par => Rank.classify score.value.toNat par.toNat)
        pars).map some := by
  rw [hderived.ranks, List.map_zipWith]
  calc
    _ = (player.scores.map Field.value).zipWith
          (fun value par => some (Rank.classify value.toNat par.toNat)) pars := by
      rw [List.zipWith_map_left]
    _ = _ := by rw [map_value_scores hmade, List.zipWith_map_left]

/-- What a row writes, worked out from the row from which it was made. -/
theorem isNormalOf_document (hmade : ofDocument row pars = .ok player)
    (hholes : pars.length ≤ holeLimit) : row.IsNormalOf pars player.document := by
  have hlength : pars.length < UInt32.size := Nat.lt_of_le_of_lt hholes (by decide)
  have hderived := (isExact_ofDocument hlength hmade).isDerived hholes
  obtain ⟨hnumber, hname⟩ := titles_ofDocument hmade
  refine ⟨hnumber, ?_, ?_, ?_, isSortedText_total hderived hmade, ?_⟩
  · rw [← chosenName_eq]
    exact hname
  · rw [holeScores_document hmade, List.forall₂_map_right_iff, List.forall₂_same]
    exact fun score _ => ⟨rfl, isSortedText_ofString score.qualifiers⟩
  · have hvalues := congrArg (fun values => (values.map UInt32.toNat).sum) (map_value_scores hmade)
    simp only [List.map_map] at hvalues
    exact hderived.total.trans hvalues
  · rw [document, hderived.stats]
    apply List.map_congr_left
    intro rank _
    rw [map_rank_scores hderived hmade,
      List.count_map_of_injective _ _ (Option.some_injective Rank)]

end Player

namespace Card

variable {card : Card} {doc : ScorecardDocument}

theorem IsDescribed.course_eq (hdescribed : card.IsDescribed doc) :
    card.course.document = doc.course :=
  document_course hdescribed.course

theorem IsDescribed.document_id (hdescribed : card.IsDescribed doc) :
    card.document.scorecardId = doc.scorecardId := by
  have hid := hdescribed.id
  rw [ScorecardId.parse] at hid
  split at hid
  · rw [document, ← Except.ok.inj hid]
  · cases hid

theorem IsDescribed.document_pars (hdescribed : card.IsDescribed doc) :
    card.document.holePars = doc.holePars := by
  rw [document, hdescribed.rest]
  exact value_parFields doc.holePars

theorem IsDescribed.document_notes (hdescribed : card.IsDescribed doc) :
    card.document.notes = doc.notes := by
  rw [document, hdescribed.rest]
  rfl

theorem IsDescribed.forall₂_document (hdescribed : card.IsDescribed doc)
    {rows : PlayerDocument → PlayerDocument → Prop}
    (hrows : ∀ row player, Player.ofDocument row doc.holePars = .ok player →
      rows row player.document) :
    List.Forall₂ rows doc.players card.document.players := by
  rw [document, List.forall₂_map_right_iff]
  exact hdescribed.players.imp hrows

/-- A card that is written down says what the document said from which it was made. -/
theorem IsDescribed.saysAs (hdescribed : card.IsDescribed doc) :
    doc.Matches PlayerDocument.SaysAs card.document where
  id := hdescribed.document_id
  course := hdescribed.course_eq
  labels := by
    rw [hdescribed.labels]
    exact card.course.length_eq
  pars := hdescribed.document_pars
  players := hdescribed.forall₂_document fun _ _ hmade => Player.saysAs_document hmade
  notes := hdescribed.document_notes

theorem IsDescribed.isNormalOf (hdescribed : card.IsDescribed doc)
    (hholes : doc.holePars.length ≤ holeLimit) : doc.IsNormalOf card.document where
  id := hdescribed.document_id
  course := hdescribed.course_eq
  labels := congrArg CourseDocument.holeNumbers hdescribed.course_eq
  pars := hdescribed.document_pars
  parTotal := by
    have hexact := isExact_ofDocument (ofDocument_eq_ok_iff.mpr hdescribed)
      (hdescribed.pars ▸ hholes)
    have htotal := (hexact.isDerived (hdescribed.pars ▸ hholes)).parTotal
    rw [← hdescribed.document_pars]
    simpa [document, parValues, Function.comp_def] using htotal
  players := hdescribed.forall₂_document fun _ _ hmade => Player.isNormalOf_document hmade hholes
  notes := hdescribed.document_notes

/-- Making a card ignores what is derived in a document; writing the card down gives the
document in its normal form, from which the same card is made. -/
theorem ofDocument_projects (doc : ScorecardDocument) :
    (∀ other, doc.Matches PlayerDocument.Agrees other → ofDocument other = ofDocument doc) ∧
      ∀ card, ofDocument doc = .ok card →
        ofDocument card.document = .ok card ∧
          (doc.holePars.length ≤ holeLimit → doc.IsNormalOf card.document) := by
  constructor
  · intro other hagrees
    exact ofDocument_congr (hagrees.imp fun _ _ hrow => hrow.saysAs)
  · intro card hmade
    have hdescribed := ofDocument_eq_ok_iff.mp hmade
    exact ⟨(ofDocument_congr hdescribed.saysAs).trans hmade, hdescribed.isNormalOf⟩

/-- A round whose totals were tampered with, and whose names and marks were written freely. -/
def tamperedRound : ScorecardDocument :=
  { openedRound.document with
    holeNumbers := ["one", "two"]
    holesParTotal := 99
    players :=
      [{ playerNumber := 1, name := "  ", holeScores := [⟨3, "b a"⟩, ⟨1, ""⟩]
         totalScore := ⟨7, "z"⟩, stats := [(.holeInOne, 5)] }] }

/-- The same round with totals that are right, but for that of the pars. -/
def mendedRound : ScorecardDocument :=
  { tamperedRound with
    holeNumbers := ["", ""]
    players :=
      [{ playerNumber := 1, name := "  ", holeScores := [⟨3, "b a"⟩, ⟨1, ""⟩]
         totalScore := ⟨4, "ab"⟩, stats := [(.holeInOne, 1), (.even, 1)] }] }

def scoredRound : Card :=
  openedRound.run [.setScore 1 0 3 "ba", .setScore 1 1 1 ""]

theorem ofDocument_projects_tamperedRound :
    tamperedRound.Matches PlayerDocument.Agrees mendedRound ∧
      ofDocument mendedRound = ofDocument tamperedRound ∧
      ofDocument tamperedRound = .ok scoredRound ∧
      ofDocument scoredRound.document = .ok scoredRound ∧
      tamperedRound.holePars.length ≤ holeLimit ∧
      tamperedRound.IsNormalOf scoredRound.document := by
  have hagrees : tamperedRound.Matches PlayerDocument.Agrees mendedRound :=
    ⟨rfl, rfl, rfl, rfl, .cons ⟨rfl, rfl, rfl⟩ .nil, rfl⟩
  have hmade : ofDocument tamperedRound = .ok scoredRound := rfl
  have hholes : tamperedRound.holePars.length ≤ holeLimit := by decide
  obtain ⟨hignores, hprojects⟩ := ofDocument_projects tamperedRound
  obtain ⟨hagain, hnormal⟩ := hprojects scoredRound hmade
  exact ⟨hagrees, hignores mendedRound hagrees, hmade, hagain, hholes, hnormal hholes⟩

end Card

end Scorekeeper
