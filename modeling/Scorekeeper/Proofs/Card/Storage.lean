import Scorekeeper.Proofs.Card.Defects
import Scorekeeper.Proofs.Card.Documents
import Scorekeeper.Proofs.Card.Ids
import Scorekeeper.Proofs.Card.Marks

/-!
# A card is made again from its document

A document holds the values and marks of the scores; ranks, totals and tallies are worked
out anew, by entering one score after the other into an empty row.  An exact row is
determined by what is entered in it, so the row that comes out is the one that was
written, and so is the card.
-/

namespace Scorekeeper

open Text Json Codec

/-- What a stored score says: a value, and marks whatever their order and blanks. -/
def ScoreDocument.entry (doc : ScoreDocument) : UInt32 × Qualifiers :=
  (doc.value, .ofString doc.qualifiers)

namespace Player

variable {player other : Player} {pars : List UInt32} {hole : Nat}

/-- What is entered on a row, hole by hole. -/
def entered (player : Player) : List (UInt32 × Qualifiers) :=
  player.scores.map fun field => (field.value, field.qualifiers)

theorem IsExact.score_unique (hexact : player.IsExact pars) (hother : other.IsExact pars)
    (hnumber : player.number = other.number) (hentered : player.entered = other.entered) :
    player.scores = other.scores := by
  apply List.ext_getElem
  · rw [hexact.length_eq, hother.length_eq]
  · intro hole hlt hlt'
    have hroom : hole < pars.length := hexact.length_eq ▸ hlt
    have hscore := hexact.score hole _ _ (List.getElem?_eq_getElem hlt)
      (List.getElem?_eq_getElem hroom)
    have hsame := hother.score hole _ _ (List.getElem?_eq_getElem hlt')
      (List.getElem?_eq_getElem hroom)
    have hvalues : (player.scores[hole].value, player.scores[hole].qualifiers) =
        (other.scores[hole].value, other.scores[hole].qualifiers) := by
      have hpair := congrArg (fun entered => entered[hole]?) hentered
      simpa [entered, hlt, hlt'] using hpair
    obtain ⟨hvalue, hmarks⟩ := Prod.mk.inj hvalues
    generalize player.scores[hole] = field at *
    generalize other.scores[hole] = field' at *
    cases field with
    | mk value qualifiers owner place rank =>
        cases field' with
        | mk value' qualifiers' owner' place' rank' =>
            obtain ⟨howner, hplace, -, hrank⟩ := hscore
            obtain ⟨howner', hplace', -, hrank'⟩ := hsame
            simp only at *
            subst hvalue hmarks howner hplace hrank howner' hplace' hrank'
            rw [hnumber]

/-- An exact row is determined by its number, its name and what is entered on it. -/
theorem IsExact.unique (hexact : player.IsExact pars) (hother : other.IsExact pars)
    (hnumber : player.number = other.number) (hname : player.name = other.name)
    (hentered : player.entered = other.entered) : player = other := by
  have hscores := hexact.score_unique hother hnumber hentered
  have htotal : player.total = other.total := by
    rw [hexact.total, hother.total, hnumber, hscores]
  have htally : player.tally = other.tally := by
    apply hexact.counts.unique
    rw [hscores]
    exact hother.counts
  cases player
  cases other
  simp only at hnumber hname hscores htotal htally
  rw [hnumber, hname, hscores, htotal, htally]

theorem entered_setScore {after : Player} {value : Int} {qualifiers : String} {par : UInt32}
    {rank : Rank} (hset : player.setScore hole value qualifiers par = .ok (rank, after)) :
    ∃ word : UInt32, value = word.toNat ∧
      after.entered = player.entered.set hole (word, .ofString qualifiers) := by
  obtain ⟨field, word, -, hvalue, -, -, -, hscores⟩ := setScore_cases hset
  refine ⟨word, hvalue, ?_⟩
  rw [entered, hscores, List.map_set]
  rfl

/-- What is entered on a row after the scores of a document have been, from `hole` on. -/
theorem entered_enterScores {docs : List ScoreDocument} {after : Player}
    (henter : player.enterScores hole docs pars = .ok after) (hsame : docs.length = pars.length)
    (hroom : hole + docs.length = player.entered.length) :
    after.entered = player.entered.take hole ++ docs.map ScoreDocument.entry := by
  induction docs generalizing player hole pars with
  | nil =>
      cases henter
      rw [List.length_nil, Nat.add_zero] at hroom
      rw [List.map_nil, List.append_nil, List.take_of_length_le hroom.ge]
  | cons doc docs ih =>
      cases pars with
      | nil => cases hsame
      | cons par pars =>
          rw [enterScores, bind_eq_ok_iff] at henter
          obtain ⟨⟨rank, next⟩, hset, hrest⟩ := henter
          obtain ⟨word, hvalue, hnext⟩ := entered_setScore hset
          obtain rfl : doc.value = word := UInt32.toNat_inj.mp (Int.ofNat.inj hvalue)
          rw [List.length_cons] at hroom
          have hlt : hole < (player.entered.set hole doc.entry).length := by
            rw [List.length_set]
            omega
          have hprefix :
              next.entered.take (hole + 1) = player.entered.take hole ++ [doc.entry] := by
            rw [hnext, ← ScoreDocument.entry, List.take_succ_eq_append_getElem hlt, List.take_set,
              List.set_eq_of_length_le (by simp), List.getElem_set_self]
          rw [ih hrest (Nat.succ.inj hsame), hprefix, List.append_assoc]
          · rfl
          · rw [hnext, List.length_set]
            omega

theorem entered_ofDocument {row : PlayerDocument} (hmade : ofDocument row pars = .ok player) :
    player.entered = row.holeScores.map ScoreDocument.entry := by
  rw [ofDocument] at hmade
  split at hmade
  · cases hmade
  · next hlength =>
    rw [entered_enterScores hmade (not_not.mp hlength)]
    · rfl
    · simpa [entered, new] using hlength

/-- An exact row is made again from what its document says of it. -/
theorem IsExact.ofDocument_eq {row : PlayerDocument} (hexact : player.IsExact pars)
    (hlength : pars.length < UInt32.size) (hrow : player.document.Alike List.Perm row) :
    ofDocument row pars = .ok player := by
  obtain ⟨hrow, -⟩ := hrow
  have hnumber : row.playerNumber = player.number := by
    rw [hrow]
    rfl
  have hname : row.name = player.name := by
    rw [hrow]
    rfl
  have hscores : row.holeScores = player.scores.map Field.document := by
    rw [hrow]
    rfl
  have hpasses : ∀ check ∈ row.checks pars.length, check.passes = true := by
    rw [PlayerDocument.forall_checks_iff, hscores, List.length_map, List.forall_mem_map]
    exact ⟨hexact.length_eq, hexact.inRange⟩
  rw [← Check.findSome?_error?_eq_none_iff, ← errorOf_row, errorOf_eq_none_iff] at hpasses
  obtain ⟨made, hmade⟩ := hpasses
  obtain ⟨hmadeNumber, hmadeName⟩ := titles_ofDocument hmade
  rw [hmade]
  congr 1
  apply (isExact_ofDocument hlength hmade).unique hexact (hmadeNumber.trans hnumber)
  · rw [hmadeName, hname, hexact.chosenName_eq]
  · rw [entered_ofDocument hmade, hscores, List.map_map]
    apply List.map_congr_left
    intro field _
    simp [Field.document, ScoreDocument.entry, Qualifiers.ofString_text]

end Player

namespace Course

theorem ofDocument_document (course : Course) : ofDocument course.document = .ok course := by
  obtain ⟨id, labels, pars, enabled, labels_ne_nil, length_eq, inRange⟩ := course
  rw [ofDocument, document, make, dif_neg labels_ne_nil, dif_neg (fun hne => hne length_eq)]
  split
  · next par hpar =>
    have hlarge := List.find?_some hpar
    have hsmall := inRange par (List.mem_of_find?_eq_some hpar)
    simp only [decide_eq_true_eq] at hlarge
    omega
  · rfl

end Course

namespace Card

variable {card : Card} {doc : ScorecardDocument} {stored : Json}

/-- A card that has not run out of numbers is made again from its document. -/
theorem IsExact.ofDocument_eq (hexact : card.IsExact) (hholes : card.course.holes ≤ holeLimit)
    (hplayers : card.players.length < UInt32.size) (hdoc : card.document.Alike List.Perm doc) :
    ofDocument doc = .ok card := by
  obtain ⟨hdoc, hrows⟩ := hdoc
  have hpars : doc.holePars = card.parValues := by
    rw [hdoc]
    rfl
  obtain ⟨hsame, hrow⟩ := List.forall₂_iff_get.mp hrows
  rw [document, List.length_map] at hsame
  rw [ofDocument_eq_ok_iff]
  refine ⟨?_, ?_, ?_, ?_, ?_, ?_, ?_, ?_, ?_⟩
  · rw [hdoc]
    exact card.id.parse_text
  · rw [hdoc]
    exact card.course.ofDocument_document
  · rw [hdoc]
    exact card.course.length_eq
  · rw [hpars]
    exact hexact.length_eq
  · intro hnone
    rw [hnone, List.length_nil] at hsame
    exact hexact.players_ne (List.length_eq_zero_iff.mp hsame)
  · rw [hpars]
    exact hexact.inRange
  · intro place row hfound
    obtain ⟨hlt, rfl⟩ := List.getElem?_eq_some_iff.mp hfound
    have hplace : place < card.players.length := hsame ▸ hlt
    have halike := hrow place (by simpa [document] using hplace) hlt
    have hnumber := hexact.numbered place card.players[place]
      (List.getElem?_eq_getElem hplace) (by omega)
    have hsaid : doc.players[place].playerNumber = card.players[place].number := by
      have hboth := congrArg PlayerDocument.playerNumber halike.1
      simpa [document, Player.document] using hboth
    rw [hsaid, hnumber, UInt32.ofNat_add, UInt32.add_comm]
    rfl
  · rw [List.forall₂_iff_get]
    refine ⟨hsame.symm, ?_⟩
    intro place hlt hplace
    have halike := hrow place (by simpa [document] using hplace) hlt
    have hplayer := hexact.player card.players[place] (List.getElem_mem hplace)
    rw [hpars]
    apply hplayer.ofDocument_eq (length_lt_size hexact hholes)
    simpa [document] using halike
  · have hnotes : doc.notes = card.notes := by
      rw [hdoc]
      rfl
    have hparFields := hexact.pars_eq
    have htotal := hexact.parTotal
    rw [hpars, hnotes, blank_eq, ← hparFields, ← htotal]

/-! ## Reading a card -/

theorem isPlain_document (card : Card) :
    (ScorecardDocument.codec.encode card.document).IsPlain 5 :=
  ScorecardDocument.isLawful_codec_reordered.plain _ card.nodup_stats

/-- What is read from the text of a card as a value has the members of its document. -/
theorem reordered_of_readText (hread : any.readText card.payload = .ok stored) :
    Reordered (ScorecardDocument.codec.encode card.document) stored := by
  rw [payload, Codec.print, readText_text _ card.isPlain_document] at hread
  obtain ⟨value, hdecode, hsame⟩ := (isLawful_any 5).restores _ _ depthLimit card.isPlain_document
    (by decide) ⟨_, .refl _, rfl⟩
  obtain rfl := Except.ok.inj (hdecode.symm.trans hread)
  exact hsame

/-- A value that the codec of cards reads and that describes a card. -/
theorem IsExact.decode_reordered (hexact : card.IsExact)
    (hholes : card.course.holes ≤ holeLimit) (hplayers : card.players.length < UInt32.size)
    (hstored : Reordered (ScorecardDocument.codec.encode card.document) stored) :
    ∃ document, ScorecardDocument.codec.decode depthLimit stored.tree = .ok document ∧
      ofDocument document = .ok card := by
  obtain ⟨document, hread, halike⟩ := ScorecardDocument.isLawful_codec_reordered.restores
    card.document stored.tree depthLimit card.nodup_stats (by decide) ⟨stored, hstored, rfl⟩
  exact ⟨document, hread, hexact.ofDocument_eq hholes hplayers halike⟩

theorem IsExact.readText_payload (hexact : card.IsExact)
    (hholes : card.course.holes ≤ holeLimit) (hplayers : card.players.length < UInt32.size) :
    ∃ document, ScorecardDocument.codec.readText card.payload = .ok document ∧
      ofDocument document = .ok card := by
  rw [payload, Codec.print, readText_text _ card.isPlain_document]
  exact hexact.decode_reordered hholes hplayers (.refl _)

theorem IsExact.readJson_reordered (hexact : card.IsExact)
    (hholes : card.course.holes ≤ holeLimit) (hplayers : card.players.length < UInt32.size)
    (hstored : Reordered (ScorecardDocument.codec.encode card.document) stored) :
    ∃ document, ScorecardDocument.codec.readJson stored = .ok document ∧
      ofDocument document = .ok card := by
  obtain ⟨document, hread, hmade⟩ := hexact.decode_reordered hholes hplayers hstored
  refine ⟨document, ?_, hmade⟩
  rw [readJson, hread]

end Card

end Scorekeeper
