import Scorekeeper.Card.Archive
import Scorekeeper.Proofs.Card.Counts
import Scorekeeper.Proofs.Outcome
import Scorekeeper.Proofs.Text.Trimmed

/-!
# Rows that are exact

Three things on a row are derived from its scores: the rank kept with each score, the
total with all marks, and the tally of ranks.  A row is exact when all three are what
the scores and the pars make them.  Every way of changing a row is shown to keep it
exact: entering a score moves the tally along, ranking against other pars rebuilds it,
and making a row from its document enters one score after the other.
-/

namespace Scorekeeper

open Text

/-- A value is entered exactly when a field may hold it. -/
theorem checkValue_eq_ok_iff {value : Int} {word : UInt32} :
    checkValue value = .ok word ↔ value = word.toNat ∧ word.toNat ≤ maxValue := by
  rw [checkValue]
  constructor
  · intro hcheck
    split at hcheck
    · next hrange =>
      obtain ⟨hnonneg, hle⟩ := hrange
      have hsize : value.toNat < UInt32.size := by
        have hmax : maxValue < UInt32.size := by decide
        omega
      cases hcheck
      rw [UInt32.toNat_ofNat_of_lt' hsize]
      omega
    · cases hcheck
  · rintro ⟨rfl, hle⟩
    rw [if_pos ⟨Int.natCast_nonneg _, Int.ofNat_le.mpr hle⟩]
    simp

namespace Field

/-- The field is the score of a player on a hole: it may hold its value, and it keeps
the rank of that value against the par of the hole. -/
structure IsScore (owner : UInt32) (hole : Nat) (par : UInt32) (field : Field) : Prop where
  owner_eq : field.owner = some owner
  hole_eq : field.hole = hole
  inRange : field.value.toNat ≤ maxValue
  rank_eq : field.rank = some (Rank.classify field.value.toNat par.toNat)

variable {owner par : UInt32} {hole : Nat} {field : Field}

theorem isScore_score (owner : UInt32) (hole : Nat) (par : UInt32) :
    (score owner hole).IsScore owner hole par :=
  ⟨rfl, rfl, Nat.zero_le _, by simp [score, Rank.classify]⟩

/-- Ranking against another par leaves a score of that par. -/
theorem IsScore.rerank (hscore : field.IsScore owner hole par) (after : UInt32) :
    (field.rerank after).IsScore owner hole after :=
  ⟨hscore.owner_eq, hscore.hole_eq, hscore.inRange, by simp [Field.rerank, hscore.rank_eq]⟩

/-- Ranking changes neither values nor marks. -/
theorem map_zipWith_rerank {A : Type} {part : Field → A}
    (hpart : ∀ field par, part (Field.rerank field par) = part field) {fields : List Field}
    {pars : List UInt32} (hlength : fields.length ≤ pars.length) :
    (fields.zipWith Field.rerank pars).map part = fields.map part := by
  induction fields generalizing pars with
  | nil => rfl
  | cons field fields ih =>
      cases pars with
      | nil => cases hlength
      | cons par pars => simp [hpart, ih (Nat.le_of_succ_le_succ hlength)]

theorem IsScore.write {value : UInt32} (hscore : field.IsScore owner hole par)
    (hvalue : value.toNat ≤ maxValue) (qualifiers : Qualifiers) :
    ((field.write value qualifiers).rerank par).IsScore owner hole par :=
  ⟨hscore.owner_eq, hscore.hole_eq, hvalue,
    by simp [Field.rerank, Field.write, hscore.rank_eq]⟩

theorem IsScore.countedRank_eq (hscore : field.IsScore owner hole par) :
    field.countedRank = Rank.classify field.value.toNat par.toNat := by
  simp [countedRank, hscore.rank_eq]

/-- Fields that are all ranked count under the ranks that they keep. -/
theorem map_rank_eq {fields : List Field} (hranked : ∀ field ∈ fields, field.rank ≠ none) :
    fields.map Field.rank = (fields.map Field.countedRank).map some := by
  rw [List.map_map]
  apply List.map_congr_left
  intro field hmem
  obtain ⟨rank, hrank⟩ := Option.ne_none_iff_exists'.mp (hranked field hmem)
  rw [Function.comp_apply, countedRank, hrank, Option.getD_some]

end Field

namespace Player

/-- Everything derived on a row is what its scores and the pars make it, and the row is
named. -/
structure IsExact (pars : List UInt32) (player : Player) : Prop where
  length_eq : player.scores.length = pars.length
  score : ∀ (hole : Nat) (field : Field) (par : UInt32), player.scores[hole]? = some field →
    pars[hole]? = some par → field.IsScore player.number hole par
  total : player.total = (Field.total (some player.number)).write
    (Field.sum player.scores) (.concat (player.scores.map Field.qualifiers))
  counts : player.tally.Counts (player.scores.map Field.countedRank)
  trimmed : trim player.name = player.name
  named : player.name ≠ ""

variable {player after : Player} {pars : List UInt32} {hole : Nat} {par : UInt32}

theorem IsExact.exists_par (hexact : player.IsExact pars) {field : Field}
    (hfield : player.scores[hole]? = some field) : ∃ par, pars[hole]? = some par := by
  obtain ⟨hlt, -⟩ := List.getElem?_eq_some_iff.mp hfield
  rw [hexact.length_eq] at hlt
  exact ⟨pars[hole], List.getElem?_eq_getElem hlt⟩

theorem IsExact.inRange (hexact : player.IsExact pars) :
    ∀ field ∈ player.scores, field.value.toNat ≤ maxValue := by
  intro field hmem
  obtain ⟨hole, hfield⟩ := List.mem_iff_getElem?.mp hmem
  obtain ⟨par, hpar⟩ := hexact.exists_par hfield
  exact (hexact.score hole field par hfield hpar).inRange

/-- Adding an exact row up again changes nothing. -/
theorem IsExact.updateTotal_eq (hexact : player.IsExact pars) :
    player.updateTotal = player := by
  have htotal := hexact.total
  cases player with
  | mk number name scores total tally =>
      simp only [updateTotal, mk.injEq, true_and, and_true] at htotal ⊢
      rw [htotal]
      rfl

/-! ## Names -/

theorem toList_defaultName (number : UInt32) :
    (defaultName number).toList = "Player ".toList ++ Nat.toDigits 10 number.toNat := by
  simp [defaultName, toString, Nat.repr]

theorem trim_defaultName (number : UInt32) :
    trim (defaultName number) = defaultName number := by
  rw [← String.toList_inj, trim, String.toList_ofList, toList_defaultName]
  apply trimChars_eq_self
  · intro c hhead
    cases hhead
    decide
  · intro c hlast
    rw [List.getLast?_append, Option.or_eq_some_iff] at hlast
    obtain hdigit | ⟨hnone, -⟩ := hlast
    · have hdigit := Nat.isDigit_of_mem_toDigits (by decide) (by decide)
        (List.mem_of_getLast? hdigit)
      rw [Char.isDigit, Bool.and_eq_true, decide_eq_true_eq, decide_eq_true_eq] at hdigit
      have hlow : 48 ≤ c.toNat := hdigit.1
      have hhigh : c.toNat ≤ 57 := hdigit.2
      simp [isBlank, blankRanges]
      omega
    · exact absurd (List.getLast?_eq_none_iff.mp hnone) Nat.toDigits_ne_nil

theorem defaultName_ne (number : UInt32) : defaultName number ≠ "" := by
  rw [Ne, ← String.toList_inj, toList_defaultName]
  simp

theorem trim_chosenName (number : UInt32) (name : Option String) :
    trim (chosenName number name) = chosenName number name := by
  cases name with
  | none => exact trim_defaultName number
  | some name =>
      rw [chosenName]
      dsimp only [Option.map_some]
      split
      · exact trim_defaultName number
      · exact trim_trim name

theorem chosenName_ne (number : UInt32) (name : Option String) :
    chosenName number name ≠ "" := by
  cases name with
  | none => exact defaultName_ne number
  | some name =>
      rw [chosenName]
      dsimp only [Option.map_some]
      split
      · exact defaultName_ne number
      · next hname => simpa using hname

/-- A row that is made with the name of another gets that name. -/
theorem IsExact.chosenName_eq (hexact : player.IsExact pars) (number : UInt32) :
    chosenName number (some player.name) = player.name := by
  simp [chosenName, hexact.trimmed, hexact.named]

/-! ## Changing a row -/

theorem counts_new (number : UInt32) (name : Option String) {holes : Nat}
    (hholes : holes < UInt32.size) : (new number name holes).tally.Counts
      ((new number name holes).scores.map Field.countedRank) := by
  have hranks : (new number name holes).scores.map Field.countedRank =
      List.replicate holes .unranked := by
    rw [List.eq_replicate_iff]
    simp [new, Field.score, Field.countedRank]
  rw [hranks]
  exact Tally.counts_unranked hholes

theorem isExact_new (number : UInt32) (name : Option String)
    (hlength : pars.length < UInt32.size) : (new number name pars.length).IsExact pars where
  length_eq := by simp [new]
  score := by
    intro hole field par hfield hpar
    obtain ⟨hlt, rfl⟩ := List.getElem?_eq_some_iff.mp hfield
    simpa [new] using Field.isScore_score number hole par
  total := by
    have hsum (holes : List Nat) : Field.sum (holes.map (Field.score number)) = 0 := by
      induction holes with
      | nil => rfl
      | cons hole holes ih =>
          rw [List.map_cons, Field.sum, List.foldr_cons, ← Field.sum, ih]
          rfl
    have hmarks (holes : List Nat) :
        ((holes.map (Field.score number)).map Field.qualifiers).flatMap Qualifiers.marks =
          [] := by
      simp [Field.score, Qualifiers.empty]
    rw [new, hsum]
    simp only [Qualifiers.concat, hmarks]
    rfl
  counts := counts_new number name hlength
  trimmed := trim_chosenName number name
  named := chosenName_ne number name

theorem IsExact.rename (hexact : player.IsExact pars) {name : String}
    (hrename : player.rename name = .ok after) :
    after.IsExact pars ∧ after.number = player.number := by
  rw [Player.rename] at hrename
  split at hrename
  · cases hrename
  · next hname =>
    cases hrename
    exact ⟨⟨hexact.length_eq, hexact.score, hexact.total, hexact.counts, trim_trim name,
      by simpa using hname⟩, rfl⟩

/-- The row after a field has been entered in place of one that had the rank `before`. -/
def enter (player : Player) (hole : Nat) (entered : Field) (before : Rank) : Player :=
  updateTotal
    { player with
      scores := player.scores.set hole entered
      tally := player.tally.shift before entered.countedRank }

/-- Moving the tally along with a field keeps it exact. -/
theorem counts_enter (hcounts : player.tally.Counts (player.scores.map Field.countedRank))
    (hlength : player.scores.length < UInt32.size) {field entered : Field}
    (hfield : player.scores[hole]? = some field) :
    (player.enter hole entered field.countedRank).tally.Counts
      ((player.enter hole entered field.countedRank).scores.map Field.countedRank) := by
  have hbefore : (player.scores.map Field.countedRank)[hole]? = some field.countedRank := by
    rw [List.getElem?_map, hfield]
    rfl
  have hshift := hcounts.shift hbefore (by simpa using hlength) entered.countedRank
  simpa [enter, updateTotal, List.map_set] using hshift

theorem IsExact.enter (hexact : player.IsExact pars) (hlength : pars.length < UInt32.size)
    {field entered : Field} (hfield : player.scores[hole]? = some field)
    (hpar : pars[hole]? = some par) (hentered : entered.IsScore player.number hole par) :
    (player.enter hole entered field.countedRank).IsExact pars where
  length_eq := by simpa [Player.enter, updateTotal] using hexact.length_eq
  score := by
    intro place other found hother hfound
    simp only [Player.enter, updateTotal, List.getElem?_set] at hother
    split at hother
    · next hplace =>
      subst hplace
      split at hother
      · cases hother
        rw [hpar] at hfound
        cases hfound
        exact hentered
      · cases hother
    · exact hexact.score place other found hother hfound
  total := by simp [Player.enter, updateTotal, hexact.total, Field.write]
  counts := counts_enter hexact.counts (hexact.length_eq.trans_lt hlength) hfield
  trimmed := hexact.trimmed
  named := hexact.named

/-- Entering a value that a field may hold into a field that is ranked. -/
theorem setScore_of_ranked {field : Field} {word : UInt32} {before : Rank}
    (hfield : player.scores[hole]? = some field) (hrank : field.rank = some before)
    (hword : word.toNat ≤ maxValue) (qualifiers : String) (par : UInt32) :
    let entered := (field.write word (.ofString qualifiers)).rerank par
    player.setScore hole word.toNat qualifiers par =
      .ok (entered.countedRank, player.enter hole entered before) := by
  intro entered
  have hcheck : checkValue word.toNat = .ok word := checkValue_eq_ok_iff.mpr ⟨rfl, hword⟩
  rw [setScore]
  simp only [hcheck, hfield, hrank]
  rfl

theorem IsExact.setScore_eq (hexact : player.IsExact pars) {field : Field} {word : UInt32}
    (hfield : player.scores[hole]? = some field) (hword : word.toNat ≤ maxValue)
    (qualifiers : String) (par : UInt32) :
    let entered := (field.write word (.ofString qualifiers)).rerank par
    player.setScore hole word.toNat qualifiers par =
      .ok (entered.countedRank, player.enter hole entered field.countedRank) := by
  obtain ⟨old, hold⟩ := hexact.exists_par hfield
  have hscore := hexact.score hole field old hfield hold
  rw [hscore.countedRank_eq]
  exact setScore_of_ranked hfield hscore.rank_eq hword qualifiers par

/-- A score that is entered has a value that its field may hold, and goes into that field. -/
theorem setScore_cases {value : Int} {qualifiers : String} {rank : Rank}
    (hset : player.setScore hole value qualifiers par = .ok (rank, after)) :
    ∃ (field : Field) (word : UInt32), player.scores[hole]? = some field ∧
      value = word.toNat ∧ word.toNat ≤ maxValue ∧ after.number = player.number ∧
        after.name = player.name ∧ after.scores =
          player.scores.set hole ((field.write word (.ofString qualifiers)).rerank par) := by
  rw [setScore] at hset
  split at hset
  · cases hset
  · next word hcheck =>
    obtain ⟨hvalue, hword⟩ := checkValue_eq_ok_iff.mp hcheck
    split at hset
    · cases hset
    · next field hfield =>
      cases hset
      exact ⟨field, word, hfield, hvalue, hword, rfl, rfl, rfl⟩

/-- What entering one score keeps is kept when all scores of a document are entered. -/
theorem enterScores_invariant (kept : Player → Prop)
    (hset : ∀ (player after : Player) (hole : Nat) (doc : ScoreDocument) (par : UInt32)
      (rank : Rank), player.setScore hole doc.value.toNat doc.qualifiers par = .ok (rank, after) →
        kept player → kept after)
    {docs : List ScoreDocument} {rest : List UInt32}
    (henter : player.enterScores hole docs rest = .ok after) (hplayer : kept player) :
    kept after := by
  induction docs generalizing player hole rest with
  | nil =>
      cases henter
      exact hplayer
  | cons doc docs ih =>
      cases rest with
      | nil =>
          cases henter
          exact hplayer
      | cons par rest =>
          rw [enterScores, bind_eq_ok_iff] at henter
          obtain ⟨⟨rank, entered⟩, hentered, hrest⟩ := henter
          exact ih hrest (hset player entered hole doc par rank hentered hplayer)

theorem IsExact.setScore (hexact : player.IsExact pars) (hlength : pars.length < UInt32.size)
    (hpar : pars[hole]? = some par) {value : Int} {qualifiers : String} {rank : Rank}
    (hset : player.setScore hole value qualifiers par = .ok (rank, after)) :
    after.IsExact pars ∧ after.number = player.number := by
  obtain ⟨field, word, hfield, rfl, hword, -⟩ := setScore_cases hset
  rw [hexact.setScore_eq hfield hword] at hset
  cases hset
  have hscore := hexact.score hole field par hfield hpar
  exact ⟨hexact.enter hlength hfield hpar (hscore.write hword _), rfl⟩

/-- The row ranked against other pars. -/
def ranked (player : Player) (pars : List UInt32) : Player :=
  let scores := player.scores.zipWith Field.rerank pars
  { player with scores, tally := .ofRanks (scores.map Field.countedRank) }

theorem counts_ranked (hlength : player.scores.length < UInt32.size) (pars : List UInt32) :
    (player.ranked pars).tally.Counts ((player.ranked pars).scores.map Field.countedRank) := by
  apply Tally.counts_ofRanks
  rw [List.length_map, List.length_zipWith]
  exact (Nat.min_le_left _ _).trans_lt hlength

theorem IsExact.ranked {before : List UInt32} (hexact : player.IsExact before)
    (hsame : pars.length = before.length) (hlength : pars.length < UInt32.size) :
    (player.ranked pars).IsExact pars where
  length_eq := by simp [Player.ranked, hexact.length_eq, hsame]
  score := by
    intro hole field par hfield hpar
    rw [Player.ranked, List.getElem?_zipWith_eq_some] at hfield
    obtain ⟨old, found, hold, hfound, rfl⟩ := hfield
    rw [hpar] at hfound
    cases hfound
    obtain ⟨former, hformer⟩ := hexact.exists_par hold
    exact (hexact.score hole old former hold hformer).rerank par
  total := by
    have hfits : player.scores.length ≤ pars.length := by
      rw [hexact.length_eq, hsame]
    simp only [Player.ranked, hexact.total, Field.sum_eq_foldr]
    rw [Field.map_zipWith_rerank (fun _ _ => rfl) hfits,
      Field.map_zipWith_rerank (fun _ _ => rfl) hfits]
  counts := counts_ranked ((hexact.length_eq.trans hsame.symm).trans_lt hlength) pars
  trimmed := hexact.trimmed
  named := hexact.named

/-- A row can be ranked against any pars that are as many as its scores. -/
theorem updateRanks_eq (hsame : player.scores.length = pars.length) :
    player.updateRanks pars = .ok (player.ranked pars) := by
  rw [updateRanks, if_neg]
  · rfl
  · exact fun hne => hne hsame.symm

/-- Entering the scores of a document, hole by hole. -/
theorem IsExact.enterScores {docs : List ScoreDocument} {rest : List UInt32}
    (hexact : player.IsExact pars) (hlength : pars.length < UInt32.size)
    (hrest : rest = pars.drop hole) (henter : player.enterScores hole docs rest = .ok after) :
    after.IsExact pars := by
  induction docs generalizing player hole rest with
  | nil =>
      cases henter
      exact hexact
  | cons doc docs ih =>
      cases rest with
      | nil =>
          cases henter
          exact hexact
      | cons par rest =>
          have hpar : pars[hole]? = some par := by
            rw [← List.head?_drop, ← hrest]
            rfl
          have hdrop : rest = pars.drop (hole + 1) := by
            rw [← List.tail_drop, ← hrest]
            rfl
          rw [Player.enterScores] at henter
          cases hset : player.setScore hole doc.value.toNat doc.qualifiers par with
          | error error =>
              rw [hset] at henter
              cases henter
          | ok entered =>
              rw [hset] at henter
              exact ih (hexact.setScore hlength hpar hset).1 hdrop henter

theorem isExact_ofDocument {doc : PlayerDocument} (hlength : pars.length < UInt32.size)
    (hmade : ofDocument doc pars = .ok player) : player.IsExact pars := by
  rw [ofDocument] at hmade
  split at hmade
  · cases hmade
  · exact (isExact_new doc.playerNumber (some doc.name) hlength).enterScores hlength
      List.drop_zero.symm hmade

/-- A row that is made from its document has the number and the name that it says. -/
theorem titles_ofDocument {doc : PlayerDocument} (hmade : ofDocument doc pars = .ok player) :
    player.number = doc.playerNumber ∧
      player.name = chosenName doc.playerNumber (some doc.name) := by
  rw [ofDocument] at hmade
  split at hmade
  · cases hmade
  · refine enterScores_invariant (fun entered => entered.number = doc.playerNumber ∧
      entered.name = chosenName doc.playerNumber (some doc.name)) ?_ hmade ⟨rfl, by rw [new]⟩
    rintro before entered hole score par rank hset ⟨hnumber, hname⟩
    obtain ⟨_, _, -, -, -, hsame, hsameName, -⟩ := setScore_cases hset
    exact ⟨hsame.trans hnumber, hsameName.trans hname⟩

end Player

end Scorekeeper
