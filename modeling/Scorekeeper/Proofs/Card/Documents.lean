import Scorekeeper.Card.Archive
import Scorekeeper.Proofs.Json.Codecs

/-!
# Documents that come back

A stored document may come back with the fields of its records in another order, among fields
that no reader knows, and without those that hold their defaults.  The codecs of documents
are lawful for all of these forms: a document is read as it was, but for the order of the
counts in its rows, which is the one in which they have come.
-/

namespace Scorekeeper

open Json Codec

/-! ## The forms of documents -/

def CourseDocument.rules : List Rule :=
  [⟨"course_id", none, .reordered⟩, ⟨"hole_numbers", none, .reordered⟩,
    ⟨"hole_pars", none, .reordered⟩, ⟨"enabled", some (.bool true), .reordered⟩]

def CourseDocument.forms : Variance :=
  .Recorded rules

def CatalogDocument.rules : List Rule :=
  [⟨"courses", some (.arr []), .Listed CourseDocument.forms⟩]

def CatalogDocument.forms : Variance :=
  .Recorded rules

def ScoreDocument.rules : List Rule :=
  [⟨"value", none, .reordered⟩, ⟨"qualifiers", some (.str ""), .reordered⟩]

def ScoreDocument.forms : Variance :=
  .Recorded rules

variable {stats : Variance}

/-- The fields of a row, with the forms that its counts may have. -/
def PlayerDocument.rules (stats : Variance) : List Rule :=
  [⟨"player_number", none, .reordered⟩, ⟨"name", none, .reordered⟩,
    ⟨"hole_scores", none, .Listed ScoreDocument.forms⟩, ⟨"total_score", none, ScoreDocument.forms⟩,
    ⟨"stats", some (.obj []), stats⟩]

def PlayerDocument.forms (stats : Variance) : Variance :=
  .Recorded (rules stats)

def ScorecardDocument.rules (stats : Variance) : List Rule :=
  [⟨"scorecard_id", none, .reordered⟩, ⟨"course", none, CourseDocument.forms⟩,
    ⟨"hole_numbers", none, .reordered⟩, ⟨"hole_pars", none, .reordered⟩,
    ⟨"holes_par_total", none, .reordered⟩,
    ⟨"players", none, .Listed (PlayerDocument.forms stats)⟩,
    ⟨"notes", some (.str ""), .reordered⟩]

def ScorecardDocument.forms (stats : Variance) : Variance :=
  .Recorded (rules stats)

/-! ## A reordered document has one of its forms -/

section Reordered

open Variance

variable {tree : Tree}

theorem CourseDocument.forms_of_reordered (course : CourseDocument)
    (hreordered : reordered (codec.encode course) tree) : forms (codec.encode course) tree :=
  recorded_of_reordered
    (.cons admits_reordered <| .cons admits_reordered <| .cons admits_reordered <|
      .cons admits_reordered .nil) hreordered

theorem ScoreDocument.forms_of_reordered (score : ScoreDocument)
    (hreordered : reordered (codec.encode score) tree) : forms (codec.encode score) tree :=
  recorded_of_reordered (.cons admits_reordered <| .cons admits_reordered .nil) hreordered

theorem PlayerDocument.forms_of_reordered (row : PlayerDocument)
    (hreordered : reordered (codec.encode row) tree) :
    forms .reordered (codec.encode row) tree := by
  have hscores : Rule.Admits Reordered ⟨"hole_scores", none, .Listed ScoreDocument.forms⟩
      ("hole_scores", ScoreDocument.codec.list.encode row.holeScores) :=
    ⟨rfl, fun other hother => listed_of_reordered
      (List.forall_mem_map.mpr fun score _ after hafter =>
        score.forms_of_reordered ⟨after, hafter, rfl⟩) ⟨other, hother, rfl⟩⟩
  have htotal : Rule.Admits Reordered ⟨"total_score", none, ScoreDocument.forms⟩
      ("total_score", ScoreDocument.codec.encode row.totalScore) :=
    ⟨rfl, fun other hother => row.totalScore.forms_of_reordered ⟨other, hother, rfl⟩⟩
  exact recorded_of_reordered
    (.cons admits_reordered <| .cons admits_reordered <| .cons hscores <| .cons htotal <|
      .cons admits_reordered .nil) hreordered

theorem ScorecardDocument.forms_of_reordered (doc : ScorecardDocument)
    (hreordered : reordered (codec.encode doc) tree) :
    forms .reordered (codec.encode doc) tree := by
  have hcourse : Rule.Admits Reordered ⟨"course", none, CourseDocument.forms⟩
      ("course", CourseDocument.codec.encode doc.course) :=
    ⟨rfl, fun other hother => doc.course.forms_of_reordered ⟨other, hother, rfl⟩⟩
  have hplayers : Rule.Admits Reordered
      ⟨"players", none, .Listed (PlayerDocument.forms .reordered)⟩
      ("players", PlayerDocument.codec.list.encode doc.players) :=
    ⟨rfl, fun other hother => listed_of_reordered
      (List.forall_mem_map.mpr fun row _ after hafter =>
        row.forms_of_reordered ⟨after, hafter, rfl⟩) ⟨other, hother, rfl⟩⟩
  exact recorded_of_reordered
    (.cons admits_reordered <| .cons hcourse <| .cons admits_reordered <|
      .cons admits_reordered <| .cons admits_reordered <| .cons hplayers <|
      .cons admits_reordered .nil) hreordered

end Reordered

/-! ## Laws -/

/-- The same row, but for its counts. -/
def PlayerDocument.Alike (same : List (Rank × UInt32) → List (Rank × UInt32) → Prop)
    (before after : PlayerDocument) : Prop :=
  after = { before with stats := after.stats } ∧ same before.stats after.stats

/-- The same card, but for the counts in its rows. -/
def ScorecardDocument.Alike (same : List (Rank × UInt32) → List (Rank × UInt32) → Prop)
    (before after : ScorecardDocument) : Prop :=
  after = { before with players := after.players } ∧
    List.Forall₂ (PlayerDocument.Alike same) before.players after.players

theorem CourseDocument.isLawful_codec :
    CourseDocument.codec.IsLawful CourseDocument.forms 2 (fun _ => True) Eq := by
  have hrecord := ((((Record.isLawful_of 1 CourseDocument.mk)
    |>.field isLawful_text (by decide) "course_id" courseId)
    |>.field isLawful_text.list_eq (by decide) "hole_numbers" holeNumbers)
    |>.field isLawful_word32.list_eq (by decide) "hole_pars" holePars)
    |>.fieldOr isLawful_flag (by decide) "enabled" true enabled (by rintro _ - ⟨⟩; rfl)
  apply (hrecord.codec (by decide)).weaken (by decide)
  · simp
  · rintro value read _ ⟨_, _, ⟨_, _, ⟨_, _, ⟨_, _, rfl, rfl, rfl⟩, rfl, rfl⟩, rfl, rfl⟩, rfl, rfl⟩
    rfl

theorem CatalogDocument.isLawful_codec :
    CatalogDocument.codec.IsLawful CatalogDocument.forms 4 (fun _ => True) Eq := by
  have hrecord := (Record.isLawful_of 3 CatalogDocument.mk)
    |>.fieldOr CourseDocument.isLawful_codec.listed_eq (by decide) "courses" [] courses
      (by rintro (_ | _) - ⟨⟩; rfl)
  apply (hrecord.codec (by decide)).weaken (by decide)
  · simp
  · rintro value read _ ⟨_, _, rfl, rfl, rfl⟩
    rfl

theorem ScoreDocument.isLawful_codec :
    ScoreDocument.codec.IsLawful ScoreDocument.forms 1 (fun _ => True) Eq := by
  have hrecord := ((Record.isLawful_of 0 ScoreDocument.mk)
    |>.field isLawful_word32 (by decide) "value" value)
    |>.fieldOr isLawful_text (by decide) "qualifiers" "" qualifiers (by rintro _ - ⟨⟩; rfl)
  apply (hrecord.codec (by decide)).weaken (by decide)
  · simp
  · rintro value read _ ⟨_, _, ⟨_, _, rfl, rfl, rfl⟩, rfl, rfl⟩
    rfl

section Counts

variable {same : List (Rank × UInt32) → List (Rank × UInt32) → Prop}
  (hstats : PlayerDocument.statsCodec.IsLawful stats 1
    (fun entries => (entries.map Prod.fst).Nodup) same)
  (hempty : same [] [])

include hstats hempty

theorem PlayerDocument.isLawful_codec :
    PlayerDocument.codec.IsLawful (forms stats) 3 (fun row => (row.stats.map Prod.fst).Nodup)
      (Alike same) := by
  have hrecord := (((((Record.isLawful_of 2 PlayerDocument.mk)
    |>.field isLawful_word32 (by decide) "player_number" playerNumber)
    |>.field isLawful_text (by decide) "name" name)
    |>.field ScoreDocument.isLawful_codec.listed_eq (by decide) "hole_scores" holeScores)
    |>.field ScoreDocument.isLawful_codec (by decide) "total_score" totalScore)
    |>.fieldOr hstats (by decide) "stats" [] PlayerDocument.stats
      (by rintro (_ | _) - ⟨⟩; exact hempty)
  apply (hrecord.codec (by decide)).weaken (by decide)
  · intro row hdistinct
    simpa using hdistinct
  · rintro row read _ ⟨_, stats, ⟨_, _, ⟨_, _, ⟨_, _, ⟨_, _, rfl, rfl, rfl⟩, rfl, rfl⟩, rfl, rfl⟩,
      rfl, rfl⟩, hstats, rfl⟩
    exact ⟨rfl, hstats⟩

theorem ScorecardDocument.isLawful_codec :
    ScorecardDocument.codec.IsLawful (forms stats) 5
      (fun doc => ∀ row ∈ doc.players, (row.stats.map Prod.fst).Nodup) (Alike same) := by
  have hplayers := (PlayerDocument.isLawful_codec hstats hempty).listed
  have hrecord := (((((((Record.isLawful_of 4 ScorecardDocument.mk)
    |>.field isLawful_text (by decide) "scorecard_id" scorecardId)
    |>.field CourseDocument.isLawful_codec (by decide) "course" course)
    |>.field isLawful_text.list_eq (by decide) "hole_numbers" holeNumbers)
    |>.field isLawful_word32.list_eq (by decide) "hole_pars" holePars)
    |>.field isLawful_word32 (by decide) "holes_par_total" holesParTotal)
    |>.field hplayers (by decide) "players" players)
    |>.fieldOr isLawful_text (by decide) "notes" "" notes (by rintro _ - ⟨⟩; rfl)
  apply (hrecord.codec (by decide)).weaken (by decide)
  · intro doc hdistinct
    simpa using hdistinct
  · rintro doc read _ ⟨_, _, ⟨_, players, ⟨_, _, ⟨_, _, ⟨_, _, ⟨_, _, ⟨_, _, rfl, rfl, rfl⟩, rfl,
      rfl⟩, rfl, rfl⟩, rfl, rfl⟩, rfl, rfl⟩, hplayers, rfl⟩, rfl, rfl⟩
    exact ⟨rfl, hplayers⟩

end Counts

/-- In any order of members the counts come back in the order in which they have come. -/
theorem ScorecardDocument.isLawful_codec_reordered :
    ScorecardDocument.codec.IsLawful .reordered 5
      (fun doc => ∀ row ∈ doc.players, (row.stats.map Prod.fst).Nodup) (Alike List.Perm) := by
  have hstats : PlayerDocument.statsCodec.IsLawful .reordered 1
      (fun entries => (entries.map Prod.fst).Nodup) List.Perm :=
    (isLawful_word32.entries Rank.ofKey?_key).weaken (by decide) (by simp)
      fun _ _ _ hsame => hsame
  exact (isLawful_codec hstats (.refl [])).narrow fun doc _ => doc.forms_of_reordered

/-- A card whose counts come as they were written comes back unchanged. -/
theorem ScorecardDocument.isLawful_codec_verbatim :
    ScorecardDocument.codec.IsLawful (forms .verbatim) 5
      (fun doc => ∀ row ∈ doc.players, (row.stats.map Prod.fst).Nodup) Eq := by
  have hstats : PlayerDocument.statsCodec.IsLawful .verbatim 1
      (fun entries => (entries.map Prod.fst).Nodup) Eq :=
    (isLawful_word32.entries_verbatim Rank.ofKey?_key).weaken (by decide) (by simp)
      fun _ _ _ hsame => hsame
  apply (isLawful_codec hstats rfl).weaken (by decide)
  · exact fun _ hdistinct => hdistinct
  · rintro doc read _ ⟨hread, hplayers⟩
    have hrow {before after : PlayerDocument} (halike : PlayerDocument.Alike Eq before after) :
        before = after := by
      rw [halike.1, ← halike.2]
    have hrows := hplayers.imp fun _ _ => hrow
    rw [List.forall₂_eq_eq_eq] at hrows
    rw [hread, ← hrows]

/-- The counts of a row are written under different names. -/
theorem Player.nodup_stats (player : Player) :
    (player.document.stats.map Prod.fst).Nodup := by
  rw [document, Tally.entries, List.map_map]
  have hall : (Rank.all.map fun rank => rank).Nodup := by decide
  exact hall

theorem Card.nodup_stats (card : Card) :
    ∀ row ∈ card.document.players, (row.stats.map Prod.fst).Nodup := by
  intro row hmem
  obtain ⟨player, -, rfl⟩ := List.mem_map.mp hmem
  exact player.nodup_stats

end Scorekeeper
