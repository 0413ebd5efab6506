import Scorekeeper.Proofs.Card.Documents
import Scorekeeper.Remote.Envelope

/-!
# The stored format

What is stored is text, and what reads it is not always what wrote it: an older version
leaves out fields that a newer one writes, and a newer one writes fields that an older one
does not know.  This file proves that the text of every document and of every envelope is
read as what it was written from, and that so is every text of any of its forms.
-/

namespace Scorekeeper

open Json Codec

/-! ## Envelopes -/

namespace Remote

theorem Verdict.ofName?_name (verdict : Verdict) : ofName? verdict.name = some verdict := by
  cases verdict <;> decide

namespace Envelope

/-- The fields of an envelope, with the forms that its data may have. -/
def rules (data : Variance) : List Rule :=
  [⟨"status", none, .reordered⟩, ⟨"message", some .null, .reordered⟩,
    ⟨"data", some .null, data⟩, ⟨"id", some .null, .reordered⟩]

def forms (data : Variance) : Variance :=
  .Recorded (rules data)

theorem forms_of_reordered (envelope : Envelope) {tree : Tree}
    (hreordered : Variance.reordered (codec.encode envelope) tree) :
    forms .reordered (codec.encode envelope) tree :=
  Variance.recorded_of_reordered
    (.cons Variance.admits_reordered <| .cons Variance.admits_reordered <|
      .cons Variance.admits_reordered <| .cons Variance.admits_reordered .nil) hreordered

/-- The same envelope, but for its data. -/
def Alike (same : Json → Json → Prop) (before after : Envelope) : Prop :=
  after = { before with data := after.data } ∧ Option.Rel same before.data after.data

theorem isLawful_codec {forms : Variance} {levels : Nat} {valid : Json → Prop}
    {same : Json → Json → Prop} (hdata : any.IsLawful forms levels valid same)
    (hvalid : ∀ data, valid data → data ≠ .null) (hnull : forms.KeepsNull) :
    codec.IsLawful (Envelope.forms forms) (levels + 1)
      (fun envelope => ∀ data ∈ envelope.data, valid data) (Alike same) := by
  have hverdict := isLawful_choice Verdict.ofName?_name
  have htext := isLawful_text.optional (fun _ _ => by rintro ⟨⟩) Variance.keepsNull_reordered
  -- data that is written as `null` is none
  have hnone (data : Option Json) (hdata : ∀ value ∈ data, valid value)
      (hencode : any.optional.encode none = any.optional.encode data) :
      Option.Rel same data none := by
    cases data with
    | none => exact .none
    | some value => exact absurd hencode.symm (hvalid value (hdata value rfl))
  have hrecord := ((((Record.isLawful_of levels Envelope.mk)
    |>.field hverdict (Nat.zero_le _) "status" status)
    |>.fieldOr htext (Nat.zero_le _) "message" none message
      (by rintro (_ | _) - ⟨⟩; exact .none))
    |>.fieldOr (hdata.optional hvalid hnull) (Nat.le_refl _) "data" none data hnone)
    |>.fieldOr htext (Nat.zero_le _) "id" none id (by rintro (_ | _) - ⟨⟩; exact .none)
  have hequal {text read : Option String} (hsame : Option.Rel Eq text read) : read = text := by
    cases hsame with
    | some hsame => rw [hsame]
    | none => rfl
  apply (hrecord.codec (by decide)).weaken (Nat.le_refl _)
  · intro envelope hvalid
    simpa using hvalid
  · rintro envelope read _ ⟨_, _, ⟨_, _, ⟨_, _, ⟨_, _, rfl, rfl, rfl⟩, hmessage, rfl⟩, hdata, rfl⟩,
      hid, rfl⟩
    obtain rfl := hequal hmessage
    obtain rfl := hequal hid
    exact ⟨rfl, hdata⟩

/-- In any order of members the data come back in some order. -/
theorem isLawful_codec_reordered (levels : Nat) :
    codec.IsLawful .reordered (levels + 1)
      (fun envelope => ∀ data ∈ envelope.data, data.IsPlain levels ∧ data ≠ .null)
      (Alike Reordered) := by
  have hdata : any.IsLawful .reordered levels (fun data => data.IsPlain levels ∧ data ≠ .null)
      Reordered :=
    (isLawful_any levels).weaken (Nat.le_refl _) (fun _ hvalid => hvalid.1)
      fun _ _ _ hsame => hsame
  exact (isLawful_codec hdata (fun _ hvalid => hvalid.2) Variance.keepsNull_reordered).narrow
    fun envelope _ => envelope.forms_of_reordered

/-- An envelope whose data are in order comes back unchanged. -/
theorem isLawful_codec_verbatim (levels : Nat) :
    codec.IsLawful (forms .verbatim) (levels + 1)
      (fun envelope => ∀ data ∈ envelope.data,
        data.IsPlain levels ∧ data.IsSorted ∧ data ≠ .null) Eq := by
  have hdata : any.IsLawful .verbatim levels
      (fun data => data.IsPlain levels ∧ data.IsSorted ∧ data ≠ .null) Eq :=
    (isLawful_any_sorted levels).weaken (Nat.le_refl _)
      (fun _ hvalid => ⟨hvalid.1, hvalid.2.1⟩) fun _ _ _ hsame => hsame
  apply (isLawful_codec hdata (fun _ hvalid => hvalid.2.2) Variance.keepsNull_verbatim).weaken
    (Nat.le_refl _)
  · exact fun _ hvalid => hvalid
  · rintro ⟨status, message, data, label⟩ ⟨_, _, read, _⟩ _ ⟨hread, hdata⟩
    cases hread
    cases hdata with
    | some hsame => rw [hsame]
    | none => rfl

end Envelope

end Remote

/-- What is printed reads back, and so does every text of any of its forms. -/
structure Json.Codec.Returns {A : Type} (codec : Codec A) (forms : Variance) (value : A) : Prop
    where
  printed : codec.readText (codec.print value) = .ok value
  tolerant : ∀ tree (text : String), forms (codec.encode value) tree → Spells tree text.toList →
    codec.readText text = .ok value

theorem Json.Codec.IsLawful.returns {A : Type} {codec : Codec A} {forms : Variance} {levels : Nat}
    {valid : A → Prop} {value : A} (hlawful : codec.IsLawful forms levels valid Eq)
    (hvalid : valid value) (hlevels : levels ≤ depthLimit) : codec.Returns forms value := by
  have hdecode : ∀ tree, forms (codec.encode value) tree →
      codec.decode depthLimit tree = .ok value := by
    intro tree hform
    obtain ⟨_, hread, rfl⟩ := hlawful.restores value tree depthLimit hvalid hlevels hform
    exact hread
  constructor
  · rw [Codec.print, readText_text _ (hlawful.plain value hvalid)]
    exact hdecode _ (hlawful.written value hvalid)
  · intro tree text hform hspells
    rw [readText_of_spells _ hspells]
    exact hdecode tree hform

/-- The stored format loses nothing and does not mind which version has written it.  Courses,
catalogs and cards come back from every text of any of their forms, sound or not, with the
counts of a row in their order; no row has a count twice.  So do envelopes whose data are not
`null`, hold only 64-bit integers and nest at most a hundred levels; the members of data are
always held in the order of their names. -/
theorem stored_format_returns :
    (∀ course, CourseDocument.codec.Returns CourseDocument.forms course) ∧
      (∀ catalog, CatalogDocument.codec.Returns CatalogDocument.forms catalog) ∧
      (∀ doc : ScorecardDocument, (∀ row ∈ doc.players, (row.stats.map Prod.fst).Nodup) →
        ScorecardDocument.codec.Returns (ScorecardDocument.forms .verbatim) doc) ∧
      ∀ envelope : Remote.Envelope,
        (∀ data ∈ envelope.data, data.IsPlain 100 ∧ data.IsSorted ∧ data ≠ .null) →
          Remote.Envelope.codec.Returns (Remote.Envelope.forms .verbatim) envelope :=
  ⟨fun _ => CourseDocument.isLawful_codec.returns trivial (by decide),
    fun _ => CatalogDocument.isLawful_codec.returns trivial (by decide),
    fun _ hdistinct => ScorecardDocument.isLawful_codec_verbatim.returns hdistinct (by decide),
    fun _ hdata => (Remote.Envelope.isLawful_codec_verbatim 100).returns hdata (by decide)⟩

/-! ## A card from another version -/

def oddCard : ScorecardDocument where
  scorecardId := "round \"7\"\n"
  course := ⟨"links\\north", ["1"], [3], true⟩
  holeNumbers := ["1"]
  holePars := [3]
  holesParTotal := 3
  players := [⟨1, "Zo\u00eb", [⟨4, ""⟩], ⟨4, "*"⟩, [(.even, 1), (.holeInOne, 0)]⟩]
  notes := ""

/-- The row of the card with its name last and no marks at its one score. -/
def otherRow : Json :=
  .obj [("player_number", .int 1), ("hole_scores", .arr [.obj [("value", .int 4)]]),
    ("total_score", .obj [("qualifiers", .str "*"), ("value", .int 4)]),
    ("stats", .obj [("even", .int 1), ("hole_in_one", .int 0)]), ("name", .str "Zo\u00eb")]

/-- The card as another version has written it: the course late, a field of its own last, and
nothing that holds its default. -/
def otherCard : Json :=
  .obj [("scorecard_id", .str "round \"7\"\n"), ("hole_numbers", .arr [.str "1"]),
    ("hole_pars", .arr [.int 3]), ("holes_par_total", .int 3), ("players", .arr [otherRow]),
    ("course", .obj [("course_id", .str "links\\north"), ("hole_numbers", .arr [.str "1"]),
      ("hole_pars", .arr [.int 3])]),
    ("version", .arr [.int 2, .null])]

theorem isPlain_otherCard : otherCard.IsPlain 5 := by
  simp +decide [otherCard, otherRow, isPlain_obj_iff, isPlain_arr_iff, IsPlain.str, IsPlain.null,
    IsPlain.int]

theorem forms_otherRow (row : PlayerDocument) (hrow : row ∈ oddCard.players) :
    PlayerDocument.forms .verbatim (PlayerDocument.codec.encode row) otherRow.tree := by
  obtain rfl := List.mem_singleton.mp hrow
  have hscore : ScoreDocument.forms (ScoreDocument.codec.encode ⟨4, ""⟩)
      (tree (.obj [("value", .int 4)])) :=
    .mk (.keep (Variance.reordered_tree _) (.drop rfl .nil)) (List.forall_mem_nil _) (.refl _)
  have htotal : ScoreDocument.forms (ScoreDocument.codec.encode ⟨4, "*"⟩)
      (tree (.obj [("qualifiers", .str "*"), ("value", .int 4)])) :=
    .mk (.keep (Variance.reordered_tree _) (.keep (Variance.reordered_tree _) .nil))
      (List.forall_mem_nil _) (.swap _ _ _)
  exact .mk
    (.keep (Variance.reordered_tree _) <| .keep (Variance.reordered_tree _) <|
      .keep (.mk (.cons hscore .nil)) <| .keep htotal <| .keep rfl .nil)
    (List.forall_mem_nil _) (.cons _ (@List.perm_middle _ _ [_, _, _] []))

theorem forms_otherCard :
    ScorecardDocument.forms .verbatim (ScorecardDocument.codec.encode oddCard)
      otherCard.tree := by
  have hcourse : CourseDocument.forms (CourseDocument.codec.encode oddCard.course)
      (tree (.obj [("course_id", .str "links\\north"), ("hole_numbers", .arr [.str "1"]),
        ("hole_pars", .arr [.int 3])])) :=
    .mk (.keep (Variance.reordered_tree _) <| .keep (Variance.reordered_tree _) <|
      .keep (Variance.reordered_tree _) <| .drop rfl .nil) (List.forall_mem_nil _) (.refl _)
  have hrow := forms_otherRow _ List.mem_cons_self
  have hversion : IsUnknown ((ScorecardDocument.rules .verbatim).map Rule.name)
      (.ofString "version", tree (.arr [.int 2, .null])) := by
    refine ⟨⟨"version", read_ofString _, by decide⟩, _, @IsPlain.spells 1 _ ?_⟩
    exact isPlain_arr_iff.mpr ⟨0, rfl, by simp +decide [IsPlain.int, IsPlain.null]⟩
  exact .mk
    (.keep (Variance.reordered_tree _) <| .keep hcourse <| .keep (Variance.reordered_tree _) <|
      .keep (Variance.reordered_tree _) <| .keep (Variance.reordered_tree _) <|
      .keep (.mk (.cons hrow .nil)) <| .drop rfl .nil)
    (List.forall_mem_singleton.mpr hversion) (.cons _ (@List.perm_middle _ _ [_, _, _, _] [_]))

def smallAnswer : Remote.Envelope where
  status := .success
  message := none
  data := some (.obj [("holes", .arr []), ("name", .str "\t")])
  id := some ""

/-- The envelope with its status last and without a message. -/
def otherAnswer : Json :=
  .obj [("data", .obj [("holes", .arr []), ("name", .str "\t")]), ("id", .str ""),
    ("status", .str "Success")]

theorem isPlain_otherAnswer : otherAnswer.IsPlain 3 := by
  simp +decide [otherAnswer, isPlain_obj_iff, isPlain_arr_iff, IsPlain.str]

theorem forms_otherAnswer :
    Remote.Envelope.forms .verbatim (Remote.Envelope.codec.encode smallAnswer) otherAnswer.tree :=
  .mk (.keep (Variance.reordered_tree _) <| .drop rfl <| .keep rfl <|
    .keep (Variance.reordered_tree _) .nil) (List.forall_mem_nil _)
    (@List.perm_middle _ _ [_, _] [])

theorem isSorted_smallAnswer :
    ∀ data ∈ smallAnswer.data, data.IsPlain 100 ∧ data.IsSorted ∧ data ≠ .null := by
  rintro _ ⟨⟩
  refine ⟨?_, .obj (by decide) ?_, by rintro ⟨⟩⟩
  · simp +decide [isPlain_obj_iff, isPlain_arr_iff, IsPlain.str]
  · rintro _ (_ | ⟨_, _ | ⟨_, ⟨⟩⟩⟩)
    · exact .arr (List.forall_mem_nil _)
    · exact .str _

theorem stored_format_returns_otherVersion :
    (∀ row ∈ oddCard.players, (row.stats.map Prod.fst).Nodup) ∧
      (∀ data ∈ smallAnswer.data, data.IsPlain 100 ∧ data.IsSorted ∧ data ≠ .null) ∧
      ScorecardDocument.codec.readText (ScorecardDocument.codec.print oddCard) = .ok oddCard ∧
      ScorecardDocument.codec.readText (String.ofList (' ' :: (otherCard.print ++ ['\n']))) =
        .ok oddCard ∧
      Remote.Envelope.codec.readText (Remote.Envelope.codec.print smallAnswer) = .ok smallAnswer ∧
      Remote.Envelope.codec.readText otherAnswer.text = .ok smallAnswer := by
  obtain ⟨-, -, hcards, henvelopes⟩ := stored_format_returns
  have hdistinct : ∀ row ∈ oddCard.players, (row.stats.map Prod.fst).Nodup := by decide
  have hcard := hcards oddCard hdistinct
  have hanswer := henvelopes smallAnswer isSorted_smallAnswer
  have hleft : IsBlank [' '] := List.forall_mem_singleton.mpr rfl
  have hright : IsBlank ['\n'] := List.forall_mem_singleton.mpr rfl
  have hspells : Spells otherCard.tree (' ' :: (otherCard.print ++ ['\n'])) :=
    .padded hleft hright isPlain_otherCard.spells
  refine ⟨hdistinct, isSorted_smallAnswer, hcard.printed, hcard.tolerant _ _ forms_otherCard ?_,
    hanswer.printed, hanswer.tolerant _ _ forms_otherAnswer ?_⟩
  · rw [String.toList_ofList]
    exact hspells
  · rw [Json.text, String.toList_ofList]
    exact isPlain_otherAnswer.spells

end Scorekeeper
