import Scorekeeper.Proofs.Card.Defects
import Scorekeeper.Proofs.Card.Ids
import Scorekeeper.Proofs.Card.Storage
import Scorekeeper.Proofs.Json.Fields
import Scorekeeper.Proofs.Service.Refused

/-!
# Entries of a catalog

A catalog is looked through twice.  First it is read as a whole, with all its entries, and then
each entry that was read is looked at as a course.  An entry that fails the second look is passed
over, and the other courses are on offer.  An entry that fails the first takes the whole catalog
with it, and the userspace does not open.
-/

namespace Scorekeeper

open Json Service Text

/-! ## Playable courses -/

namespace CourseDocument

variable {doc : CourseDocument}

/-- There are holes, a par for each of them, and no par is too large. -/
structure IsPlayable (doc : CourseDocument) : Prop where
  holes : doc.holeNumbers ≠ []
  pars : doc.holePars.length = doc.holeNumbers.length
  inRange : ∀ par ∈ doc.holePars, par.toNat ≤ maxValue

theorem isPlayable_iff :
    doc.IsPlayable ↔ doc.holeNumbers ≠ [] ∧ doc.holePars.length = doc.holeNumbers.length ∧
      ∀ par ∈ doc.holePars, par.toNat ≤ maxValue :=
  ⟨fun hplayable => ⟨hplayable.holes, hplayable.pars, hplayable.inRange⟩,
    fun ⟨holes, pars, inRange⟩ => ⟨holes, pars, inRange⟩⟩

-- the pars are looked at one by one, and not all the words there are
instance (doc : CourseDocument) : Decidable doc.IsPlayable :=
  have : Decidable (∀ par ∈ doc.holePars, par.toNat ≤ maxValue) := List.decidableBAll _ _
  decidable_of_iff' _ isPlayable_iff

/-- A course is made from a document exactly when it can be played. -/
theorem exists_ofDocument_iff :
    (∃ course, Course.ofDocument doc = .ok course) ↔ doc.IsPlayable := by
  rw [← errorOf_eq_none_iff, errorOf_course, Check.findSome?_error?_eq_none_iff, isPlayable_iff]
  simp [checks, Check.length, Check.value, or_imp, forall_and]

/-- What is made of a document keeps it. -/
theorem map_document_ofDocument (doc : CourseDocument) :
    (Course.ofDocument doc).toOption.map Course.document =
      Option.guard (fun doc => decide doc.IsPlayable) doc := by
  cases hmade : Course.ofDocument doc with
  | error error =>
      have hunplayable : ¬doc.IsPlayable := by
        rw [← exists_ofDocument_iff, hmade]
        nofun
      simp [Option.guard, hunplayable, Except.toOption]
  | ok course =>
      have hplayable : doc.IsPlayable := exists_ofDocument_iff.mp ⟨course, hmade⟩
      simp [Option.guard, hplayable, Except.toOption, Card.document_course hmade]

end CourseDocument

/-! ## Entries -/

/-- Every entry can be read as a course, playable or not. -/
def AllRead (entries : List Json) : Prop :=
  ∀ entry ∈ entries, ∃ doc, CourseDocument.codec.readJson entry = .ok doc

instance (entries : List Json) : Decidable (AllRead entries) :=
  decidable_of_iff (∀ entry ∈ entries, errorOf (CourseDocument.codec.readJson entry) = none) <| by
    simp only [errorOf_eq_none_iff, AllRead]

/-- The entries that can be read as courses, in their order. -/
def readEntries (entries : List Json) : List CourseDocument :=
  entries.filterMap fun entry => (CourseDocument.codec.readJson entry).toOption

def playableEntries (entries : List Json) : List CourseDocument :=
  (readEntries entries).filter (·.IsPlayable)

namespace CourseDocument

/-- An entry needs two levels, and beyond that it does not matter how many are left. -/
theorem decode_congr (depth other : Nat) (tree : Tree) :
    codec.decode (depth + 2) tree = codec.decode (other + 2) tree :=
  rfl

/-- It does not matter that an entry is read inside a catalog and not alone. -/
theorem decode_entry_eq_ok_iff {depth : Nat} {entry : Json} {doc : CourseDocument} :
    codec.decode (depth + 2) entry.tree = .ok doc ↔ codec.readJson entry = .ok doc := by
  rw [readJson_eq_ok_iff, decode_congr depth 125, depthLimit]

end CourseDocument

namespace CatalogDocument

variable {entries : List Json} {catalog : CatalogDocument}

theorem decode_courses {tree : Tree} :
    codec.decode depthLimit (.object [(.ofString "courses", tree)] none) = .ok catalog ↔
      (Codec.list CourseDocument.codec).decode (depthLimit - 1) tree = .ok catalog.courses := by
  have hname : Key.read (.ofString "courses") = .ok "courses" := read_ofString _
  have hsound : Members.IsSound ["courses"] [(.ok "courses", tree)] :=
    ⟨by simp, List.pairwise_singleton _ _⟩
  change Record.readMembers _ _ [(Key.read (.ofString "courses"), tree)] none = _ ↔ _
  rw [hname, Record.readMembers_eq_ok_iff, and_iff_right rfl]
  refine (and_iff_right hsound).trans ?_
  refine (Record.read_add_eq_ok_iff hsound List.mem_cons_self).trans ?_
  constructor
  · rintro ⟨_, docs, hmake, hdocs, rfl⟩
    cases hmake
    obtain ⟨_, hmem, hread⟩ | ⟨hmissing, -⟩ := hdocs
    · cases List.mem_singleton.mp hmem
      exact hread
    · exact absurd List.mem_cons_self (hmissing tree)
  · intro hdocs
    exact ⟨_, catalog.courses, rfl, .inl ⟨tree, List.mem_cons_self, hdocs⟩, rfl⟩

/-- A catalog is read when each of its entries is. -/
theorem readJson_eq_ok_iff :
    codec.readJson (.obj [("courses", .arr entries)]) = .ok catalog ↔
      AllRead entries ∧ readEntries entries = catalog.courses := by
  rw [Json.readJson_eq_ok_iff, tree, treeMembers, treeMembers, decode_courses, tree,
    treeItems_eq_map, depthLimit, decode_list_eq_ok_iff, and_iff_right rfl,
    List.forall₂_map_left_iff]
  simp only [CourseDocument.decode_entry_eq_ok_iff]
  exact forall₂_ok_iff

end CatalogDocument

/-! ## Openings -/

namespace Service

variable {entries : List Json}

/-- Of the entries that were read, those that are playable become courses. -/
theorem map_document_playable (catalog : CatalogDocument) :
    (playable catalog).map Course.document = catalog.courses.filter (·.IsPlayable) := by
  rw [playable, List.map_filterMap, ← List.filterMap_eq_filter]
  exact List.filterMap_congr fun doc _ => CourseDocument.map_document_ofDocument doc

/-- What a store sends that has a catalog with these entries and nothing else. -/
def catalogOf (entries : List Json) : Json :=
  .obj [("courses", .arr entries)]

theorem readCatalog_of_allRead (hread : AllRead entries) :
    ∃ courses, readCatalog (.ok (some (catalogOf entries))) = .ok courses ∧
      courses.map Course.document = playableEntries entries := by
  have hcatalog := CatalogDocument.readJson_eq_ok_iff.mpr ⟨hread, rfl⟩
  rw [readCatalog, catalogOf, hcatalog]
  exact ⟨_, rfl, map_document_playable _⟩

/-- A catalog that was written from courses is read as these courses. -/
theorem readCatalog_encode (courses : List Course) :
    readCatalog (.ok (some (CatalogDocument.codec.encode ⟨courses.map Course.document⟩))) =
      .ok courses := by
  have hlawful := CatalogDocument.isLawful_codec
  have hread : CatalogDocument.codec.readJson
      (CatalogDocument.codec.encode ⟨courses.map Course.document⟩) =
        .ok ⟨courses.map Course.document⟩ := by
    rw [Json.readJson_eq_ok_iff]
    obtain ⟨_, hdecode, rfl⟩ := hlawful.restores _ _ depthLimit trivial (by decide)
      (hlawful.written ⟨courses.map Course.document⟩ trivial)
    exact hdecode
  rw [readCatalog, hread]
  simp [playable, List.filterMap_map, Course.ofDocument_document, Except.toOption]

theorem readCatalog_of_not_allRead (hunread : ¬AllRead entries) :
    readCatalog (.ok (some (catalogOf entries))) = .error (.malformed .catalog .mismatch) := by
  have hcatalog : CatalogDocument.codec.readJson (catalogOf entries) = .error .mismatch := by
    rw [readJson_eq_error_iff]
    intro catalog hread
    exact hunread (CatalogDocument.readJson_eq_ok_iff.mp hread).1
  rw [readCatalog, hcatalog]

namespace State

variable {state : State} {outside : Outside} {request : OpenUserspace}

/-- The userspace opens, and what is shown now and listed from then on are the courses of these
documents, in their order. -/
def OpensWith (state : State) (outside : Outside) (request : OpenUserspace)
    (docs : List CourseDocument) : Prop :=
  ∃ space courses after, UserspaceId.ofPassphrase request.passphrase = .ok space ∧
    courses.map Course.document = docs ∧
    state.openUserspace outside request = (.ok (viewUserspace space courses), after) ∧
    ∀ later, after.perform later .listCourses = (.ok (.value 200 (viewCourses courses)), after)

section Stored

variable (state : State) (hphrase : ∃ c ∈ request.passphrase.toList, isBlank c = false)
  (hstored : ∀ space, UserspaceId.ofPassphrase request.passphrase = .ok space →
    outside.download (.courses space.text) = .ok (some (catalogOf entries)))

include hphrase hstored

theorem opensWith_of_allRead (hread : AllRead entries) :
    state.OpensWith outside request (playableEntries entries) := by
  obtain ⟨space, hspace⟩ := UserspaceId.exists_ofPassphrase_iff.mpr hphrase
  obtain ⟨courses, hcourses, hdocs⟩ := readCatalog_of_allRead hread
  refine ⟨space, courses, { state with cells := { userspace := some space, courses } },
    hspace, hdocs, ?_, fun _ => rfl⟩
  simp only [openUserspace, hspace, hstored space hspace, hcourses]

theorem openUserspace_of_not_allRead (hunread : ¬AllRead entries) :
    state.openUserspace outside request = (.error (.malformed .catalog .mismatch), state) := by
  obtain ⟨space, hspace⟩ := UserspaceId.exists_ofPassphrase_iff.mpr hphrase
  simp only [openUserspace, hspace, hstored space hspace, readCatalog_of_not_allRead hunread]

/-- If all the entries of a catalog can be read, the userspace opens with the playable ones.  If
one of them cannot be read, it does not open, whatever the others are. -/
theorem opens_unless_unread :
    (AllRead entries → state.OpensWith outside request (playableEntries entries)) ∧
      (¬AllRead entries →
        state.openUserspace outside request = (.error (.malformed .catalog .mismatch), state)) :=
  ⟨opensWith_of_allRead state hphrase hstored, openUserspace_of_not_allRead state hphrase hstored⟩

end Stored

/-- A store with one catalog for every userspace. -/
def storeOf (entries : List Json) : Outside :=
  { courseStore with download := fun _ => .ok (some (catalogOf entries)) }

/-- An entry with one hole. -/
def entryOf (id : String) (pars : List Int) : Json :=
  .obj [("course_id", .str id), ("hole_numbers", .arr [.str "1"]),
    ("hole_pars", .arr (pars.map .int))]

/-- A course, one with a par too large, one with a par too many, and another course. -/
def mixedEntries : List Json :=
  [entryOf "links" [3], entryOf "cliffs" [1000], entryOf "greens" [3, 4], entryOf "dunes" [5]]

def plainCourse (id : String) (par : UInt32) : CourseDocument where
  courseId := id
  holeNumbers := ["1"]
  holePars := [par]
  enabled := true

theorem opens_unless_unread_mixed :
    (∃ c ∈ "alpha".toList, isBlank c = false) ∧
      (∀ space, UserspaceId.ofPassphrase "alpha" = .ok space →
        (storeOf mixedEntries).download (.courses space.text) =
          .ok (some (catalogOf mixedEntries))) ∧
      AllRead mixedEntries ∧ (State.new .default).OpensWith (storeOf mixedEntries) ⟨"alpha"⟩
        [plainCourse "links" 3, plainCourse "dunes" 5] := by
  have hphrase : ∃ c ∈ "alpha".toList, isBlank c = false := ⟨'a', by decide, rfl⟩
  have hstored (space : UserspaceId) (_ : UserspaceId.ofPassphrase "alpha" = .ok space) :
      (storeOf mixedEntries).download (.courses space.text) =
        .ok (some (catalogOf mixedEntries)) := rfl
  have hread : AllRead mixedEntries := by decide +kernel
  have hdocs : playableEntries mixedEntries = [plainCourse "links" 3, plainCourse "dunes" 5] := by
    decide +kernel
  have hopens := (opens_unless_unread (State.new .default) hphrase hstored).1 hread
  rw [hdocs] at hopens
  exact ⟨hphrase, hstored, hread, hopens⟩

/-- The promise: an entry that is no playable course is passed over, and the others are on
offer. -/
def PassesOver (entries : List Json) : Prop :=
  ∀ (state : State) (outside : Outside) (request : OpenUserspace),
    (∃ c ∈ request.passphrase.toList, isBlank c = false) →
    (∀ space, UserspaceId.ofPassphrase request.passphrase = .ok space →
      outside.download (.courses space.text) = .ok (some (catalogOf entries))) →
    state.OpensWith outside request (playableEntries entries)

/-- A par below zero is no par, and the course beside it is lost. -/
def spoiltEntries : List Json :=
  [entryOf "cliffs" [-1], entryOf "links" [3]]

theorem not_passesOver_spoilt :
    playableEntries spoiltEntries = [plainCourse "links" 3] ∧
      (State.new .default).openUserspace (storeOf spoiltEntries) ⟨"alpha"⟩ =
        (.error (.malformed .catalog .mismatch), .new .default) ∧
      ¬PassesOver spoiltEntries := by
  have hphrase : ∃ c ∈ "alpha".toList, isBlank c = false := ⟨'a', by decide, rfl⟩
  have hrefused : (State.new .default).openUserspace (storeOf spoiltEntries) ⟨"alpha"⟩ =
      (.error (.malformed .catalog .mismatch), .new .default) :=
    openUserspace_of_not_allRead _ hphrase (fun _ _ => rfl) (by decide +kernel)
  refine ⟨by decide +kernel, hrefused, fun hpasses => ?_⟩
  obtain ⟨_, _, _, -, -, hopened, -⟩ :=
    hpasses (.new .default) (storeOf spoiltEntries) ⟨"alpha"⟩ hphrase fun _ _ => rfl
  rw [hrefused] at hopened
  cases hopened

end State

end Service

end Scorekeeper
