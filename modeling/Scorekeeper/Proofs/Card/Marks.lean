import Mathlib.Algebra.Ring.Nat
import Mathlib.Data.List.Perm.Basic
import Scorekeeper.Qualifiers
import Scorekeeper.Service.Request

/-!
# Marks are multisets

Qualifiers hold every character that is not blank as often as it was entered, in an order
that depends on nothing else.  So they are equal exactly if these numbers are, and reading
them again gives the same.  The marks of several fields together are the marks of all that
was entered in them, in whatever order the fields come.  The check of a request counts
what would be kept.
-/

namespace Scorekeeper

open Text Sorting Service

namespace Qualifiers

/-! ## One multiset, one value -/

/-- The ascending order of the marks leaves no choice but how often each of them is there. -/
theorem eq_iff_perm {left right : Qualifiers} :
    left = right ↔ left.marks.Perm right.marks := by
  constructor
  · intro heq
    rw [heq]
  · intro hperm
    have hmarks : left.marks = right.marks :=
      hperm.eq_of_pairwise (fun _ _ _ _ => Char.le_antisymm) left.ordered right.ordered
    cases left
    cases right
    cases hmarks
    rfl

theorem perm_ofString (raw : String) :
    (ofString raw).marks.Perm (raw.toList.filter fun c => !isBlank c) :=
  sort_perm _ _

theorem perm_concat (sets : List Qualifiers) :
    (concat sets).marks.Perm (sets.flatMap marks) :=
  sort_perm _ _

theorem size_ofString (raw : String) :
    (ofString raw).size = (raw.toList.filter fun c => !isBlank c).length :=
  (perm_ofString raw).length_eq

theorem count_ofString (raw : String) {c : Char} (hc : isBlank c = false) :
    (ofString raw).marks.count c = raw.toList.count c := by
  rw [(perm_ofString raw).count_eq]
  apply List.count_filter
  rw [hc]
  rfl

theorem count_of_blank (set : Qualifiers) {c : Char} (hc : isBlank c = true) :
    set.marks.count c = 0 := by
  apply List.count_eq_zero_of_not_mem
  intro hmem
  rw [set.noBlank c hmem] at hc
  cases hc

theorem ofString_eq_iff {left right : String} :
    ofString left = ofString right ↔
      ∀ c, isBlank c = false → left.toList.count c = right.toList.count c := by
  rw [eq_iff_perm, List.perm_iff_count]
  apply forall_congr'
  intro c
  cases hc : isBlank c with
  | true => simp [count_of_blank _ hc]
  | false => simp [count_ofString _ hc]

/-- Marks that are read from the text of marks are the same marks. -/
theorem ofString_text (set : Qualifiers) : ofString set.text = set := by
  have hkept : (set.text.toList.filter fun c => !isBlank c) = set.marks := by
    rw [text, String.toList_ofList, List.filter_eq_self]
    intro c hmem
    rw [set.noBlank c hmem]
    rfl
  have hperm := perm_ofString set.text
  rw [hkept] at hperm
  exact eq_iff_perm.mpr hperm

/-! ## Marks put together -/

theorem concat_eq_of_perm {sets others : List Qualifiers} (hperm : sets.Perm others) :
    concat sets = concat others := by
  apply eq_iff_perm.mpr
  calc
    (concat sets).marks.Perm (sets.flatMap marks) := perm_concat sets
    List.Perm _ (others.flatMap marks) := hperm.flatMap_right marks
    List.Perm _ (concat others).marks := (perm_concat others).symm

/-- Putting marks together is entering all of them at once. -/
theorem concat_map_ofString (raws : List String) :
    concat (raws.map ofString) = ofString (String.join raws) := by
  have hjoined : (raws.flatMap fun raw => raw.toList.filter fun c => !isBlank c) =
      (String.join raws).toList.filter fun c => !isBlank c := by
    rw [String.toList_join, List.filter_flatMap]
  apply eq_iff_perm.mpr
  calc
    (concat (raws.map ofString)).marks.Perm ((raws.map ofString).flatMap marks) :=
      perm_concat _
    _ = raws.flatMap fun raw => (ofString raw).marks := List.flatMap_map ..
    List.Perm _ (raws.flatMap fun raw => raw.toList.filter fun c => !isBlank c) :=
      .flatMap_left raws fun raw _ => perm_ofString raw
    _ = (String.join raws).toList.filter fun c => !isBlank c := hjoined
    List.Perm _ (ofString (String.join raws)).marks := (perm_ofString _).symm

theorem size_concat (sets : List Qualifiers) :
    (concat sets).size = (sets.map size).sum := by
  rw [size, (perm_concat sets).length_eq, List.length_flatMap]
  rfl

end Qualifiers

namespace Service

/-! ## The check of a request -/

variable {raw : String}

theorem qualifierDefect_of_lt (hmany : maxQualifiers < (Qualifiers.ofString raw).size) :
    qualifierDefect raw = some (.tooManyQualifiers (Qualifiers.ofString raw).size raw) := by
  rw [Qualifiers.size_ofString] at hmany ⊢
  rw [qualifierDefect]
  exact if_pos hmany

theorem qualifierDefect_of_le (hfew : (Qualifiers.ofString raw).size ≤ maxQualifiers) :
    qualifierDefect raw =
      if raw.toList.any isControl then some (.controlQualifier raw) else none := by
  rw [Qualifiers.size_ofString] at hfew
  rw [qualifierDefect]
  exact if_neg (Nat.not_lt.mpr hfew)

/-- A text is refused for its length exactly if too many marks would be kept. -/
theorem exists_lengthDefect_iff :
    (∃ defect ∈ qualifierDefect raw, defect.code = "qualifiers_length") ↔
      maxQualifiers < (Qualifiers.ofString raw).size := by
  constructor
  · rintro ⟨defect, hdefect, hcode⟩
    by_contra hfew
    rw [qualifierDefect_of_le (Nat.not_lt.mp hfew)] at hdefect
    split at hdefect
    · cases hdefect
      have hformat : "qualifiers_format" = "qualifiers_length" := hcode
      exact absurd hformat (by decide)
    · cases hdefect
  · intro hmany
    exact ⟨_, qualifierDefect_of_lt hmany, rfl⟩

end Service

namespace Qualifiers

/-- Qualifiers are the multisets of characters that are not blank: one value for each, which
reading its own text gives again.  Putting them together adds the multisets, whatever their
order, and what a request is told about their number is about the number that is kept. -/
theorem ofString_eq_iff_and_concat :
    (∀ left right : String, ofString left = ofString right ↔
      ∀ c, isBlank c = false → left.toList.count c = right.toList.count c) ∧
    (∀ raw, ofString (ofString raw).text = ofString raw) ∧
    (∀ raws : List String,
      concat (raws.map ofString) = ofString (String.join raws) ∧
      (∀ others : List String, others.Perm raws →
        concat (others.map ofString) = concat (raws.map ofString)) ∧
      (concat (raws.map ofString)).size = (raws.map fun raw => (ofString raw).size).sum) ∧
    ∀ raw, (∃ defect ∈ qualifierDefect raw, defect.code = "qualifiers_length") ↔
      16 < (ofString raw).size := by
  refine ⟨fun left right => ofString_eq_iff, fun raw => ofString_text _, fun raws => ?_,
    fun raw => exists_lengthDefect_iff⟩
  refine ⟨concat_map_ofString raws, fun others hperm => ?_, ?_⟩
  · exact concat_eq_of_perm (hperm.map ofString)
  · rw [size_concat, List.map_map]
    rfl

/-- Three fields, their marks with blanks and one mark twice, put together in two orders. -/
theorem concat_threeFields :
    ["zo", " ab", "o"].Perm ["o", "zo", " ab"] ∧
      concat (["zo", " ab", "o"].map ofString) = concat (["o", "zo", " ab"].map ofString) ∧
        (concat (["o", "zo", " ab"].map ofString)).text = "abooz" := by
  have hperm : ["zo", " ab", "o"].Perm ["o", "zo", " ab"] := by decide
  obtain ⟨-, horder, -⟩ := ofString_eq_iff_and_concat.2.2.1 ["o", "zo", " ab"]
  exact ⟨hperm, horder _ hperm, by decide⟩

end Qualifiers

end Scorekeeper
