import Mathlib.Data.List.TakeWhile
import Scorekeeper.Text.Blank

/-!
# Trimmed texts

Names, passphrases and the ids of courses are trimmed before they are used.  Trimming
leaves a text that neither begins nor ends with a blank, and does nothing more to such a
text.
-/

namespace Scorekeeper.Text

theorem dropWhile_eq_self {test : Char → Bool} {cs : List Char}
    (hhead : ∀ c, cs.head? = some c → test c = false) : cs.dropWhile test = cs := by
  cases cs with
  | nil => rfl
  | cons c cs => simp [hhead c rfl]

theorem head?_dropWhile {test : Char → Bool} {cs : List Char} {c : Char}
    (hhead : (cs.dropWhile test).head? = some c) : test c = false := by
  have hnot := List.head?_dropWhile_not test cs
  rw [hhead] at hnot
  simpa using hnot

/-- A text that neither begins nor ends with a blank is left as it is. -/
theorem trimChars_eq_self {cs : List Char}
    (hhead : ∀ c, cs.head? = some c → isBlank c = false)
    (hlast : ∀ c, cs.getLast? = some c → isBlank c = false) : trimChars cs = cs := by
  have hback : ∀ c, cs.reverse.head? = some c → isBlank c = false := by
    simpa using hlast
  rw [trimChars, dropWhile_eq_self hhead, dropWhile_eq_self hback, List.reverse_reverse]

theorem trimChars_trimChars (cs : List Char) : trimChars (trimChars cs) = trimChars cs := by
  apply trimChars_eq_self
  · intro c hhead
    -- what is left of the front is a head of what the first pass left
    have hfront : trimChars cs <+: cs.dropWhile isBlank := by
      rw [trimChars, ← List.reverse_suffix, List.reverse_reverse]
      exact List.dropWhile_suffix _
    obtain ⟨rest, hrest⟩ := hfront
    have hfirst : (cs.dropWhile isBlank).head? = some c := by
      rw [← hrest, List.head?_append, hhead]
      rfl
    exact head?_dropWhile hfirst
  · intro c hlast
    rw [trimChars, List.getLast?_reverse] at hlast
    exact head?_dropWhile hlast

/-- Only blanks are lost altogether. -/
theorem trim_eq_empty_iff {s : String} : trim s = "" ↔ ∀ c ∈ s.toList, isBlank c = true := by
  rw [trim, ← String.toList_inj, String.toList_ofList, trimChars, String.toList_empty,
    List.reverse_eq_nil_iff, List.dropWhile_eq_nil_iff]
  constructor
  · intro hback
    rw [← List.dropWhile_eq_nil_iff]
    -- what is left at the front begins with a character that is not blank
    apply List.head?_eq_none_iff.mp
    apply Option.eq_none_iff_forall_ne_some.mpr
    intro c hfirst
    have hblank := hback c (List.mem_reverse.mpr (List.mem_of_head? hfirst))
    rw [head?_dropWhile hfirst] at hblank
    cases hblank
  · intro hall c hmem
    exact hall c ((List.dropWhile_sublist _).subset (List.mem_reverse.mp hmem))

theorem trim_trim (s : String) : trim (trim s) = trim s := by
  simp [trim, trimChars_trimChars]

theorem length_trim_le (s : String) : (trim s).toList.length ≤ s.toList.length := by
  have hfront := (List.dropWhile_sublist isBlank (l := s.toList)).length_le
  have hback := (List.dropWhile_sublist isBlank
    (l := (s.toList.dropWhile isBlank).reverse)).length_le
  rw [List.length_reverse] at hback
  rw [trim, String.toList_ofList, trimChars, List.length_reverse]
  exact hback.trans hfront

end Scorekeeper.Text
