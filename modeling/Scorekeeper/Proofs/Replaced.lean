import Mathlib.Data.List.Forall2

/-!
# Replacing an item of a list

What is kept when one item of a list is put in the place of another.
-/

namespace Scorekeeper

variable {α β : Type} {items : List α} {place : Nat} {old item : α}

/-- An item is found again after one was replaced, or it is the one that was replaced. -/
theorem eq_or_mem_set (new : α) (hfound : items[place]? = some old) (hmem : item ∈ items) :
    item = old ∨ item ∈ items.set place new := by
  obtain ⟨other, hother⟩ := List.getElem?_of_mem hmem
  by_cases hplace : other = place
  · rw [hplace, hfound] at hother
    exact .inl (Option.some.inj hother).symm
  · rw [← List.getElem?_set_ne (Ne.symm hplace)] at hother
    exact .inr (List.mem_of_getElem? hother)

/-- What is found after one item was replaced is the new item, or it was there before. -/
theorem getElem?_set_cases {new : α} {other : Nat}
    (hfound : (items.set place new)[other]? = some item) :
    (other = place ∧ item = new) ∨ other ≠ place ∧ items[other]? = some item := by
  rw [List.getElem?_set] at hfound
  split at hfound
  · next heq =>
    split at hfound
    · exact .inl ⟨heq.symm, (Option.some.inj hfound).symm⟩
    · cases hfound
  · next hne => exact .inr ⟨fun heq => hne heq.symm, hfound⟩

/-- What is true of all items and of a new one is still true of all. -/
theorem forall_mem_set {law : α → Prop} {new : α} (hall : ∀ item ∈ items, law item)
    (hnew : law new) : ∀ item ∈ items.set place new, law item := by
  intro item hmem
  obtain hmem | rfl := List.mem_or_eq_of_mem_set hmem
  · exact hall item hmem
  · exact hnew

/-- Replacing an item by one with the same image changes no image. -/
theorem map_set_of_eq {f : α → β} {new : α} (hfound : items[place]? = some old)
    (hsame : f new = f old) : (items.set place new).map f = items.map f := by
  obtain ⟨hlt, rfl⟩ := List.getElem?_eq_some_iff.mp hfound
  have hroom : place < (items.map f).length := by simpa using hlt
  have himage : f items[place] = (items.map f)[place] := by simp
  rw [List.map_set, hsame, himage, List.set_getElem_self]

section Related

variable {R : α → β → Prop} {left : List α} {right : List β}

/-- Related lists have related items at a place, or none. -/
theorem getElem?_cases_of_forall₂ (hall : List.Forall₂ R left right) (place : Nat) :
    (left[place]? = none ∧ right[place]? = none) ∨
      ∃ a b, left[place]? = some a ∧ right[place]? = some b ∧ R a b := by
  induction hall generalizing place with
  | nil => exact .inl ⟨rfl, rfl⟩
  | cons hhead _ ih =>
      cases place with
      | zero => exact .inr ⟨_, _, rfl, rfl, hhead⟩
      | succ place => exact ih place

theorem forall₂_set (hall : List.Forall₂ R left right) (place : Nat) {a : α} {b : β}
    (hnew : R a b) : List.Forall₂ R (left.set place a) (right.set place b) := by
  induction hall generalizing place with
  | nil => exact .nil
  | cons hhead htail ih =>
      cases place with
      | zero => exact .cons hnew htail
      | succ place => exact .cons hhead (ih place)

end Related

end Scorekeeper
