/-!
# Sorting by insertion

Qualifiers and queue keys are kept sorted.  The lists are short, so they are
sorted by inserting one element after another, by recursion on the list.  The
result is a rearrangement of the input and is in order; both facts together
determine it when the order is antisymmetric.
-/

namespace Scorekeeper.Sorting

variable {A : Type}

def insert (le : A → A → Bool) (a : A) : List A → List A
  | [] => [a]
  | b :: bs => if le a b then a :: b :: bs else b :: insert le a bs

def sort (le : A → A → Bool) : List A → List A
  | [] => []
  | a :: as => insert le a (sort le as)

theorem insert_perm (le : A → A → Bool) (a : A) (bs : List A) :
    (insert le a bs).Perm (a :: bs) := by
  induction bs with
  | nil => exact .refl _
  | cons b bs ih =>
    unfold insert
    split
    · exact .refl _
    · exact (List.Perm.cons b ih).trans (.swap a b bs)

theorem sort_perm (le : A → A → Bool) (as : List A) : (sort le as).Perm as := by
  induction as with
  | nil => exact .refl _
  | cons a as ih => exact (insert_perm le a _).trans (.cons a ih)

theorem mem_sort {le : A → A → Bool} {a : A} {as : List A} : a ∈ sort le as ↔ a ∈ as :=
  (sort_perm le as).mem_iff

variable {le : A → A → Bool}

theorem pairwise_insert (htotal : ∀ a b, le a b = true ∨ le b a = true)
    (htrans : ∀ a b c, le a b = true → le b c = true → le a c = true) (a : A) {bs : List A}
    (h : bs.Pairwise (le · · = true)) : (insert le a bs).Pairwise (le · · = true) := by
  induction bs with
  | nil => simp [insert]
  | cons b bs ih =>
    obtain ⟨hb, hbs⟩ := List.pairwise_cons.1 h
    unfold insert
    split
    case isTrue hab =>
      refine List.pairwise_cons.2 ⟨fun x hx => ?_, h⟩
      rcases List.mem_cons.1 hx with rfl | hx
      · exact hab
      · exact htrans _ _ _ hab (hb x hx)
    case isFalse hab =>
      refine List.pairwise_cons.2 ⟨fun x hx => ?_, ih hbs⟩
      rcases List.mem_cons.1 ((insert_perm le a bs).mem_iff.1 hx) with rfl | hx
      · exact (htotal x b).resolve_left hab
      · exact hb x hx

theorem pairwise_sort (htotal : ∀ a b, le a b = true ∨ le b a = true)
    (htrans : ∀ a b c, le a b = true → le b c = true → le a c = true) (as : List A) :
    (sort le as).Pairwise (le · · = true) := by
  induction as with
  | nil => exact .nil
  | cons a as ih => exact pairwise_insert htotal htrans a ih

end Scorekeeper.Sorting
