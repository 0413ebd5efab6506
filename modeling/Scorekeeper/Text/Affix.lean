/-!
# Heads, tails and separators of texts

File names are taken apart by their head and tail, and ids by a separator.
These are the tests on lists of characters that both need.
-/

namespace Scorekeeper.Text

/-- What follows `head` at the start of `cs`, when `cs` starts with it. -/
def dropHead : List Char → List Char → Option (List Char)
  | [], cs => some cs
  | _ :: _, [] => none
  | h :: head, c :: cs => if h = c then dropHead head cs else none

/-- What stands before `tail` at the end of `cs`, when `cs` ends with it. -/
def dropTail (tail cs : List Char) : Option (List Char) :=
  (dropHead tail.reverse cs.reverse).map List.reverse

/-- Two dots in a row somewhere in the text. -/
def hasDoubleDot : List Char → Bool
  | '.' :: '.' :: _ => true
  | _ :: rest => hasDoubleDot rest
  | [] => false

/-- The parts of a text between the places where `separator` stands; one more part
than there are separators. -/
def split (separator : Char) : List Char → List (List Char)
  | [] => [[]]
  | c :: rest =>
    if c = separator then [] :: split separator rest
    else
      match split separator rest with
      | [] => [[c]]
      | part :: parts => (c :: part) :: parts

/-- What stands before the first `mark`, and what follows it, if it stands there. -/
def cut (mark : Char) (cs : List Char) : List Char × Option (List Char) :=
  match cs.dropWhile (· != mark) with
  | [] => (cs, none)
  | _ :: rest => (cs.takeWhile (· != mark), some rest)

theorem length_lt_of_cut {mark : Char} {cs line rest : List Char}
    (h : cut mark cs = (line, some rest)) : rest.length < cs.length := by
  have hle : (cs.dropWhile (· != mark)).length ≤ cs.length :=
    (List.dropWhile_suffix _).length_le
  unfold cut at h
  split at h
  · simp at h
  · next hdrop =>
    simp only [Prod.mk.injEq, Option.some.injEq] at h
    rw [hdrop, List.length_cons, h.2] at hle
    omega

theorem split_of_not_mem {separator : Char} {cs : List Char} (h : separator ∉ cs) :
    split separator cs = [cs] := by
  induction cs with
  | nil => rfl
  | cons c cs ih =>
    have hc : c ≠ separator := fun e => h (by simp [e])
    simp [split, hc, ih fun hm => h (List.mem_cons_of_mem _ hm)]

theorem split_append_cons {separator : Char} {part rest : List Char} (h : separator ∉ part) :
    split separator (part ++ separator :: rest) = part :: split separator rest := by
  induction part with
  | nil => simp [split]
  | cons c part ih =>
    have hc : c ≠ separator := fun e => h (by simp [e])
    simp [split, hc, ih fun hm => h (List.mem_cons_of_mem _ hm)]

theorem split_ne_nil (separator : Char) (cs : List Char) : split separator cs ≠ [] := by
  cases cs with
  | nil => exact List.cons_ne_nil _ _
  | cons c cs =>
      rw [split]
      split
      · exact List.cons_ne_nil _ _
      · split <;> exact List.cons_ne_nil _ _

/-- The first part is the whole text, or it ends at the first separator. -/
theorem split_eq_cons {separator : Char} {cs part : List Char} {parts : List (List Char)}
    (hsplit : split separator cs = part :: parts) :
    (cs = part ∧ parts = []) ∨
      ∃ rest, cs = part ++ separator :: rest ∧ split separator rest = parts := by
  induction cs generalizing part with
  | nil =>
      cases hsplit
      exact .inl ⟨rfl, rfl⟩
  | cons c cs ih =>
      rw [split] at hsplit
      split at hsplit
      · next hc =>
        cases hsplit
        exact .inr ⟨cs, by rw [hc, List.nil_append], rfl⟩
      · split at hsplit
        · next hnil => exact absurd hnil (split_ne_nil separator cs)
        · next first others hrest =>
          cases hsplit
          obtain ⟨rfl, hothers⟩ | ⟨rest, rfl, hothers⟩ := ih hrest
          · exact .inl ⟨rfl, hothers⟩
          · exact .inr ⟨rest, List.cons_append.symm, hothers⟩

theorem hasDoubleDot_eq_true_iff (cs : List Char) :
    hasDoubleDot cs = true ↔ ['.', '.'] <:+: cs := by
  induction cs with
  | nil => simp [hasDoubleDot]
  | cons c cs ih =>
      have hcons : hasDoubleDot (c :: cs) = true ↔
          (c = '.' ∧ cs.head? = some '.') ∨ hasDoubleDot cs = true := by
        rw [hasDoubleDot.eq_def]
        split
        · next heq =>
          cases heq
          simp
        · next first rest hnot heq =>
          cases heq
          have hfirst : ¬(c = '.' ∧ cs.head? = some '.') := by
            rintro ⟨rfl, hhead⟩
            obtain ⟨rest, rfl⟩ := List.head?_eq_some_iff.mp hhead
            exact hnot rest rfl rfl
          simp [hfirst]
        · next heq => cases heq
      have hstart : ['.', '.'] <+: c :: cs ↔ c = '.' ∧ cs.head? = some '.' := by
        cases cs <;> simp [eq_comm]
      rw [hcons, List.infix_cons_iff, hstart, ih]

theorem dropHead_eq_some_iff {head cs rest : List Char} :
    dropHead head cs = some rest ↔ cs = head ++ rest := by
  induction head generalizing cs with
  | nil => simp [dropHead, eq_comm]
  | cons h head ih =>
    cases cs with
    | nil => simp [dropHead]
    | cons c cs =>
      by_cases hc : h = c
      · subst hc; simp [dropHead, ih]
      · have hc' : c ≠ h := fun e => hc e.symm
        simp [dropHead, hc, hc']

theorem dropTail_eq_some_iff {tail cs rest : List Char} :
    dropTail tail cs = some rest ↔ cs = rest ++ tail := by
  simp only [dropTail, Option.map_eq_some_iff, dropHead_eq_some_iff]
  constructor
  · rintro ⟨back, hback, rfl⟩
    have := congrArg List.reverse hback
    simpa using this
  · rintro rfl
    exact ⟨rest.reverse, by simp, by simp⟩

end Scorekeeper.Text
