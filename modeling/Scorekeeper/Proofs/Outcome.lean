import Mathlib.Data.List.Forall2

/-!
# Steps that may fail

Reading and checking are written as steps one after the other, of which the first
that fails decides.  These are the facts about such steps that the proofs use: what
it means that all of them succeed.
-/

namespace Scorekeeper

variable {ε ε' α β : Type} {result : Except ε α}

theorem bind_eq_ok_iff {next : α → Except ε β} {value : β} :
    result >>= next = .ok value ↔ ∃ first, result = .ok first ∧ next first = .ok value := by
  cases result <;> simp [bind, Except.bind]

theorem bind_eq_error_iff {next : α → Except ε β} {error : ε} :
    result >>= next = .error error ↔
      result = .error error ∨ ∃ first, result = .ok first ∧ next first = .error error := by
  cases result <;> simp [bind, Except.bind]

theorem map_eq_ok_iff {f : α → β} {value : β} :
    result.map f = .ok value ↔ ∃ first, result = .ok first ∧ f first = value := by
  cases result <;> simp [Except.map]

theorem map_eq_error_iff {f : α → β} {error : ε} :
    result.map f = .error error ↔ result = .error error := by
  cases result <;> simp [Except.map]

theorem map_unit {result : Except ε Unit} : (result.map fun _ => ()) = result := by
  cases result <;> rfl

theorem mapError_eq_ok_iff {f : ε → ε'} {value : α} :
    result.mapError f = .ok value ↔ result = .ok value := by
  cases result <;> simp [Except.mapError]

theorem mapError_eq_error_iff {f : ε → ε'} {error : ε'} :
    result.mapError f = .error error ↔ ∃ first, result = .error first ∧ f first = error := by
  cases result <;> simp [Except.mapError]

/-- Going on after a check. -/
theorem throwIf_eq_ok_iff {test : Prop} [Decidable test] {error : ε}
    {next : Unit → Except ε β} {value : β} :
    (if test then throw error >>= next else next ()) = .ok value ↔
      ¬test ∧ next () = .ok value := by
  by_cases htest : test
  · simp [htest, throw, throwThe, MonadExceptOf.throw, bind, Except.bind]
  · simp [htest]

/-- Taking a step for every item succeeds when it succeeds for each of them. -/
theorem mapM_eq_ok_iff {step : α → Except ε β} {items : List α} {values : List β} :
    items.mapM step = .ok values ↔
      List.Forall₂ (fun item value => step item = .ok value) items values := by
  induction items generalizing values with
  | nil => simp [pure, Except.pure, eq_comm]
  | cons item items ih =>
      rw [List.mapM_cons]
      simp only [bind_eq_ok_iff, ih, List.forall₂_cons_left_iff]
      constructor
      · rintro ⟨value, hvalue, rest, hrest, hsame⟩
        cases hsame
        exact ⟨value, rest, hvalue, hrest, rfl⟩
      · rintro ⟨value, rest, hvalue, hrest, rfl⟩
        exact ⟨value, hvalue, rest, hrest, rfl⟩

/-- If a step succeeds for every item, the values are those of the items for which it succeeds. -/
theorem forall₂_ok_iff {step : α → Except ε β} {items : List α} {values : List β} :
    List.Forall₂ (fun item value => step item = .ok value) items values ↔
      (∀ item ∈ items, ∃ value, step item = .ok value) ∧
        items.filterMap (fun item => (step item).toOption) = values := by
  induction items generalizing values with
  | nil => simp [eq_comm]
  | cons item items ih =>
      rw [List.forall₂_cons_left_iff, List.forall_mem_cons, List.filterMap_cons]
      cases step item with
      | error error => simp
      | ok value => simp [ih, Except.toOption, and_assoc, eq_comm]

theorem forM_eq_ok_iff {step : α → Except ε Unit} {items : List α} {done : Unit} :
    items.forM step = .ok done ↔ ∀ item ∈ items, step item = .ok () := by
  induction items with
  | nil => simp [pure, Except.pure]
  | cons item items ih =>
      change (step item >>= fun _ => items.forM step) = .ok done ↔ _
      rw [bind_eq_ok_iff, List.forall_mem_cons, ← ih]
      constructor
      · rintro ⟨⟨⟩, hitem, hrest⟩
        exact ⟨hitem, hrest⟩
      · rintro ⟨hitem, hrest⟩
        exact ⟨(), hitem, hrest⟩

theorem discard_eq_ok_iff {done : Unit} :
    discard result = .ok done ↔ ∃ value, result = .ok value := by
  cases result <;> simp [discard, Functor.discard, Functor.mapConst, Except.map]

/-! ## The first failure -/

/-- The error in which steps end, if one of them fails. -/
def errorOf : Except ε α → Option ε
  | .ok _ => none
  | .error error => some error

theorem errorOf_eq_some_iff {error : ε} : errorOf result = some error ↔ result = .error error := by
  cases result <;> simp [errorOf]

theorem errorOf_eq_none_iff : errorOf result = none ↔ ∃ value, result = .ok value := by
  cases result <;> simp [errorOf]

theorem errorOf_discard : errorOf (discard result) = errorOf result := by
  cases result <;> rfl

/-- What comes after a step fails only when the step does not. -/
theorem errorOf_bind {next : α → Except ε β} {later : Option ε}
    (hnext : ∀ value, result = .ok value → errorOf (next value) = later) :
    errorOf (result >>= next) = (errorOf result).or later := by
  cases result with
  | error error => rfl
  | ok value => exact (hnext value rfl).trans Option.none_or.symm

/-- Going on after a step that gives nothing back. -/
theorem errorOf_bind_unit {result : Except ε Unit} {next : Unit → Except ε β} :
    errorOf (result >>= next) = (errorOf result).or (errorOf (next ())) :=
  errorOf_bind fun _ _ => rfl

theorem errorOf_bind_pure {f : α → β} :
    errorOf (result >>= fun value => pure (f value)) = errorOf result := by
  cases result <;> rfl

theorem errorOf_throwIf {test : Prop} [Decidable test] {error : ε}
    {next : Unit → Except ε β} :
    errorOf (if test then throw error >>= next else next ()) =
      (if test then some error else none).or (errorOf (next ())) := by
  by_cases htest : test
  · rw [if_pos htest, if_pos htest]
    rfl
  · rw [if_neg htest, if_neg htest, Option.none_or]

theorem findSome?_flatMap {γ : Type} {parts : α → List β} {test : β → Option γ}
    {items : List α} :
    (items.flatMap parts).findSome? test =
      items.findSome? fun item => (parts item).findSome? test := by
  induction items with
  | nil => rfl
  | cons item items ih =>
      rw [List.flatMap_cons, List.findSome?_append, List.findSome?_cons, ih]
      cases (parts item).findSome? test <;> rfl

theorem errorOf_forM {step : α → Except ε Unit} {items : List α} :
    errorOf (items.forM step) = items.findSome? fun item => errorOf (step item) := by
  induction items with
  | nil => rfl
  | cons item items ih =>
      rw [List.findSome?_cons]
      change errorOf (step item >>= fun _ => items.forM step) = _
      rw [errorOf_bind_unit, ih]
      cases errorOf (step item) <;> rfl

theorem errorOf_mapM {step : α → Except ε β} {items : List α} :
    errorOf (items.mapM step) = items.findSome? fun item => errorOf (step item) := by
  induction items with
  | nil => rfl
  | cons item items ih =>
      have hrest (value : β) (_ : step item = .ok value) :
          errorOf (items.mapM step >>= fun values => pure (value :: values)) =
            items.findSome? fun item => errorOf (step item) := by
        rw [errorOf_bind_pure, ih]
      rw [List.mapM_cons, List.findSome?_cons, errorOf_bind hrest]
      cases errorOf (step item) <;> rfl

end Scorekeeper
