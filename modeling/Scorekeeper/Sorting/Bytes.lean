/-!
# The order of byte strings

Keys are listed in the order of their bytes: the first byte that differs decides,
and a text comes before all that begin with it.
-/

namespace Scorekeeper.Sorting

def bytesLe : List UInt8 → List UInt8 → Bool
  | [], _ => true
  | _ :: _, [] => false
  | a :: as, b :: bs => a < b || (a == b && bytesLe as bs)

def textLe (a b : String) : Bool :=
  bytesLe a.toByteArray.data.toList b.toByteArray.data.toList

theorem bytesLe_total (as bs : List UInt8) : bytesLe as bs = true ∨ bytesLe bs as = true := by
  induction as generalizing bs with
  | nil => exact .inl rfl
  | cons a as ih =>
    cases bs with
    | nil => exact .inr rfl
    | cons b bs =>
      simp only [bytesLe, Bool.or_eq_true, decide_eq_true_eq, Bool.and_eq_true, beq_iff_eq]
      rcases ih bs with h | h <;> grind

theorem bytesLe_trans {as bs cs : List UInt8} (hab : bytesLe as bs = true)
    (hbc : bytesLe bs cs = true) : bytesLe as cs = true := by
  induction as generalizing bs cs with
  | nil => rfl
  | cons a as ih =>
    cases bs with
    | nil => simp [bytesLe] at hab
    | cons b bs =>
      cases cs with
      | nil => simp [bytesLe] at hbc
      | cons c cs =>
        simp only [bytesLe, Bool.or_eq_true, decide_eq_true_eq, Bool.and_eq_true,
          beq_iff_eq] at *
        have := @ih bs cs
        grind

theorem bytesLe_antisymm {as bs : List UInt8} (hab : bytesLe as bs = true)
    (hba : bytesLe bs as = true) : as = bs := by
  induction as generalizing bs with
  | nil => cases bs with
    | nil => rfl
    | cons b bs => simp [bytesLe] at hba
  | cons a as ih =>
    cases bs with
    | nil => simp [bytesLe] at hab
    | cons b bs =>
      simp only [bytesLe, Bool.or_eq_true, decide_eq_true_eq, Bool.and_eq_true,
        beq_iff_eq] at *
      have := @ih bs
      grind

end Scorekeeper.Sorting
