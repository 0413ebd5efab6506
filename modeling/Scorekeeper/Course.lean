import Scorekeeper.CardError

/-!
# Courses

A course as the catalog describes it.  The pars here are those of the catalog; a
card may override them for one round.
-/

namespace Scorekeeper

structure Course where
  id : String
  labels : List String
  pars : List UInt32
  /-- A course that is not enabled stays in the catalog but starts no card. -/
  enabled : Bool
  labels_ne_nil : labels ≠ []
  length_eq : labels.length = pars.length
  inRange : ∀ par ∈ pars, par.toNat ≤ maxValue
  deriving DecidableEq

namespace Course

/-- A course, if it has holes, one par for each, and no par that is too large. -/
def make (id : String) (labels : List String) (pars : List UInt32) (enabled : Bool) :
    Except CardError Course :=
  if hlabels : labels = [] then .error (.emptyCourse id)
  else if hlength : labels.length ≠ pars.length then
    .error (.lengthMismatch .coursePars labels.length pars.length)
  else
    match hpars : pars.find? fun par => decide (maxValue < par.toNat) with
    | some par => .error (.invalidValue par.toNat)
    | none =>
      .ok
        { id, labels, pars, enabled
          labels_ne_nil := hlabels
          length_eq := Decidable.not_not.1 hlength
          inRange := fun par hpar => by
            have := List.find?_eq_none.1 hpars par hpar
            simpa using this }

/-- An enabled course whose holes are labelled 1, 2, 3 and so on. -/
def numbered (id : String) (pars : List UInt32) : Except CardError Course :=
  make id ((List.range pars.length).map fun i => toString (i + 1)) pars true

def holes (course : Course) : Nat :=
  course.pars.length

/-- The sum of the pars, modulo 2^32. -/
def parTotal (course : Course) : UInt32 :=
  course.pars.foldr (· + ·) 0

end Course

end Scorekeeper
