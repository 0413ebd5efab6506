import Mathlib.Data.List.Count
import Scorekeeper.Proofs.Card.Rows

/-!
# Ranks along any pars

A row keeps no pars.  Entering a score ranks one hole against the par that is given with
it, ranking anew takes a whole list of pars, and nothing ties the pars of one call to
those of another.  Here calls come in any order and with any pars.  What is kept with a
hole is still the rank of its value against the par that was last applied to it, and the
tally, moved along by one kind of call and rebuilt by the other, still counts the ranks.
-/

namespace Scorekeeper.Player

/-- What can be asked of a row. -/
inductive Edit where
  | setScore (hole : Nat) (value : Int) (qualifiers : String) (par : UInt32)
  | updateRanks (pars : List UInt32)
  | updateTotal
  | rename (name : String)
  deriving DecidableEq

def attempt (player : Player) : Edit → Except CardError Player
  | .setScore hole value qualifiers par =>
    (player.setScore hole value qualifiers par).map Prod.snd
  | .updateRanks pars => player.updateRanks pars
  | .updateTotal => .ok player.updateTotal
  | .rename name => player.rename name

/-- The row that an edit leaves behind; one that is refused leaves it as it was. -/
def edit (player : Player) (change : Edit) : Player :=
  match player.attempt change with
  | .ok after => after
  | .error _ => player

def run (player : Player) (edits : List Edit) : Player :=
  edits.foldl edit player

/-- The par that an edit ranks a hole against. -/
def Edit.par? (hole : Nat) : Edit → Option UInt32
  | .setScore place _ _ par => if place = hole then some par else none
  | .updateRanks pars => pars[hole]?
  | .updateTotal | .rename _ => none

/-- The par that an edit applies to a hole; a refused edit applies none. -/
def appliedPar (hole : Nat) (player : Player) (change : Edit) : Option UInt32 :=
  match player.attempt change with
  | .ok _ => change.par? hole
  | .error _ => none

/-- The par that edits, made one after the other, last apply to a hole. -/
def lastPar (hole : Nat) : Player → List Edit → Option UInt32
  | _, [] => none
  | player, change :: edits =>
    (lastPar hole (player.edit change) edits).or (player.appliedPar hole change)

/-- The rank of a value against the par last applied to its hole, if one was. -/
def rankAgainst (value : UInt32) : Option UInt32 → Rank
  | some par => .classify value.toNat par.toNat
  | none => .unranked

/-- The row has so many holes, each ranked against its last par, and they are counted. -/
structure IsTallied (holes : Nat) (pars : Nat → Option UInt32) (player : Player) : Prop where
  length_eq : player.scores.length = holes
  rank_eq : ∀ (hole : Nat) (field : Field), player.scores[hole]? = some field →
    field.rank = some (rankAgainst field.value (pars hole))
  counts : player.tally.Counts (player.scores.map Field.countedRank)

variable {player after : Player} {holes : Nat} {pars : Nat → Option UInt32} {change : Edit}

theorem isTallied_new (number : UInt32) (name : Option String)
    (hholes : holes < UInt32.size) : (new number name holes).IsTallied holes fun _ => none where
  length_eq := by simp [new]
  rank_eq := by
    intro hole field hfield
    obtain ⟨place, -, rfl⟩ := List.mem_map.mp (List.mem_of_getElem? hfield)
    rfl
  counts := counts_new number name hholes

/-! ## One edit -/

/-- Entering a score finds its hole ranked, and moves the tally along from that rank. -/
theorem IsTallied.setScore_cases (htallied : player.IsTallied holes pars) {hole : Nat}
    {value : Int} {qualifiers : String} {par : UInt32} {rank : Rank}
    (hset : player.setScore hole value qualifiers par = .ok (rank, after)) :
    ∃ field entered, player.scores[hole]? = some field ∧
      entered.rank = some (Rank.classify entered.value.toNat par.toNat) ∧
        rank = entered.countedRank ∧ after = player.enter hole entered field.countedRank := by
  obtain ⟨field, word, hfield, rfl, hword, -⟩ := Player.setScore_cases hset
  have hrank := htallied.rank_eq hole field hfield
  have hcounted : field.countedRank = rankAgainst field.value (pars hole) := by
    rw [Field.countedRank, hrank, Option.getD_some]
  rw [setScore_of_ranked hfield hrank hword, ← hcounted] at hset
  cases hset
  refine ⟨field, (field.write word (.ofString qualifiers)).rerank par, hfield, ?_, rfl, rfl⟩
  rw [Field.rerank, Field.write, hrank]
  rfl

theorem IsTallied.enter (htallied : player.IsTallied holes pars) (hholes : holes < UInt32.size)
    {hole : Nat} {field entered : Field} {par : UInt32}
    (hfield : player.scores[hole]? = some field)
    (hentered : entered.rank = some (Rank.classify entered.value.toNat par.toNat)) :
    (player.enter hole entered field.countedRank).IsTallied holes
      fun place => (if hole = place then some par else none).or (pars place) where
  length_eq := by
    rw [Player.enter, updateTotal, List.length_set]
    exact htallied.length_eq
  rank_eq := by
    intro place other hother
    rw [Player.enter, updateTotal, List.getElem?_set] at hother
    split at hother
    · next hplace =>
      split at hother
      · cases hother
        rw [hentered, if_pos hplace]
        rfl
      · cases hother
    · next hplace =>
      rw [if_neg hplace, Option.none_or]
      exact htallied.rank_eq place other hother
  counts := counts_enter htallied.counts (htallied.length_eq.trans_lt hholes) hfield

theorem IsTallied.ranked (htallied : player.IsTallied holes pars) (hholes : holes < UInt32.size)
    {list : List UInt32} (hlength : list.length = holes) :
    (player.ranked list).IsTallied holes fun hole => (list[hole]?).or (pars hole) where
  length_eq := by
    rw [Player.ranked, List.length_zipWith, htallied.length_eq, hlength, Nat.min_self]
  rank_eq := by
    intro hole field hfield
    rw [Player.ranked, List.getElem?_zipWith_eq_some] at hfield
    obtain ⟨old, par, hold, hpar, rfl⟩ := hfield
    rw [hpar, Option.some_or, Field.rerank, htallied.rank_eq hole old hold]
    rfl
  counts := counts_ranked (htallied.length_eq.trans_lt hholes) list

/-- An edit that is carried out ranks the holes against the pars that it gives, and every
hole stays counted. -/
theorem IsTallied.attempt (htallied : player.IsTallied holes pars) (hholes : holes < UInt32.size)
    (hdone : player.attempt change = .ok after) :
    after.IsTallied holes fun hole => (change.par? hole).or (pars hole) := by
  cases change with
  | setScore hole value qualifiers par =>
      obtain ⟨⟨rank, changed⟩, hset, rfl⟩ := map_eq_ok_iff.mp hdone
      obtain ⟨field, entered, hfield, hentered, -, rfl⟩ := htallied.setScore_cases hset
      exact htallied.enter hholes hfield hentered
  | updateRanks list =>
      rw [Player.attempt, updateRanks] at hdone
      split at hdone
      · cases hdone
      · next hlength =>
        cases hdone
        apply htallied.ranked hholes
        rw [← htallied.length_eq]
        exact not_not.mp hlength
  | updateTotal =>
      cases hdone
      exact { htallied with }
  | rename name =>
      rw [Player.attempt, Player.rename] at hdone
      split at hdone
      · cases hdone
      · cases hdone
        exact { htallied with }

theorem IsTallied.edit (htallied : player.IsTallied holes pars) (hholes : holes < UInt32.size)
    (change : Edit) : (player.edit change).IsTallied holes
      fun hole => (player.appliedPar hole change).or (pars hole) := by
  rw [Player.edit]
  simp only [appliedPar]
  cases hattempt : player.attempt change with
  | error error => simpa only [Option.none_or] using htallied
  | ok after => exact htallied.attempt hholes hattempt

/-! ## All edits -/

theorem IsTallied.run (htallied : player.IsTallied holes pars) (hholes : holes < UInt32.size)
    (edits : List Edit) : (player.run edits).IsTallied holes
      fun hole => (lastPar hole player edits).or (pars hole) := by
  induction edits generalizing player pars with
  | nil => exact htallied
  | cons change edits ih =>
      have hrest := ih (htallied.edit hholes change)
      simp only [← Option.or_assoc] at hrest
      exact hrest

/-- The ranks and the tally of a row are what counting afresh makes them, and no count stops
at zero when a score is entered next. -/
structure IsRecounted (holes : Nat) (pars : Nat → Option UInt32) (player : Player) : Prop where
  length_eq : player.scores.length = holes
  rank_eq : ∀ (hole : Nat) (field : Field), player.scores[hole]? = some field →
    field.rank = some (rankAgainst field.value (pars hole))
  tally_eq : player.tally = .ofRanks (player.scores.map Field.countedRank)
  count_eq : ∀ rank, (player.tally.count rank).toNat =
    (player.scores.map Field.rank).count (some rank)
  sum_eq : (player.tally.entries.map fun entry => entry.2.toNat).sum = holes
  total_eq : player.tally.total.toNat = holes
  moved : ∀ (hole : Nat) (value : Int) (qualifiers : String) (par : UInt32) (rank : Rank)
    (after : Player), player.setScore hole value qualifiers par = .ok (rank, after) →
      ∃ field before, player.scores[hole]? = some field ∧ field.rank = some before ∧
        after.tally = player.tally.shift before rank ∧ player.tally.count before ≠ 0

theorem IsTallied.isRecounted (htallied : player.IsTallied holes pars)
    (hholes : holes < UInt32.size) : player.IsRecounted holes pars where
  length_eq := htallied.length_eq
  rank_eq := htallied.rank_eq
  tally_eq := by
    apply htallied.counts.unique
    apply Tally.counts_ofRanks
    rw [List.length_map]
    exact htallied.length_eq.trans_lt hholes
  count_eq := by
    intro rank
    have hranked : ∀ field ∈ player.scores, field.rank ≠ none := by
      intro field hmem
      obtain ⟨hole, hfield⟩ := List.mem_iff_getElem?.mp hmem
      rw [htallied.rank_eq hole field hfield]
      exact Option.some_ne_none _
    calc
      (player.tally.count rank).toNat = (player.scores.map Field.countedRank).count rank :=
        htallied.counts rank
      _ = ((player.scores.map Field.countedRank).map some).count (some rank) :=
        (List.count_map_of_injective _ _ (Option.some_injective _) rank).symm
      _ = (player.scores.map Field.rank).count (some rank) := by
        rw [Field.map_rank_eq hranked]
  sum_eq := by
    rw [htallied.counts.sum_entries, List.length_map, htallied.length_eq]
  total_eq := by
    rw [htallied.counts.toNat_total, List.length_map, htallied.length_eq]
    rw [List.length_map]
    exact htallied.length_eq.trans_lt hholes
  moved := by
    intro hole value qualifiers par rank after hset
    obtain ⟨field, entered, hfield, -, rfl, rfl⟩ := htallied.setScore_cases hset
    have hrank := htallied.rank_eq hole field hfield
    have hcounted : (player.scores.map Field.countedRank)[hole]? = some field.countedRank := by
      rw [List.getElem?_map, hfield]
      rfl
    refine ⟨field, field.countedRank, hfield, ?_, rfl, htallied.counts.count_ne_zero hcounted⟩
    rw [Field.countedRank, hrank, Option.getD_some]

/-- Whatever is asked of a new row and with whatever pars, its ranks follow the pars last
applied and its tally is the one that counting afresh gives. -/
theorem isRecounted_run (number : UInt32) (name : Option String) {holes : Nat}
    (hholes : holes < UInt32.size) (edits : List Edit) :
    ((new number name holes).run edits).IsRecounted holes
      fun hole => lastPar hole (new number name holes) edits := by
  have htallied := (isTallied_new number name hholes).run hholes edits
  simp only [Option.or_none] at htallied
  exact htallied.isRecounted hholes

/-- Pars that have nothing to do with each other, and two edits that are refused. -/
def strayPars : List Edit :=
  [.setScore 0 3 "b" 4, .updateRanks [5, 5, 5], .setScore 2 1 "" 0, .updateRanks [1],
    .setScore 1 7 "a" 4294967295, .setScore 3 2 "" 3, .rename " Bo "]

theorem isRecounted_strayPars :
    3 < UInt32.size ∧ ((new 1 none 3).run strayPars).IsRecounted 3
      (fun hole => lastPar hole (new 1 none 3) strayPars) ∧
        ((new 1 none 3).run strayPars).scores.map Field.rank =
          [some .twoUnderOrBetter, some .twoUnderOrBetter, some .unranked] := by
  have hholes : 3 < UInt32.size := by decide
  exact ⟨hholes, isRecounted_run 1 none hholes strayPars, by decide⟩

end Scorekeeper.Player
