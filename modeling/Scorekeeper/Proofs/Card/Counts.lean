import Mathlib.Algebra.Order.BigOperators.Group.List
import Mathlib.Algebra.Order.Ring.Nat
import Scorekeeper.Course
import Scorekeeper.Field
import Scorekeeper.Tally

/-!
# Counts and sums of a row

Tallies and totals are kept in 32-bit words.  A tally that is moved along hole by
hole and one that is built from all ranks at once agree, because each holds the
exact number of holes of every rank; and the values of a card are small enough
that their sums do not wrap.  This file proves both.
-/

namespace Scorekeeper

/-- The largest number of holes whose values add up below 2^32, whatever they are. -/
def holeLimit : Nat := 4299266

/-- The sum of words wraps around. -/
theorem toNat_foldr_add_mod (words : List UInt32) :
    (words.foldr (· + ·) 0).toNat = (words.map UInt32.toNat).sum % UInt32.size := by
  induction words with
  | nil => rfl
  | cons word words ih =>
      rw [List.map_cons, List.sum_cons]
      calc
        ((word :: words).foldr (· + ·) 0).toNat =
            (word.toNat + (words.foldr (· + ·) 0).toNat) % UInt32.size :=
          UInt32.toNat_add _ _
        _ = (word.toNat + (words.map UInt32.toNat).sum) % UInt32.size := by
          rw [ih]
          exact Nat.add_mod_mod _ _ _

/-- A sum of words that stays below 2^32 is exact. -/
theorem toNat_foldr_add {words : List UInt32}
    (hroom : (words.map UInt32.toNat).sum < UInt32.size) :
    (words.foldr (· + ·) 0).toNat = (words.map UInt32.toNat).sum := by
  rw [toNat_foldr_add_mod, Nat.mod_eq_of_lt hroom]

/-- Values of a card have a sum below 2^32 when there are few enough of them. -/
theorem sum_lt_size {values : List Nat} (hvalues : ∀ value ∈ values, value ≤ maxValue)
    (hlength : values.length ≤ holeLimit) : values.sum < UInt32.size := by
  calc
    values.sum ≤ values.length * maxValue := by
      simpa using List.sum_le_card_nsmul values maxValue hvalues
    _ ≤ holeLimit * maxValue := Nat.mul_le_mul_right _ hlength
    _ < UInt32.size := by decide

namespace Tally

variable {tally : Tally} {ranks : List Rank}

/-- The tally holds, under every rank, how often it occurs in the list. -/
def Counts (tally : Tally) (ranks : List Rank) : Prop :=
  ∀ rank, (tally.count rank).toNat = ranks.count rank

@[simp]
theorem count_zero (rank : Rank) : zero.count rank = 0 := by
  simp [zero, count]

theorem counts_zero : zero.Counts [] := by
  intro rank
  simp

/-- A tally is determined by what it counts. -/
theorem Counts.unique {other : Tally} (hcounts : tally.Counts ranks)
    (hother : other.Counts ranks) : tally = other := by
  have hsame (rank : Rank) : tally.count rank = other.count rank := by
    apply UInt32.toNat_inj.mp
    rw [hcounts rank, hother rank]
  have hindex (i : Fin 8) : ∃ rank : Rank, rank.index = i := by
    have hall : ∀ i : Fin 8, ∃ rank ∈ Rank.all, rank.index = i := by decide
    obtain ⟨rank, -, hrank⟩ := hall i
    exact ⟨rank, hrank⟩
  cases tally with
  | mk counts =>
      cases other with
      | mk others =>
          congr 1
          apply Vector.ext
          intro i hi
          obtain ⟨rank, hrank⟩ := hindex ⟨i, hi⟩
          have hvalue : (rank.index : Nat) = i := congrArg Fin.val hrank
          simpa [count, hvalue] using hsame rank

theorem counts_unranked {holes : Nat} (hholes : holes < UInt32.size) :
    (unranked holes).Counts (List.replicate holes .unranked) := by
  intro rank
  rw [unranked, count_put, List.count_replicate]
  by_cases hrank : rank = .unranked
  · simp [hrank, UInt32.toNat_ofNat_of_lt' hholes]
  · have hne : (Rank.unranked == rank) = false := beq_eq_false_iff_ne.mpr (Ne.symm hrank)
    simp [hrank, hne]

/-- One more hole of a rank. -/
theorem Counts.increment {before after : List Rank} {added : Rank}
    (hcounts : tally.Counts before) (hafter : after.Perm (added :: before))
    (hroom : after.length < UInt32.size) : (tally.increment added).Counts after := by
  intro rank
  rw [Tally.increment, count_put, hafter.count_eq, List.count_cons]
  by_cases hrank : rank = added
  · subst hrank
    have hlt : before.count rank + 1 < UInt32.size := by
      have hlength := hafter.length_eq
      have hle : before.count rank ≤ before.length := List.count_le_length
      rw [List.length_cons] at hlength
      omega
    rw [if_pos rfl, UInt32.toNat_add, hcounts rank]
    simpa using Nat.mod_eq_of_lt hlt
  · simp [hrank, Ne.symm hrank, hcounts rank]

/-- One hole less of a rank that occurs, so that the count does not stop at zero. -/
theorem Counts.decrement {before after : List Rank} {removed : Rank}
    (hcounts : tally.Counts before) (hafter : before.Perm (removed :: after)) :
    (tally.decrement removed).Counts after := by
  intro rank
  have hrank := hcounts rank
  rw [hafter.count_eq, List.count_cons] at hrank
  rw [Tally.decrement, count_put]
  by_cases hsame : rank = removed
  · subst hsame
    rw [beq_self_eq_true, if_pos rfl] at hrank
    have hone : (1 : UInt32) ≤ tally.count rank := by
      rw [UInt32.le_iff_toNat_le, hrank]
      exact Nat.succ_le_succ (Nat.zero_le _)
    have hne : tally.count rank ≠ 0 := by
      intro hzero
      rw [hzero] at hrank
      cases hrank
    rw [if_pos rfl, if_neg hne, UInt32.toNat_sub_of_le _ _ hone, hrank]
    rfl
  · simpa [hsame, Ne.symm hsame] using hrank

/-- A rank that a hole has is counted, so that one can be taken off. -/
theorem Counts.count_ne_zero (hcounts : tally.Counts ranks) {hole : Nat} {rank : Rank}
    (hrank : ranks[hole]? = some rank) : tally.count rank ≠ 0 := by
  intro hzero
  have hcount : 0 < ranks.count rank := List.count_pos_iff.mpr (List.mem_of_getElem? hrank)
  rw [← hcounts rank, hzero] at hcount
  exact Nat.lt_irrefl 0 hcount

/-- Moving the tally along keeps it exact when the rank of one hole changes. -/
theorem Counts.shift (hcounts : tally.Counts ranks) {hole : Nat} {before : Rank}
    (hbefore : ranks[hole]? = some before) (hlength : ranks.length < UInt32.size)
    (after : Rank) : (tally.shift before after).Counts (ranks.set hole after) := by
  obtain ⟨hlt, hget⟩ := List.getElem?_eq_some_iff.mp hbefore
  rw [Tally.shift]
  by_cases hsame : before = after
  · rw [if_pos hsame, ← hsame, ← hget, List.set_getElem_self]
    exact hcounts
  · rw [if_neg hsame]
    -- the list without the hole lies between the two
    have hless : (tally.decrement before).Counts (ranks.eraseIdx hole) := by
      apply hcounts.decrement
      rw [← hget]
      exact (List.getElem_cons_eraseIdx_perm hlt).symm
    apply hless.increment (List.set_perm_cons_eraseIdx hlt after)
    rw [List.length_set]
    exact hlength

/-- A tally that is built from a list counts it. -/
theorem counts_ofRanks (hlength : ranks.length < UInt32.size) :
    (ofRanks ranks).Counts ranks := by
  have hfold (done rest : List Rank) (tally : Tally) (hcounts : tally.Counts done)
      (hlength : (done ++ rest).length < UInt32.size) :
      (rest.foldl Tally.increment tally).Counts (done ++ rest) := by
    induction rest generalizing done tally with
    | nil => simpa using hcounts
    | cons rank rest ih =>
        rw [List.append_cons] at hlength ⊢
        apply ih
        · apply hcounts.increment (List.perm_append_singleton rank done)
          rw [List.length_append] at hlength
          omega
        · exact hlength
  exact hfold [] ranks zero counts_zero hlength

/-- The counts of a list add up to its length. -/
theorem sum_count_all (ranks : List Rank) :
    (Rank.all.map fun rank => ranks.count rank).sum = ranks.length := by
  induction ranks with
  | nil => rfl
  | cons first ranks ih =>
      have honce : (Rank.all.map fun rank => if first == rank then 1 else 0).sum = 1 := by
        cases first <;> decide
      simp only [List.count_cons, List.sum_map_add, ih, honce, List.length_cons]

theorem Counts.sum_entries (hcounts : tally.Counts ranks) :
    (tally.entries.map fun entry => entry.2.toNat).sum = ranks.length := by
  calc
    (tally.entries.map fun entry => entry.2.toNat).sum =
        (Rank.all.map fun rank => ranks.count rank).sum := by
      rw [entries, List.map_map]
      congr 1
      apply List.map_congr_left
      intro rank _
      exact hcounts rank
    _ = ranks.length := sum_count_all ranks

theorem Counts.toNat_total (hcounts : tally.Counts ranks) (hlength : ranks.length < UInt32.size) :
    tally.total.toNat = ranks.length := by
  have hsum : ((tally.entries.map Prod.snd).map UInt32.toNat).sum = ranks.length := by
    rw [List.map_map]
    exact hcounts.sum_entries
  calc
    tally.total.toNat = ((tally.entries.map Prod.snd).foldr (· + ·) 0).toNat := by
      rw [total, List.foldr_map]
    _ = ((tally.entries.map Prod.snd).map UInt32.toNat).sum := by
      apply toNat_foldr_add
      rw [hsum]
      exact hlength
    _ = ranks.length := hsum

end Tally

namespace Field

theorem sum_eq_foldr (fields : List Field) :
    Field.sum fields = (fields.map Field.value).foldr (· + ·) 0 := by
  rw [Field.sum, List.foldr_map]

/-- A sum of values that stays below 2^32 is exact. -/
theorem toNat_sum {fields : List Field}
    (hroom : (fields.map fun field => field.value.toNat).sum < UInt32.size) :
    (Field.sum fields).toNat = (fields.map fun field => field.value.toNat).sum := by
  have hvalues : (fields.map Field.value).map UInt32.toNat =
      fields.map fun field => field.value.toNat := by
    rw [List.map_map]
    rfl
  rw [← hvalues] at hroom ⊢
  rw [sum_eq_foldr]
  exact toNat_foldr_add hroom

/-- The values of a card with few enough holes have an exact sum. -/
theorem toNat_sum_of_le {fields : List Field}
    (hvalues : ∀ field ∈ fields, field.value.toNat ≤ maxValue)
    (hlength : fields.length ≤ holeLimit) :
    (Field.sum fields).toNat = (fields.map fun field => field.value.toNat).sum := by
  apply toNat_sum
  apply sum_lt_size
  · exact List.forall_mem_map.mpr hvalues
  · rwa [List.length_map]

end Field

namespace Course

/-- The sum of the pars, however large it is. -/
def parSum (course : Course) : Nat :=
  (course.pars.map UInt32.toNat).sum

theorem parSum_lt_size {course : Course} (hholes : course.holes ≤ holeLimit) :
    course.parSum < UInt32.size := by
  apply sum_lt_size
  · exact List.forall_mem_map.mpr course.inRange
  · rwa [List.length_map]

end Course

end Scorekeeper
