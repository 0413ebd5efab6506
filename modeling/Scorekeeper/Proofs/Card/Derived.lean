import Mathlib.Data.List.Count
import Scorekeeper.Proofs.Card.CountMap
import Scorekeeper.Proofs.Card.Reachable

/-!
# Derived values are exact

The invariant of cards, read off in plain numbers: whatever happens to a card, its
totals are true sums that never wrapped, every kept rank is the rank against the current
par, and the tally of a row counts its holes.
-/

namespace Scorekeeper

namespace Player

/-- What a row derives from its scores is what these and the pars make it. -/
structure IsDerived (pars : List UInt32) (player : Player) : Prop where
  holes : player.scores.length = pars.length
  inRange : ∀ field ∈ player.scores, field.value.toNat ≤ maxValue
  ranks : player.scores.map Field.rank =
    player.scores.zipWith
      (fun field par => some (Rank.classify field.value.toNat par.toNat)) pars
  total : player.total.value.toNat = (player.scores.map fun field => field.value.toNat).sum
  marks : player.total.qualifiers.marks.Perm
    (player.scores.flatMap fun field => field.qualifiers.marks)
  ordered : player.total.qualifiers.marks.Pairwise (· ≤ ·)
  stats : player.tally.entries.map (fun entry => (entry.1, entry.2.toNat)) =
    Rank.all.map fun rank => (rank, (player.scores.map Field.rank).count (some rank))
  /-- The counts stand where a map holds them into which the ranks are counted one by one. -/
  mapped : ∃ ranks, player.scores.map Field.rank = ranks.map some ∧
    player.tally.entries = CountMap.ofRanks ranks
  allCounted : (player.tally.entries.map fun entry => entry.2.toNat).sum = pars.length

variable {player : Player} {pars : List UInt32}

/-- Every score of an exact row keeps a rank. -/
theorem IsExact.map_rank (hexact : player.IsExact pars) :
    player.scores.map Field.rank = (player.scores.map Field.countedRank).map some := by
  apply Field.map_rank_eq
  intro field hmem
  obtain ⟨hole, hfield⟩ := List.mem_iff_getElem?.mp hmem
  obtain ⟨par, hpar⟩ := hexact.exists_par hfield
  rw [(hexact.score hole field par hfield hpar).rank_eq]
  exact Option.some_ne_none _

theorem IsExact.isDerived (hexact : player.IsExact pars) (hholes : pars.length ≤ holeLimit) :
    player.IsDerived pars where
  holes := hexact.length_eq
  inRange := hexact.inRange
  ranks := by
    apply List.ext_getElem
    · simp [hexact.length_eq]
    · intro hole hscore hpar
      rw [List.length_map] at hscore
      rw [List.length_zipWith, Nat.lt_min] at hpar
      have hfield := hexact.score hole player.scores[hole] pars[hole]
        (List.getElem?_eq_getElem hscore) (List.getElem?_eq_getElem hpar.2)
      simpa using hfield.rank_eq
  total := by
    rw [hexact.total]
    apply Field.toNat_sum_of_le hexact.inRange
    rw [hexact.length_eq]
    exact hholes
  marks := by
    rw [hexact.total]
    simpa [Field.write, Qualifiers.concat, List.flatMap_map] using Sorting.sort_perm _ _
  ordered := player.total.qualifiers.ordered
  stats := by
    rw [Tally.entries, List.map_map]
    apply List.map_congr_left
    intro rank _
    rw [hexact.map_rank, List.count_map_of_injective _ _ (Option.some_injective _)]
    simp [hexact.counts rank]
  mapped := by
    have hlimit : holeLimit < UInt32.size := by decide
    have hroom : (player.scores.map Field.countedRank).length < UInt32.size := by
      rw [List.length_map, hexact.length_eq]
      omega
    refine ⟨_, hexact.map_rank, ?_⟩
    rw [← Tally.entries_ofRanks, hexact.counts.unique (Tally.counts_ofRanks hroom)]
  allCounted := by
    rw [hexact.counts.sum_entries, List.length_map, hexact.length_eq]

end Player

namespace Card

/-- What a card derives from its pars and scores is what these make it. -/
structure IsDerived (card : Card) : Prop where
  players_ne : card.players ≠ []
  holes : card.pars.length = card.course.holes
  inRange : ∀ par ∈ card.pars, par.value.toNat ≤ maxValue
  parTotal : card.parTotal.value.toNat = (card.pars.map fun par => par.value.toNat).sum
  player : ∀ player ∈ card.players, player.IsDerived card.parValues

variable {card : Card}

theorem IsExact.isDerived (hexact : card.IsExact) (hholes : card.course.holes ≤ holeLimit) :
    card.IsDerived := by
  have hlength : card.pars.length = card.course.holes := by
    simpa [parValues] using hexact.length_eq
  have hinRange : ∀ par ∈ card.pars, par.value.toNat ≤ maxValue := by
    intro par hmem
    exact hexact.inRange par.value (List.mem_map.mpr ⟨par, hmem, rfl⟩)
  refine ⟨hexact.players_ne, hlength, hinRange, ?_, ?_⟩
  · rw [hexact.parTotal]
    exact Field.toNat_sum_of_le hinRange (hlength.trans_le hholes)
  · intro player hmem
    exact (hexact.player player hmem).isDerived (hexact.length_eq.trans_le hholes)

/-- After any edits, refused ones included, a card with few enough holes has its id and
its course, and everything derived on it is exact. -/
theorem derived_exact_run (hopens : card.Opens) (hholes : card.course.holes ≤ holeLimit)
    (edits : List Edit) :
    (card.run edits).id = card.id ∧ (card.run edits).course = card.course ∧
      (card.run edits).IsDerived := by
  obtain ⟨hid, hcourse⟩ := run_keeps card edits
  refine ⟨hid, hcourse, ?_⟩
  apply ((hopens.isExact hholes).run hholes edits).isDerived
  rw [hcourse]
  exact hholes

/-! ## A round on two holes -/

def twoHoles : Course where
  id := "links"
  labels := ["1", "2"]
  pars := [3, 4]
  enabled := true
  labels_ne_nil := by decide
  length_eq := rfl
  inRange := by simp [maxValue]

def openedRound : Card :=
  { blank (.issue none { millis := 5, picks := .replicate 6 (Fin.last _) }) twoHoles [3, 4] "" with
    players := [.new 1 none 2] }

/-- A second player scores, a par is overridden, and two edits are refused. -/
def playedRound : List Edit :=
  [.addPlayer (some " Bo "), .setScore 2 0 3 "ba", .setScore 2 1 1 "a", .setPar 0 4,
    .setScore 7 0 4 "", .setPar 1 1000, .updateTotals (.only 2)]

theorem derived_exact_playedRound :
    openedRound.Opens ∧ openedRound.course.holes ≤ holeLimit ∧
      (openedRound.run playedRound).IsDerived ∧
        (openedRound.run playedRound).players.map (fun player => player.scores.map Field.rank) =
          [[some .unranked, some .unranked], [some .oneUnder, some .holeInOne]] := by
  have hopens : openedRound.Opens :=
    .started twoHoles none { millis := 5, picks := .replicate 6 (Fin.last _) } rfl
  have hholes : openedRound.course.holes ≤ holeLimit := by decide
  exact ⟨hopens, hholes, (derived_exact_run hopens hholes playedRound).2.2, by decide⟩

end Card

end Scorekeeper
