import Scorekeeper.Proofs.Card.Derived
import Scorekeeper.Proofs.Card.Refusals
import Scorekeeper.Proofs.Card.Storage

/-!
# The last writes decide

A card has targets that are written on their own: the score of a player on a hole, the par
of a hole, the name of a player, and the notes.  Everything else on it is derived, along
routes that differ from edit to edit.  Here a card is read through its cells, where the
targets are.  An edit writes on one cell at most and leaves all others alone, so after a
run of edits every cell holds what was last written there.  An exact card is determined by
its cells, and hence by the last writes, in whatever order they came.
-/

namespace Scorekeeper.Card

open Text

/-- What can be written on its own. -/
inductive Target where
  | score (number : UInt32) (hole : Nat)
  | par (hole : Nat)
  | name (number : UInt32)
  | notes
  deriving DecidableEq, Repr

/-- What stands on a target: marks are kept in order and names are trimmed. -/
inductive Entry where
  | score (value : Int) (marks : Qualifiers)
  | par (value : Int)
  | name (name : String)
  | notes (notes : String)
  deriving DecidableEq

def Edit.write? : Edit → Option (Target × Entry)
  | .setScore number hole value qualifiers =>
    some (.score number hole, .score value (.ofString qualifiers))
  | .setPar hole value => some (.par hole, .par value)
  | .rename number name => some (.name number, .name (trim name))
  | .setNotes notes => some (.notes, .notes notes)
  | _ => none

/-- What an edit writes on the card; a refused edit writes nothing. -/
def written (card : Card) (change : Edit) : Option (Target × Entry) :=
  match card.outcome change with
  | .ok () => change.write?
  | .error _ => none

/-- What an edit writes on one target. -/
def writtenOn (card : Card) (change : Edit) (target : Target) : Option Entry :=
  (card.written change).bind fun write => if write.1 = target then some write.2 else none

/-- The last thing that edits, made one after the other, write on a target. -/
def lastWrite (target : Target) : Card → List Edit → Option Entry
  | _, [] => none
  | card, change :: edits =>
    (lastWrite target (card.edit change) edits).or (card.writtenOn change target)

/-- The cells of a card.  Rows are named by their places here and not by their numbers, which
two rows may share. -/
inductive Cell where
  | score (row hole : Nat)
  | par (hole : Nat)
  | name (row : Nat)
  | notes
  deriving DecidableEq

/-- The cell of a target, if the card has such a row. -/
def cellOf (card : Card) : Target → Option Cell
  | .score number hole => (card.placeOf number).map fun row => .score row hole
  | .par hole => some (.par hole)
  | .name number => (card.placeOf number).map .name
  | .notes => some .notes

/-- The target of a cell, if it is one of the first row with its number. -/
def targetOf (card : Card) : Cell → Option Target
  | .score row hole => card.players[row]?.map fun player => .score player.number hole
  | .par hole => some (.par hole)
  | .name row => card.players[row]?.map fun player => .name player.number
  | .notes => some .notes

/-- The name and the entered scores of every row, without what is derived from them. -/
def slips (card : Card) : List (String × List (UInt32 × Qualifiers)) :=
  card.players.map fun player => (player.name, player.entered)

def inCell (card : Card) : Cell → Option Entry
  | .score row hole =>
    card.slips[row]?.bind fun slip =>
      slip.2[hole]?.map fun entered => .score entered.1.toNat entered.2
  | .par hole => card.parValues[hole]?.map fun par => .par par.toNat
  | .name row => card.slips[row]?.map fun slip => .name slip.1
  | .notes => some (.notes card.notes)

/-- What stands on a target. -/
def content (card : Card) (target : Target) : Option Entry :=
  (card.cellOf target).bind card.inCell

variable {card other : Card} {change : Edit} {edits : List Edit} {target : Target}
  {cell : Cell} {entry : Entry}

/-! ## A card is determined by its cells -/

theorem getElem?_entered_eq {one two : List (UInt32 × Qualifiers)}
    (hsame : ∀ hole : Nat, (one[hole]?.map fun entered => Entry.score entered.1.toNat entered.2) =
      two[hole]?.map fun entered => Entry.score entered.1.toNat entered.2) : one = two := by
  apply List.ext_getElem?
  intro hole
  apply Option.map_injective _ (hsame hole)
  intro entered entered' heq
  obtain ⟨hvalue, hmarks⟩ := Entry.score.inj heq
  exact Prod.ext (UInt32.toNat_inj.mp (Int.ofNat_inj.mp hvalue)) hmarks

theorem parValues_eq_of_inCell_eq (hcells : ∀ cell, card.inCell cell = other.inCell cell) :
    card.parValues = other.parValues := by
  apply List.ext_getElem?
  intro hole
  apply Option.map_injective _ (hcells (.par hole))
  intro par par' heq
  exact UInt32.toNat_inj.mp (Int.ofNat_inj.mp (Entry.par.inj heq))

/-- Exact cards with the same id, course and row numbers are equal when their cells are. -/
theorem IsExact.eq_of_inCell_eq (hexact : card.IsExact) (hother : other.IsExact)
    (hid : card.id = other.id) (hcourse : card.course = other.course)
    (hnumbers : card.numbers = other.numbers)
    (hcells : ∀ cell, card.inCell cell = other.inCell cell) : card = other := by
  have hvalues := parValues_eq_of_inCell_eq hcells
  have hpars : card.pars = other.pars := by
    rw [hexact.pars_eq, hother.pars_eq, hvalues]
  have hparTotal : card.parTotal = other.parTotal := by
    rw [hexact.parTotal, hother.parTotal, hpars]
  have hnotes : card.notes = other.notes := Entry.notes.inj (Option.some.inj (hcells .notes))
  have hlength : card.players.length = other.players.length := by
    simpa [numbers] using congrArg List.length hnumbers
  have hplayers : card.players = other.players := by
    apply List.ext_getElem hlength
    intro row hrow hrow'
    have hnumber : card.players[row].number = other.players[row].number := by
      have hboth := congrArg (·[row]?) hnumbers
      simpa [numbers, hrow, hrow'] using hboth
    have hname : card.players[row].name = other.players[row].name := by
      have hboth := hcells (.name row)
      simpa [inCell, slips, hrow, hrow'] using hboth
    have hentered : card.players[row].entered = other.players[row].entered := by
      apply getElem?_entered_eq
      intro hole
      have hboth := hcells (.score row hole)
      simpa only [inCell, slips, List.getElem?_map, List.getElem?_eq_getElem hrow,
        List.getElem?_eq_getElem hrow', Option.map_some, Option.bind_some] using hboth
    apply (hexact.player _ (List.getElem_mem hrow)).unique _ hnumber hname hentered
    rw [hvalues]
    exact hother.player _ (List.getElem_mem hrow')
  cases card
  cases other
  simp only at hid hcourse hpars hparTotal hplayers hnotes
  rw [hid, hcourse, hpars, hparTotal, hplayers, hnotes]

/-! ## What an edit does to the cells -/

theorem cellOf_eq_of_numbers_eq (hnumbers : other.numbers = card.numbers) (target : Target) :
    other.cellOf target = card.cellOf target := by
  cases target <;> simp only [cellOf, placeOf_eq_findIdx?, hnumbers]

theorem targetOf_of_cellOf (hcell : card.cellOf target = some cell) :
    card.targetOf cell = some target := by
  cases target with
  | score number hole =>
      obtain ⟨row, hrow, rfl⟩ := Option.map_eq_some_iff.mp hcell
      obtain ⟨player, hfound, rfl, -⟩ := placeOf_eq_some_iff.mp hrow
      simp [targetOf, hfound]
  | name number =>
      obtain ⟨row, hrow, rfl⟩ := Option.map_eq_some_iff.mp hcell
      obtain ⟨player, hfound, rfl, -⟩ := placeOf_eq_some_iff.mp hrow
      simp [targetOf, hfound]
  | par hole =>
      cases hcell
      rfl
  | notes =>
      cases hcell
      rfl

/-- No two targets lead to the same cell. -/
theorem cellOf_injective {one two : Target} (hone : card.cellOf one = some cell)
    (htwo : card.cellOf two = some cell) : one = two := by
  have htarget := targetOf_of_cellOf hone
  rw [targetOf_of_cellOf htwo] at htarget
  exact (Option.some.inj htarget).symm

section Cells

variable {after : Card} {place hole : Nat} {name : String} {entered : List (UInt32 × Qualifiers)}

theorem getElem?_slips {player : Player} (hfound : card.players[place]? = some player) :
    card.slips[place]? = some (player.name, player.entered) := by
  rw [slips, List.getElem?_map, hfound]
  rfl

theorem inCell_eq_of_slips_eq (hslips : after.slips = card.slips)
    (hpars : after.parValues = card.parValues) (hnotes : after.notes = card.notes)
    (cell : Cell) : after.inCell cell = card.inCell cell := by
  cases cell <;> simp only [inCell, hslips, hpars, hnotes]

/-- A score that is entered goes into its cell and leaves the others alone. -/
theorem inCell_set_score {word : UInt32} {marks : Qualifiers}
    (hslip : card.slips[place]? = some (name, entered)) (hhole : hole < entered.length)
    (hslips : after.slips = card.slips.set place (name, entered.set hole (word, marks)))
    (hpars : after.parValues = card.parValues) (hnotes : after.notes = card.notes) :
    after.inCell (.score place hole) = some (.score word.toNat marks) ∧
      ∀ other, other ≠ .score place hole → after.inCell other = card.inCell other := by
  obtain ⟨hlt, -⟩ := List.getElem?_eq_some_iff.mp hslip
  constructor
  · simp [inCell, hslips, hlt, hhole]
  · intro other hne
    cases other with
    | score row other =>
        simp only [inCell, hslips, List.getElem?_set]
        split
        · next hrow =>
          subst hrow
          have hother : hole ≠ other := fun hsame => hne (congrArg _ hsame.symm)
          simp only [hslip, Option.bind_some, List.getElem?_set_ne hother]
        · rfl
    | name row =>
        simp only [inCell, hslips, List.getElem?_set]
        split
        · next hrow =>
          subst hrow
          simp only [hslip, Option.map_some]
        · rfl
    | par other => simp only [inCell, hpars]
    | notes => simp only [inCell, hnotes]

/-- A name that is given goes into its cell and leaves the others alone. -/
theorem inCell_set_name {chosen : String} (hslip : card.slips[place]? = some (name, entered))
    (hslips : after.slips = card.slips.set place (chosen, entered))
    (hpars : after.parValues = card.parValues) (hnotes : after.notes = card.notes) :
    after.inCell (.name place) = some (.name chosen) ∧
      ∀ other, other ≠ .name place → after.inCell other = card.inCell other := by
  obtain ⟨hlt, -⟩ := List.getElem?_eq_some_iff.mp hslip
  constructor
  · simp [inCell, hslips, hlt]
  · intro other hne
    cases other with
    | score row other =>
        simp only [inCell, hslips, List.getElem?_set]
        split
        · next hrow =>
          subst hrow
          simp only [hslip, Option.bind_some]
        · rfl
    | name row =>
        have hrow : place ≠ row := fun hsame => hne (congrArg _ hsame.symm)
        simp only [inCell, hslips, List.getElem?_set, hrow, if_false]
    | par other => simp only [inCell, hpars]
    | notes => simp only [inCell, hnotes]

/-- A par that is overridden goes into its cell and leaves the others alone. -/
theorem inCell_set_par {word : UInt32} (hhole : hole < card.parValues.length)
    (hslips : after.slips = card.slips)
    (hpars : after.parValues = card.parValues.set hole word) (hnotes : after.notes = card.notes) :
    after.inCell (.par hole) = some (.par word.toNat) ∧
      ∀ other, other ≠ .par hole → after.inCell other = card.inCell other := by
  constructor
  · simp [inCell, hpars, hhole]
  · intro other hne
    cases other with
    | par other =>
        have hother : hole ≠ other := fun hsame => hne (congrArg _ hsame.symm)
        simp only [inCell, hpars, List.getElem?_set, hother, if_false]
    | score row other => simp only [inCell, hslips]
    | name row => simp only [inCell, hslips]
    | notes => simp only [inCell, hnotes]

theorem slips_withPars (haligned : card.IsAligned) {pars : List Field}
    (hlength : pars.length = card.pars.length) : (card.withPars pars).slips = card.slips := by
  rw [slips, withPars, List.map_map]
  apply List.map_congr_left
  intro player hmem
  have hfits : player.scores.length ≤ (pars.map Field.value).length := by
    rw [List.length_map, hlength, haligned player hmem]
  have hentered : (player.ranked (pars.map Field.value)).entered = player.entered :=
    Field.map_zipWith_rerank (fun _ _ => rfl) hfits
  rw [Function.comp_apply, hentered]
  rfl

/-- An edit that is carried out writes on one cell and leaves the others alone, or it
leaves all cells alone. -/
theorem Effect.inCell_cases (heffect : card.Effect change after) (haligned : card.IsAligned)
    (hkeeps : change.keepsRows = true) :
    (change.write? = none ∧ ∀ cell, after.inCell cell = card.inCell cell) ∨
      ∃ target entry cell, change.write? = some (target, entry) ∧
        card.cellOf target = some cell ∧ after.inCell cell = some entry ∧
          ∀ other, other ≠ cell → after.inCell other = card.inCell other := by
  cases heffect with
  | @score number hole value qualifiers par place player changed rank par_eq place_eq found set =>
      obtain ⟨field, word, hfield, rfl, -, -, hname, hscores⟩ := Player.setScore_cases set
      have hhole : hole < player.entered.length := by
        simpa [Player.entered] using (List.getElem?_eq_some_iff.mp hfield).1
      have hentered : changed.entered = player.entered.set hole (word, .ofString qualifiers) := by
        simp [Player.entered, hscores, List.map_set, Field.write, Field.rerank]
      have hslips : { card with players := card.players.set place changed }.slips =
          card.slips.set place
            (player.name, player.entered.set hole (word, .ofString qualifiers)) := by
        rw [slips, List.map_set, hname, hentered]
        rfl
      right
      exact ⟨_, _, .score place hole, rfl, by simp [cellOf, place_eq],
        inCell_set_score (getElem?_slips found) hhole hslips rfl rfl⟩
  | @par hole value word par value_eq inRange par_eq =>
      -- every row is ranked again, but ranks stand in no cell
      subst value_eq
      have hhole : hole < card.parValues.length := by
        simpa [parValues] using (List.getElem?_eq_some_iff.mp par_eq).1
      right
      exact ⟨_, _, .par hole, rfl, rfl,
        inCell_set_par hhole (slips_withPars haligned List.length_set) List.map_set rfl⟩
  | @name number name place player changed place_eq found renamed =>
      obtain ⟨-, rfl⟩ := rename_cases renamed
      right
      exact ⟨_, _, .name place, rfl, by simp [cellOf, place_eq],
        inCell_set_name (getElem?_slips found) List.map_set rfl rfl⟩
  | total place_eq found =>
      exact .inl ⟨rfl, inCell_eq_of_slips_eq (map_set_of_eq found rfl) rfl rfl⟩
  | totals =>
      left
      refine ⟨rfl, inCell_eq_of_slips_eq ?_ rfl rfl⟩
      rw [slips, updateTotals, List.map_map]
      rfl
  | notes notes =>
      right
      refine ⟨_, _, .notes, rfl, rfl, rfl, ?_⟩
      intro other hne
      cases other with
      | notes => exact absurd rfl hne
      | _ => rfl
  | parTotal => exact .inl ⟨rfl, fun _ => rfl⟩
  | added name => cases hkeeps
  | removed => cases hkeeps

end Cells

theorem IsAligned.inCell_edit_cases (haligned : card.IsAligned)
    (hkeeps : change.keepsRows = true) :
    (card.written change = none ∧ ∀ cell, (card.edit change).inCell cell = card.inCell cell) ∨
      ∃ target entry cell, card.written change = some (target, entry) ∧
        card.cellOf target = some cell ∧ (card.edit change).inCell cell = some entry ∧
          ∀ other, other ≠ cell → (card.edit change).inCell other = card.inCell other := by
  rw [written]
  obtain ⟨error, hrefused, hsame⟩ | ⟨hdone, heffect⟩ := haligned.edit_cases change
  · rw [hrefused, hsame]
    exact .inl ⟨rfl, fun _ => rfl⟩
  · rw [hdone]
    exact heffect.inCell_cases haligned hkeeps

/-- Nothing is written on a target that has no cell. -/
theorem IsAligned.writtenOn_of_cellOf_none (haligned : card.IsAligned)
    (hkeeps : change.keepsRows = true) (hnone : card.cellOf target = none) :
    card.writtenOn change target = none := by
  rw [writtenOn]
  obtain ⟨hwritten, -⟩ | ⟨other, entry, cell, hwritten, hcell, -⟩ :=
    haligned.inCell_edit_cases hkeeps
  · rw [hwritten]
    rfl
  · have hne : other ≠ target := by
      rintro rfl
      rw [hcell] at hnone
      cases hnone
    rw [hwritten, Option.bind_some, if_neg hne]

/-- The cell of a target holds what an edit writes on the target, or else what it held. -/
theorem IsAligned.inCell_edit (haligned : card.IsAligned) (hkeeps : change.keepsRows = true)
    (hcell : card.cellOf target = some cell) :
    (card.edit change).inCell cell = (card.writtenOn change target).or (card.inCell cell) := by
  rw [writtenOn]
  obtain ⟨hwritten, hsame⟩ | ⟨other, entry, place, hwritten, hplace, hentry, hsame⟩ :=
    haligned.inCell_edit_cases hkeeps
  · rw [hwritten, hsame]
    rfl
  · rw [hwritten, Option.bind_some]
    dsimp only
    split
    · next heq =>
      subst heq
      rw [hplace] at hcell
      cases hcell
      rw [hentry]
      rfl
    · next hne =>
      apply hsame
      rintro rfl
      exact hne (cellOf_injective hplace hcell)

/-- A cell that no target leads to is never written. -/
theorem IsAligned.inCell_edit_of_hidden (haligned : card.IsAligned)
    (hkeeps : change.keepsRows = true) (hhidden : ∀ target, card.cellOf target ≠ some cell) :
    (card.edit change).inCell cell = card.inCell cell := by
  obtain ⟨-, hsame⟩ | ⟨target, entry, place, -, hplace, -, hsame⟩ :=
    haligned.inCell_edit_cases hkeeps
  · exact hsame cell
  · apply hsame
    rintro rfl
    exact hhidden target hplace

/-! ## Runs of edits -/

theorem IsAligned.numbers_run (haligned : card.IsAligned)
    (hkeeps : ∀ change ∈ edits, change.keepsRows = true) :
    (card.run edits).numbers = card.numbers := by
  induction edits generalizing card with
  | nil => rfl
  | cons change edits ih =>
      obtain ⟨hchange, hrest⟩ := List.forall_mem_cons.mp hkeeps
      exact (ih (haligned.edit change) hrest).trans (haligned.numbers_edit hchange)

theorem IsAligned.cellOf_edit (haligned : card.IsAligned) (hkeeps : change.keepsRows = true)
    (target : Target) : (card.edit change).cellOf target = card.cellOf target :=
  cellOf_eq_of_numbers_eq (haligned.numbers_edit hkeeps) target

/-- After a run of edits the cell of a target holds what was last written on the target,
or else what it held before. -/
theorem IsAligned.inCell_run (haligned : card.IsAligned)
    (hkeeps : ∀ change ∈ edits, change.keepsRows = true)
    (hcell : card.cellOf target = some cell) :
    (card.run edits).inCell cell = (card.lastWrite target edits).or (card.inCell cell) := by
  induction edits generalizing card with
  | nil => rfl
  | cons change edits ih =>
      obtain ⟨hchange, hrest⟩ := List.forall_mem_cons.mp hkeeps
      have hafter : (card.edit change).cellOf target = some cell := by
        rw [haligned.cellOf_edit hchange, hcell]
      calc
        (card.run (change :: edits)).inCell cell =
            ((card.edit change).lastWrite target edits).or ((card.edit change).inCell cell) :=
          ih (haligned.edit change) hrest hafter
        _ = (card.lastWrite target (change :: edits)).or (card.inCell cell) := by
          rw [haligned.inCell_edit hchange hcell, lastWrite, Option.or_assoc]

theorem IsAligned.inCell_run_of_hidden (haligned : card.IsAligned)
    (hkeeps : ∀ change ∈ edits, change.keepsRows = true)
    (hhidden : ∀ target, card.cellOf target ≠ some cell) :
    (card.run edits).inCell cell = card.inCell cell := by
  induction edits generalizing card with
  | nil => rfl
  | cons change edits ih =>
      obtain ⟨hchange, hrest⟩ := List.forall_mem_cons.mp hkeeps
      have hafter (target : Target) : (card.edit change).cellOf target ≠ some cell := by
        rw [haligned.cellOf_edit hchange]
        exact hhidden target
      exact (ih (haligned.edit change) hrest hafter).trans
        (haligned.inCell_edit_of_hidden hchange hhidden)

theorem IsAligned.lastWrite_of_cellOf_none (haligned : card.IsAligned)
    (hkeeps : ∀ change ∈ edits, change.keepsRows = true) (hnone : card.cellOf target = none) :
    card.lastWrite target edits = none := by
  induction edits generalizing card with
  | nil => rfl
  | cons change edits ih =>
      obtain ⟨hchange, hrest⟩ := List.forall_mem_cons.mp hkeeps
      have hafter : (card.edit change).cellOf target = none := by
        rw [haligned.cellOf_edit hchange, hnone]
      rw [lastWrite, ih (haligned.edit change) hrest hafter,
        haligned.writtenOn_of_cellOf_none hchange hnone]
      rfl

/-- What stands on a target after a run of edits is what was last written there, or else
what stood there before. -/
theorem IsAligned.content_run (haligned : card.IsAligned)
    (hkeeps : ∀ change ∈ edits, change.keepsRows = true) (target : Target) :
    (card.run edits).content target =
      (card.lastWrite target edits).or (card.content target) := by
  rw [content, content, cellOf_eq_of_numbers_eq (haligned.numbers_run hkeeps)]
  cases hcell : card.cellOf target with
  | none =>
      rw [haligned.lastWrite_of_cellOf_none hkeeps hcell]
      rfl
  | some cell => exact haligned.inCell_run hkeeps hcell

/-- Runs of edits with the same last writes end in the same card. -/
theorem IsExact.run_eq (hexact : card.IsExact) (hholes : card.course.holes ≤ holeLimit)
    {first second : List Edit} (hfirst : ∀ change ∈ first, change.keepsRows = true)
    (hsecond : ∀ change ∈ second, change.keepsRows = true)
    (hlast : ∀ target, card.lastWrite target first = card.lastWrite target second) :
    card.run first = card.run second := by
  have haligned := hexact.isAligned
  obtain ⟨hid, hcourse⟩ := run_keeps card first
  obtain ⟨hid', hcourse'⟩ := run_keeps card second
  apply (hexact.run hholes first).eq_of_inCell_eq (hexact.run hholes second)
    (hid.trans hid'.symm) (hcourse.trans hcourse'.symm)
  · rw [haligned.numbers_run hfirst, haligned.numbers_run hsecond]
  · intro cell
    by_cases hreached : ∃ target, card.cellOf target = some cell
    · obtain ⟨target, hcell⟩ := hreached
      rw [haligned.inCell_run hfirst hcell, haligned.inCell_run hsecond hcell, hlast]
    · have hhidden : ∀ target, card.cellOf target ≠ some cell := not_exists.mp hreached
      rw [haligned.inCell_run_of_hidden hfirst hhidden,
        haligned.inCell_run_of_hidden hsecond hhidden]

/-! ## Edits of different targets -/

/-- What an edit writes does not depend on the edits before it. -/
theorem IsAligned.written_edit (haligned : card.IsAligned) {earlier : Edit}
    (hkeeps : earlier.keepsRows = true) (change : Edit) :
    (card.edit earlier).written change = card.written change := by
  have hdone : (card.edit earlier).outcome change = .ok () ↔ card.outcome change = .ok () := by
    rw [(haligned.edit earlier).outcome_eq_ok_iff, haligned.outcome_eq_ok_iff,
      haligned.length_pars_edit, haligned.numbers_edit hkeeps]
  rw [written, written]
  cases hbefore : card.outcome change with
  | ok _ => rw [hdone.mpr hbefore]
  | error _ =>
      cases hafter : (card.edit earlier).outcome change with
      | ok _ =>
          rw [hdone.mp hafter] at hbefore
          cases hbefore
      | error _ => rfl

/-- The target of an edit. -/
def Edit.target? (change : Edit) : Option Target :=
  change.write?.map Prod.fst

theorem target?_of_writtenOn (hwritten : card.writtenOn change target = some entry) :
    change.target? = some target := by
  rw [writtenOn, Option.bind_eq_some_iff] at hwritten
  obtain ⟨⟨other, written⟩, hwrite, hsame⟩ := hwritten
  obtain ⟨rfl, -⟩ := Option.ite_none_right_eq_some.mp hsame
  rw [Card.written] at hwrite
  split at hwrite
  · rw [Edit.target?, hwrite]
    rfl
  · cases hwrite

theorem lastWrite_of_untouched (huntouched : target ∉ edits.filterMap Edit.target?) :
    card.lastWrite target edits = none := by
  induction edits generalizing card with
  | nil => rfl
  | cons change edits ih =>
      have hrest : target ∉ edits.filterMap Edit.target? := by
        intro hmem
        obtain ⟨other, hother, htarget⟩ := List.mem_filterMap.mp hmem
        exact huntouched (List.mem_filterMap.mpr ⟨other, List.mem_cons_of_mem _ hother, htarget⟩)
      have hwritten : card.writtenOn change target = none := by
        rw [Option.eq_none_iff_forall_ne_some]
        intro entry hentry
        exact huntouched
          (List.mem_filterMap.mpr ⟨change, List.mem_cons_self, target?_of_writtenOn hentry⟩)
      rw [lastWrite, ih hrest, hwritten]
      rfl

theorem IsAligned.lastWrite_pair (haligned : card.IsAligned) {one two : Edit}
    (hone : one.keepsRows = true) (target : Target) :
    card.lastWrite target [one, two] =
      (card.writtenOn two target).or (card.writtenOn one target) := by
  rw [lastWrite, lastWrite, lastWrite, Option.none_or, writtenOn, haligned.written_edit hone]
  rfl

theorem IsAligned.lastWrite_swap (haligned : card.IsAligned) {one two : Edit}
    (hone : one.keepsRows = true) (htwo : two.keepsRows = true)
    (hdistinct : ∀ target, one.target? = some target → two.target? ≠ some target)
    (target : Target) :
    card.lastWrite target [one, two] = card.lastWrite target [two, one] := by
  rw [haligned.lastWrite_pair hone, haligned.lastWrite_pair htwo]
  cases hfirst : card.writtenOn one target with
  | none => rw [Option.or_none, Option.none_or]
  | some entry =>
      cases hsecond : card.writtenOn two target with
      | none => rfl
      | some other =>
          exact absurd (target?_of_writtenOn hsecond)
            (hdistinct target (target?_of_writtenOn hfirst))

/-- The order of edits matters only through the last writes.  On a card in use, runs of edits
that keep the rows end alike when they last write alike, edits of different targets commute,
and a target keeps its content unless it is written. -/
theorem lastWrites_decide (hopens : card.Opens) (hholes : card.course.holes ≤ holeLimit)
    (before : List Edit) :
    (∀ first second : List Edit, (∀ change ∈ first, change.keepsRows = true) →
      (∀ change ∈ second, change.keepsRows = true) →
      (∀ target, (card.run before).lastWrite target first =
        (card.run before).lastWrite target second) →
      (card.run before).run first = (card.run before).run second) ∧
    (∀ one two : Edit, one.keepsRows = true → two.keepsRows = true →
      (∀ target, one.target? = some target → two.target? ≠ some target) →
      (card.run before).run [one, two] = (card.run before).run [two, one]) ∧
    ∀ edits : List Edit, (∀ change ∈ edits, change.keepsRows = true) → ∀ target,
      ((card.run before).run edits).content target =
        ((card.run before).lastWrite target edits).or ((card.run before).content target) := by
  have hexact := (hopens.isExact hholes).run hholes before
  have hroom : (card.run before).course.holes ≤ holeLimit := by
    rw [(run_keeps card before).2]
    exact hholes
  refine ⟨fun first second => hexact.run_eq hroom, ?_, fun edits => hexact.isAligned.content_run⟩
  intro one two hone htwo hdistinct
  apply hexact.run_eq hroom
  · simp [hone, htwo]
  · simp [hone, htwo]
  · exact hexact.isAligned.lastWrite_swap hone htwo hdistinct

/-! ## Two ways to the same card -/

def scoresFirst : List Edit :=
  [.setScore 1 0 5 "b", .setScore 1 0 3 "ba", .setScore 7 0 4 "", .setPar 0 4, .rename 1 " Ann "]

def parsFirst : List Edit :=
  [.rename 1 "Ann", .updateTotals .all, .setPar 0 2, .setPar 0 4, .setPar 1 1000,
    .setScore 1 0 3 "ab", .updateParTotal]

theorem lastWrites_decide_twoOrders :
    openedRound.Opens ∧ openedRound.course.holes ≤ holeLimit ∧
      (openedRound.run [.addPlayer none]).run scoresFirst =
        (openedRound.run [.addPlayer none]).run parsFirst ∧
      (openedRound.run [.addPlayer none]).run scoresFirst ≠ openedRound.run [.addPlayer none] := by
  have hopens : openedRound.Opens :=
    .started twoHoles none { millis := 5, picks := .replicate 6 (Fin.last _) } rfl
  have hholes : openedRound.course.holes ≤ holeLimit := by decide
  refine ⟨hopens, hholes, ?_, by decide⟩
  apply (lastWrites_decide hopens hholes [.addPlayer none]).1
  · decide
  · decide
  · intro target
    by_cases hmem : target ∈ (scoresFirst ++ parsFirst).filterMap Edit.target?
    · revert target
      decide
    · rw [List.filterMap_append, List.mem_append, not_or] at hmem
      rw [lastWrite_of_untouched hmem.1, lastWrite_of_untouched hmem.2]

end Scorekeeper.Card
