import Scorekeeper.Proofs.Queue.Calls

/-!
# A removal that crosses a put

An entry is removed only if it still holds a payload that is known, but the comparison
and the deletion are two calls of the file system.  A put of the same key may come in
between, from another save or another process.  Here the steps of both calls are taken in
any order, with any luck.  When the put has answered with the key, its payload is in the
entry in the end, unless the put wrote the entry after the comparison and the deletion
went through: then the deletion took the newer payload away.
-/

namespace Scorekeeper.Queue

open Files

/-- A removal and a put of one key: what the one expects in the entry, and what the other
writes. -/
structure Crossing where
  base : String
  suffix : String
  expected : String
  payload : String
  stamp : Stamp

namespace Crossing

def key (crossing : Crossing) : String :=
  keyFor crossing.base crossing.suffix

def removal (crossing : Crossing) : Removal :=
  ⟨crossing.key, crossing.expected⟩

def put (crossing : Crossing) : Put :=
  ⟨crossing.key, crossing.payload, crossing.stamp⟩

/-- How far the two calls have come, and the folder that they share. -/
structure Moment where
  removing : Removal.Stage
  putting : Put.Stage
  folder : Folder

/-- Whose step is next, and its luck. -/
inductive Turn where
  | remove (luck : Luck)
  | put (luck : Luck)
  deriving DecidableEq

def start (crossing : Crossing) (folder : Folder) : Moment :=
  ⟨.comparing, crossing.put.init, folder⟩

def step (crossing : Crossing) (moment : Moment) : Turn → Moment
  | .remove luck =>
    let (removing, folder) := crossing.removal.step luck moment.removing moment.folder
    { moment with removing, folder }
  | .put luck =>
    let (putting, folder) := crossing.put.step luck moment.putting moment.folder
    { moment with putting, folder }

def run (crossing : Crossing) (moment : Moment) (turns : List Turn) : Moment :=
  turns.foldl crossing.step moment

/-- The put has written its entry and answered with the key. -/
def HasPut (crossing : Crossing) (moment : Moment) : Prop :=
  moment.putting = .done (.ok crossing.key)

/-- One of the turns is the step of the put that writes the entry, while the removal has
compared it and is about to delete it. -/
def IsOvertaken (crossing : Crossing) (moment : Moment) (turns : List Turn) : Prop :=
  ∃ before luck after, turns = before ++ .put luck :: after ∧
    (crossing.run moment before).removing = .deleting ∧
      ¬crossing.HasPut (crossing.run moment before) ∧
        crossing.HasPut (crossing.run moment (before ++ [.put luck]))

/-- The promise: the payload of a put that has succeeded is in the entry when both calls
are over. -/
def KeepsNewer (crossing : Crossing) : Prop :=
  ∀ (folder : Folder) (turns : List Turn) (answer : Except QueueError Bool),
    crossing.HasPut (crossing.run (crossing.start folder) turns) →
      (crossing.run (crossing.start folder) turns).removing = .done answer →
        Holds (crossing.run (crossing.start folder) turns).folder crossing.key
          crossing.payload

variable {crossing : Crossing} {moment : Moment} {turns : List Turn}
  {answer : Except QueueError Bool}

theorem run_cons (turn : Turn) :
    crossing.run moment (turn :: turns) = crossing.run (crossing.step moment turn) turns :=
  rfl

/-- A put that has answered does nothing more. -/
theorem HasPut.step_put (hput : crossing.HasPut moment) (luck : Luck) :
    crossing.step moment (.put luck) = moment := by
  obtain ⟨removing, putting, folder⟩ := moment
  cases hput
  rfl

theorem HasPut.step (hput : crossing.HasPut moment) (turn : Turn) :
    crossing.HasPut (crossing.step moment turn) := by
  cases turn with
  | remove luck => exact hput
  | put luck =>
      rw [hput.step_put]
      exact hput

theorem HasPut.run (hput : crossing.HasPut moment) (turns : List Turn) :
    crossing.HasPut (crossing.run moment turns) := by
  induction turns generalizing moment with
  | nil => exact hput
  | cons turn turns ih => exact ih (hput.step turn)

theorem HasPut.not_isOvertaken (hput : crossing.HasPut moment) (turns : List Turn) :
    ¬crossing.IsOvertaken moment turns := by
  rintro ⟨before, luck, after, -, -, hnot, -⟩
  exact hnot (hput.run before)

theorem isOvertaken_cons_iff {turn : Turn} :
    crossing.IsOvertaken moment (turn :: turns) ↔
      (moment.removing = .deleting ∧ ¬crossing.HasPut moment ∧
          ∃ luck, turn = .put luck ∧ crossing.HasPut (crossing.step moment turn)) ∨
        crossing.IsOvertaken (crossing.step moment turn) turns := by
  constructor
  · rintro ⟨before, luck, after, hsplit, hremoving, hnot, hput⟩
    cases before with
    | nil =>
        cases hsplit
        exact .inl ⟨hremoving, hnot, luck, rfl, hput⟩
    | cons first before =>
        cases hsplit
        exact .inr ⟨before, luck, after, rfl, hremoving, hnot, hput⟩
  · rintro (⟨hremoving, hnot, luck, rfl, hput⟩ |
      ⟨before, luck, after, rfl, hremoving, hnot, hput⟩)
    · exact ⟨[], luck, turns, rfl, hremoving, hnot, hput⟩
    · exact ⟨turn :: before, luck, after, rfl, hremoving, hnot, hput⟩

/-! ## After the put -/

/-- Nothing happens when both calls are over. -/
theorem run_of_done (hput : crossing.HasPut moment) (hremoving : moment.removing = .done answer)
    (turns : List Turn) : crossing.run moment turns = moment := by
  induction turns with
  | nil => rfl
  | cons turn turns ih =>
      have hsame : crossing.step moment turn = moment := by
        cases turn with
        | put luck => exact hput.step_put luck
        | remove luck =>
            obtain ⟨removing, putting, folder⟩ := moment
            cases hremoving
            rfl
      rw [run_cons, hsame, ih]

/-- A removal that has not compared yet finds the newer payload and keeps it. -/
theorem holds_of_comparing (hne : crossing.payload ≠ crossing.expected)
    (hput : crossing.HasPut moment) (hremoving : moment.removing = .comparing)
    (hholds : Holds moment.folder crossing.key crossing.payload)
    (hdone : (crossing.run moment turns).removing = .done answer) :
    Holds (crossing.run moment turns).folder crossing.key crossing.payload := by
  induction turns with
  | nil =>
      rw [run, List.foldl_nil, hremoving] at hdone
      cases hdone
  | cons turn turns ih =>
      cases turn with
      | put luck =>
          rw [run_cons, hput.step_put] at hdone ⊢
          exact ih hdone
      | remove luck =>
          obtain ⟨other, -, hstep⟩ | ⟨-, hexpected, -⟩ :=
            crossing.removal.step_comparing luck moment.folder
          · have hnext := hput.step (.remove luck)
            have hmoment : crossing.step moment (.remove luck) =
                { moment with removing := .done other } := by
              rw [step, hremoving, hstep]
            rw [hmoment] at hnext
            rw [run_cons, hmoment, run_of_done hnext rfl]
            exact hholds
          · exact absurd (holds_unique hholds hexpected) hne

/-- A removal that is about to delete takes away whatever is in the entry then. -/
theorem gone_or_holds_of_deleting (hput : crossing.HasPut moment)
    (hremoving : moment.removing = .deleting)
    (hholds : Holds moment.folder crossing.key crossing.payload)
    (hdone : (crossing.run moment turns).removing = .done answer) :
    (answer = .ok true ∧ get .fine crossing.key (crossing.run moment turns).folder = .ok none) ∨
      answer ≠ .ok true ∧
        Holds (crossing.run moment turns).folder crossing.key crossing.payload := by
  induction turns with
  | nil =>
      rw [run, List.foldl_nil, hremoving] at hdone
      cases hdone
  | cons turn turns ih =>
      cases turn with
      | put luck =>
          rw [run_cons, hput.step_put] at hdone ⊢
          exact ih hdone
      | remove luck =>
          obtain ⟨removed, hremoved⟩ : ∃ removed, remove luck crossing.key moment.folder =
            removed := ⟨_, rfl⟩
          have hnext := hput.step (.remove luck)
          have hmoment : crossing.step moment (.remove luck) =
              { moment with removing := .done removed.1, folder := removed.2 } := by
            rw [step, hremoving, Removal.step, removal, hremoved]
          rw [hmoment] at hnext
          rw [run_cons, hmoment, run_of_done hnext rfl] at hdone ⊢
          cases hdone
          obtain ⟨hkept, hfolder⟩ | ⟨htrue, -⟩ :=
            remove_cases luck crossing.key moment.folder
          · right
            rw [hremoved] at hkept hfolder
            refine ⟨hkept, ?_⟩
            rw [hfolder]
            exact hholds
          · left
            have hnone := get_of_removed htrue
            rw [hremoved] at htrue hnone
            exact ⟨htrue, hnone⟩

/-! ## The whole crossing -/

/-- The put has not answered with the key, but it may still. -/
def IsUnderway (crossing : Crossing) (moment : Moment) : Prop :=
  crossing.put.IsDrafted moment.putting moment.folder ∨
    ∃ error, moment.putting = .done (.error error)

theorem isUnderway_start (crossing : Crossing) (folder : Folder) :
    crossing.IsUnderway (crossing.start folder) := by
  rw [IsUnderway, start, Put.init]
  split
  · next hsafe => exact .inl ⟨hsafe, by simp, by simp⟩
  · exact .inr ⟨_, rfl⟩

theorem IsUnderway.not_hasPut (hunderway : crossing.IsUnderway moment) :
    ¬crossing.HasPut moment := by
  intro hput
  obtain hdrafted | ⟨error, herror⟩ := hunderway
  · exact hdrafted.running _ hput
  · rw [HasPut, herror] at hput
    cases hput

/-- A step leaves the put under way, or it writes the entry. -/
theorem IsUnderway.step_cases (hunderway : crossing.IsUnderway moment) (turn : Turn) :
    crossing.IsUnderway (crossing.step moment turn) ∨
      (∃ luck, turn = .put luck) ∧ crossing.HasPut (crossing.step moment turn) ∧
        (crossing.step moment turn).removing = moment.removing ∧
          Holds (crossing.step moment turn).folder crossing.key crossing.payload := by
  obtain hdrafted | ⟨error, herror⟩ := hunderway
  · have hne := entryName_ne_temporaryName crossing.key crossing.key crossing.stamp
    cases turn with
    | put luck =>
        obtain ⟨hdone, hholds, -⟩ | ⟨herror | hnext, -⟩ := Put.step_cases hdrafted luck
        · exact .inr ⟨⟨luck, rfl⟩, hdone, rfl, hholds⟩
        · exact .inl (.inr herror)
        · exact .inl (.inl hnext)
    | remove luck =>
        left
        left
        refine ⟨hdrafted.safe, ?_, hdrafted.running⟩
        intro hstage
        have htemporary := hdrafted.temporary hstage
        obtain hfolder | hfolder :=
          crossing.removal.step_cases luck moment.removing moment.folder
        · rw [step]
          exact (congrArg (Folder.get? · _) hfolder).trans htemporary
        · exact ((hfolder _).trans (if_neg hne.symm)).trans htemporary
  · left
    right
    cases turn with
    | put luck =>
        refine ⟨error, ?_⟩
        rw [step, herror]
        rfl
    | remove luck => exact ⟨error, herror⟩

/-- The payload of a put that is under way and succeeds in the end. -/
theorem IsUnderway.kept_or_deleted (hne : crossing.payload ≠ crossing.expected)
    (hunderway : crossing.IsUnderway moment) (hput : crossing.HasPut (crossing.run moment turns))
    (hdone : (crossing.run moment turns).removing = .done answer) :
    (crossing.IsOvertaken moment turns ∧ answer = .ok true ∧
        get .fine crossing.key (crossing.run moment turns).folder = .ok none) ∨
      ¬(crossing.IsOvertaken moment turns ∧ answer = .ok true) ∧
        Holds (crossing.run moment turns).folder crossing.key crossing.payload := by
  induction turns generalizing moment with
  | nil => exact absurd hput hunderway.not_hasPut
  | cons turn turns ih =>
      obtain hnext | ⟨⟨luck, rfl⟩, hfinished, hremoving, hholds⟩ := hunderway.step_cases turn
      · -- the turn that writes the entry is still to come
        have hlater : crossing.IsOvertaken moment (turn :: turns) ↔
            crossing.IsOvertaken (crossing.step moment turn) turns := by
          rw [isOvertaken_cons_iff]
          constructor
          · rintro (⟨-, -, -, -, hfinished⟩ | hlater)
            · exact absurd hfinished hnext.not_hasPut
            · exact hlater
          · exact .inr
        rw [hlater]
        exact ih hnext hput hdone
      · have hnow : crossing.IsOvertaken moment (.put luck :: turns) ↔
            moment.removing = .deleting := by
          rw [isOvertaken_cons_iff]
          constructor
          · rintro (⟨hdeleting, -⟩ | hlater)
            · exact hdeleting
            · exact absurd hlater (hfinished.not_isOvertaken turns)
          · intro hdeleting
            exact .inl ⟨hdeleting, hunderway.not_hasPut, luck, rfl, hfinished⟩
        rw [hnow]
        rw [run_cons] at hdone ⊢
        cases hstage : moment.removing with
        | comparing =>
            right
            refine ⟨nofun, ?_⟩
            exact holds_of_comparing hne hfinished (hremoving.trans hstage) hholds hdone
        | deleting =>
            obtain ⟨htrue, hgone⟩ | ⟨hfalse, hkept⟩ :=
              gone_or_holds_of_deleting hfinished (hremoving.trans hstage) hholds hdone
            · exact .inl ⟨rfl, htrue, hgone⟩
            · exact .inr ⟨fun hboth => hfalse hboth.2, hkept⟩
        | done other =>
            right
            refine ⟨nofun, ?_⟩
            rw [run_of_done hfinished (hremoving.trans hstage)]
            exact hholds

/-- What can be read under the key when a put has succeeded and both calls are over.  The
newer payload is gone exactly when the put wrote it after the comparison and the deletion
went through; otherwise it is there. -/
theorem get_after_crossing (crossing : Crossing) (hne : crossing.payload ≠ crossing.expected)
    (folder : Folder) (turns : List Turn) (answer : Except QueueError Bool)
    (hput : crossing.HasPut (crossing.run (crossing.start folder) turns))
    (hdone : (crossing.run (crossing.start folder) turns).removing = .done answer) :
    let last := (crossing.run (crossing.start folder) turns).folder
    let isLost := crossing.IsOvertaken (crossing.start folder) turns ∧ answer = .ok true
    (isLost → get .fine crossing.key last = .ok none) ∧
      (¬isLost → get .fine crossing.key last = .ok (some crossing.payload)) := by
  intro last isLost
  obtain ⟨hovertaken, htrue, hgone⟩ | ⟨hkept, hholds⟩ :=
    (isUnderway_start crossing folder).kept_or_deleted hne hput hdone
  · exact ⟨fun _ => hgone, fun hnot => absurd ⟨hovertaken, htrue⟩ hnot⟩
  · exact ⟨fun hlost => absurd hlost hkept, fun _ => hholds⟩

/-! ## A put between the comparison and the deletion -/

def overtaking : Crossing where
  base := "queue"
  suffix := "abc"
  expected := "v1"
  payload := "v2"
  stamp := ⟨1, 0⟩

/-- The queue holds the payload that the removal expects. -/
def holdingExpected : Folder :=
  .present (Entries.empty.put (entryName "queue.abc") (.file "v1".toByteArray))

/-- The removal compares while the temporary file of the put is there, and it deletes after
the renaming. -/
def overtakingTurns : List Turn :=
  [.put .fine, .put .fine, .remove .fine, .put .fine, .remove .fine]

theorem hasPut_overtaking :
    overtaking.HasPut (overtaking.run (overtaking.start holdingExpected) overtakingTurns) :=
  rfl

theorem removing_overtaking :
    (overtaking.run (overtaking.start holdingExpected) overtakingTurns).removing =
      .done (.ok true) :=
  rfl

theorem not_keepsNewer_overtaking :
    overtaking.payload ≠ overtaking.expected ∧ ¬overtaking.KeepsNewer := by
  refine ⟨by decide, ?_⟩
  intro hkeeps
  have hholds := hkeeps holdingExpected overtakingTurns (.ok true) hasPut_overtaking
    removing_overtaking
  have hgone : get .fine overtaking.key
      (overtaking.run (overtaking.start holdingExpected) overtakingTurns).folder = .ok none :=
    rfl
  rw [Holds, hgone] at hholds
  cases hholds

theorem get_after_overtaking :
    overtaking.payload ≠ overtaking.expected ∧
      overtaking.HasPut (overtaking.run (overtaking.start holdingExpected) overtakingTurns) ∧
        (overtaking.run (overtaking.start holdingExpected) overtakingTurns).removing =
            .done (.ok true) ∧
          overtaking.IsOvertaken (overtaking.start holdingExpected) overtakingTurns ∧
            get .fine overtaking.key
                (overtaking.run (overtaking.start holdingExpected) overtakingTurns).folder =
              .ok none := by
  have hne : overtaking.payload ≠ overtaking.expected := by decide
  have hovertaken : overtaking.IsOvertaken (overtaking.start holdingExpected) overtakingTurns :=
    ⟨[.put .fine, .put .fine, .remove .fine], .fine, [.remove .fine], rfl, rfl, nofun, rfl⟩
  have hget := get_after_crossing overtaking hne holdingExpected overtakingTurns (.ok true)
    hasPut_overtaking removing_overtaking
  exact ⟨hne, hasPut_overtaking, removing_overtaking, hovertaken, hget.1 ⟨hovertaken, rfl⟩⟩

end Crossing

end Scorekeeper.Queue
