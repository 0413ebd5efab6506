import Scorekeeper.Proofs.Save.Moves

/-!
# Entries under interleaved calls

Between any two calls of the file system another task may act.  A put that has
written its temporary file relies on finding it again; since every put gets a
serial number of its own, nobody else touches it.  This file proves that, and
derives what any event can do to an entry: a save that returns as queued writes
it, some removal takes it away, or it stays as it is.
-/

namespace Scorekeeper.Save

open Queue Remote Files

variable {base : String}

namespace Task

/-- The serial number that a save needs while it keeps its payload. -/
def serial? : Task → Option UInt64
  | .keeping _ stamp _ => some stamp.serial
  | _ => none

/-- The removal that a task carries out, and how far it has come. -/
def removal? (base : String) : Task → Option (Removal × Removal.Stage)
  | .clearing snapshot stage =>
      some (⟨keyFor base snapshot.id.text, snapshot.payload⟩, stage)
  | .dropping key payload _ stage => some (⟨key, payload⟩, stage)
  | _ => none

/-- What a task may rely on between two of its steps: its keys belong to the
queue, and a put that is to rename its temporary file finds its payload there. -/
def IsPlaced (base : String) (folder : Folder) : Task → Prop
  | .keeping snapshot stamp stage =>
      Put.IsDrafted ⟨keyFor base snapshot.id.text, snapshot.payload, stamp⟩ stage folder
  | .reading key suffix _ => key = keyFor base suffix
  | .resending key suffix _ _ => key = keyFor base suffix
  | .dropping key _ _ _ => ∃ suffix, key = keyFor base suffix
  | _ => True

variable {task : Task}

theorem isPlaced_of_isFresh {folder : Folder} (hfresh : task.isFresh = true) :
    task.IsPlaced base folder := by
  cases task <;> trivial

theorem serial?_of_isFresh (hfresh : task.isFresh = true) : task.serial? = none := by
  cases task <;> trivial

/-- What a task hands on to the task that it becomes. -/
structure Follows (base : String) (task : Task) (after : Folder) (next : Task) :
    Prop where
  placed : next.IsPlaced base after
  serial : next.serial? = none ∨ next.serial? = task.serial?

end Task

namespace Session

/-- What a call of the file system, or a whole call of the queue, makes of the
folder, the session and the task. -/
inductive Move (session : Session) (now : Nat) (folder : Folder) (task : Task) :
    Folder × Session × Task → Prop where
  | file (luck : Luck) : Move session now folder task
      (session.fileStep now luck folder task)
  | call (chances : Chances) : Move session now folder task
      (session.callStep now chances folder task)

/-- What a move can do to the folder. -/
inductive Change (base : String) (folder : Folder) (task : Task) (after : Folder)
    (next : Task) : Prop where
  | still (folder : after = folder)
  | removed (suffix : String) (carries : task.removal? base ≠ none)
      (get? : ∀ name, after.get? name =
        if name = entryName (keyFor base suffix) then none else folder.get? name)
  /-- A put goes on, or fails; only its temporary file may have changed. -/
  | drafted (snapshot : Snapshot) (stamp : Stamp) (stage : Put.Stage)
      (task : task = .keeping snapshot stamp stage)
      (others : ∀ name, name ≠ temporaryName (keyFor base snapshot.id.text) stamp →
        after.get? name = folder.get? name)
  /-- A put ends and has written its entry. -/
  | kept (snapshot : Snapshot) (stamp : Stamp) (stage : Put.Stage)
      (task : task = .keeping snapshot stamp stage)
      (next : next = .saved snapshot .queued)
      (holds : Holds after (keyFor base snapshot.id.text) snapshot.payload)
      (others : ∀ name, name ≠ entryName (keyFor base snapshot.id.text) →
        name ≠ temporaryName (keyFor base snapshot.id.text) stamp →
        after.get? name = folder.get? name)

variable {session : Session} {folder : Folder} {task : Task} (now : Nat)

/-- One step of the put of a save: the save goes on, or it ends as queued or not
queued as the put ends. -/
theorem fileStep_keeping_cases {snapshot : Snapshot} {stamp : Stamp}
    {stage : Put.Stage} (hbase : session.base = base)
    (hplaced : (Task.keeping snapshot stamp stage).IsPlaced base folder) (luck : Luck) :
    let key := keyFor base snapshot.id.text
    let after := session.fileStep now luck folder (.keeping snapshot stamp stage)
    (after.2.2 = .saved snapshot .queued ∧ Holds after.1 key snapshot.payload ∧
        ∀ name, name ≠ entryName key → name ≠ temporaryName key stamp →
          after.1.get? name = folder.get? name) ∨
      (after.2.2 = .saved snapshot .notQueued ∨
          ∃ next, after.2.2 = .keeping snapshot stamp next ∧
            (Task.keeping snapshot stamp next).IsPlaced base after.1) ∧
        ∀ name, name ≠ temporaryName key stamp →
          after.1.get? name = folder.get? name := by
  intro key after
  subst hbase
  have hdrafted : (session.putOf snapshot stamp).IsDrafted stage folder := hplaced
  have hstep := Put.step_cases hdrafted luck
  have hafter : after = session.fileStep now luck folder (.keeping snapshot stamp stage) := rfl
  rw [fileStep] at hafter
  revert hstep hafter
  cases (session.putOf snapshot stamp).step luck stage folder with
  | mk next place =>
      rintro (⟨rfl, hholds, hothers⟩ | ⟨⟨error, rfl⟩ | hdrafted, hothers⟩) hafter
      · rw [hafter]
        exact .inl ⟨rfl, hholds, hothers⟩
      · rw [hafter]
        exact .inr ⟨.inl rfl, hothers⟩
      · have hkeeping : after = (place, session, .keeping snapshot stamp next) := by
          cases next with
          | done answer => exact absurd rfl (hdrafted.running answer)
          | _ => exact hafter
        rw [hkeeping]
        exact .inr ⟨.inr ⟨next, rfl, hdrafted⟩, hothers⟩

theorem folder_fileStep_clearing (luck : Luck) (snapshot : Snapshot)
    (stage : Removal.Stage) :
    (session.fileStep now luck folder (.clearing snapshot stage)).1 =
      ((session.removalOf snapshot).step luck stage folder).2 := by
  simp only [fileStep]
  split
  · next hstep => rw [hstep]
  · next hstep => rw [hstep]

theorem folder_fileStep_dropping (luck : Luck) (key payload : String) (pass : Pass)
    (stage : Removal.Stage) :
    (session.fileStep now luck folder (.dropping key payload pass stage)).1 =
      ((Removal.mk key payload).step luck stage folder).2 := by
  simp only [fileStep]
  split
  · next hstep => rw [hstep]
  · next hstep => rw [hstep]

/-- What a removal has done to the folder. -/
theorem Change.of_removal {removal : Removal} {after : Folder} {next : Task}
    (suffix : String) (hcarries : task.removal? base ≠ none)
    (hkey : removal.key = keyFor base suffix)
    (hafter : after = folder ∨ ∀ name, after.get? name =
      if name = entryName removal.key then none else folder.get? name) :
    Change base folder task after next := by
  rw [hkey] at hafter
  exact hafter.elim .still (.removed suffix hcarries)

theorem Change.of_removal_run (removal : Removal) {suffix : String} {next : Task}
    (hcarries : task.removal? base ≠ none) (hkey : removal.key = keyFor base suffix)
    (chances : Removal.Chances) :
    Change base folder task (removal.run chances folder).2 next := by
  apply Change.of_removal suffix hcarries hkey
  rcases removal.run_cases chances folder with ⟨-, hkept⟩ | ⟨-, -, hremoved⟩
  · exact .inl hkept
  · exact .inr hremoved

variable {move : Folder × Session × Task}

theorem Move.change (hmove : session.Move now folder task move)
    (hbase : session.base = base) (hplaced : task.IsPlaced base folder) :
    Change base folder task move.1 move.2.2 := by
  cases hmove with
  | file luck =>
      cases task with
      | clearing snapshot stage =>
          rw [folder_fileStep_clearing]
          exact .of_removal snapshot.id.text nofun (congrArg (keyFor · _) hbase)
            (Removal.step_cases _ luck stage folder)
      | keeping snapshot stamp stage =>
          rcases fileStep_keeping_cases now hbase hplaced luck with
            ⟨hqueued, hholds, hothers⟩ | ⟨-, hothers⟩
          · exact .kept snapshot stamp stage rfl hqueued hholds hothers
          · exact .drafted snapshot stamp stage rfl hothers
      | dropping key payload pass stage =>
          obtain ⟨suffix, rfl⟩ := hplaced
          rw [folder_fileStep_dropping]
          exact .of_removal suffix nofun rfl (Removal.step_cases _ luck stage folder)
      | _ => exact .still rfl
  | call chances =>
      cases task with
      | clearing snapshot stage =>
          cases stage with
          | comparing => exact .of_removal_run _ (by nofun) (congrArg (keyFor · _) hbase) _
          | _ => exact .still rfl
      | keeping snapshot stamp stage =>
          cases stage with
          | making =>
              rcases callStep_keeping_cases session now hbase chances folder
                  stamp with ⟨hqueued, hholds, hothers⟩ | ⟨-, hothers⟩
              · exact .kept snapshot stamp .making rfl (congrArg Prod.snd hqueued) hholds
                  hothers
              · exact .drafted snapshot stamp .making rfl hothers
          | _ => exact .still rfl
      | dropping key payload pass stage =>
          obtain ⟨suffix, rfl⟩ := hplaced
          cases stage with
          | comparing => exact .of_removal_run _ (by nofun) rfl _
          | _ => exact .still rfl
      | _ => exact .still rfl

theorem Move.turn (hmove : session.Move now folder task move) :
    ∃ look, session.Turn now look folder task move.2 := by
  cases hmove with
  | file luck => exact ⟨luck, session.turn_fileStep now luck folder task⟩
  | call chances => exact ⟨chances.look, session.turn_callStep now chances folder task⟩

theorem Turn.follows {look : Luck} {turn : Session × Task}
    (hturn : session.Turn now look folder task turn) (hbase : session.base = base)
    (hplaced : task.IsPlaced base folder) (hserial : task.serial? = none)
    (after : Folder) : task.Follows base after turn.2 := by
  have hunplaced (hplaced : task.IsPlaced base folder) : task.IsPlaced base after := by
    cases task with
    | keeping snapshot stamp stage => cases hserial
    | _ => exact hplaced
  cases hturn with
  | still task => exact ⟨hunplaced hplaced, .inl hserial⟩
  | keep snapshot stamp stage next => cases hserial
  | resend key suffix payload pass read => exact ⟨hplaced, .inl rfl⟩
  | drop key payload pass stage next => exact ⟨hplaced, .inl rfl⟩
  | entry passing suffix pass => exact ⟨congrArg (keyFor · suffix) hbase, .inl rfl⟩
  | ended passing report =>
      rw [task_endPass]
      exact ⟨trivial, .inl rfl⟩
  | counted answer =>
      cases answer with
      | ok found => cases found <;> exact ⟨trivial, .inl rfl⟩
      | error error => exact ⟨trivial, .inl rfl⟩
  | _ => exact ⟨trivial, .inl rfl⟩

/-- A move leaves its task in good order, and with no other serial number. -/
theorem Move.follows (hmove : session.Move now folder task move)
    (hbase : session.base = base) (hplaced : task.IsPlaced base folder) :
    task.Follows base move.1 move.2.2 := by
  cases hserial : task.serial? with
  | none =>
      obtain ⟨look, hturn⟩ := hmove.turn
      exact hturn.follows now hbase hplaced hserial move.1
  | some serial =>
      cases task with
      | keeping snapshot stamp stage =>
          cases hmove with
          | file luck =>
              obtain ⟨hqueued, -⟩ | ⟨hlost | ⟨next, hkeeping, hplaced⟩, -⟩ :=
                fileStep_keeping_cases now hbase hplaced luck
              · rw [hqueued]
                exact ⟨trivial, .inl rfl⟩
              · rw [hlost]
                exact ⟨trivial, .inl rfl⟩
              · rw [hkeeping]
                exact ⟨hplaced, .inr rfl⟩
          | call chances =>
              cases stage with
              | making =>
                  obtain ⟨hqueued, -⟩ | ⟨hlost, -⟩ := callStep_keeping_cases session now
                    hbase chances folder stamp
                  · rw [hqueued]
                    exact ⟨trivial, .inl rfl⟩
                  · rw [hlost]
                    exact ⟨trivial, .inl rfl⟩
              | _ => exact ⟨hplaced, .inr rfl⟩
      | _ => cases hserial

/-- A temporary file changes only by a move of the task whose serial number it
bears. -/
theorem Change.get?_temporaryName {after : Folder} {next : Task} {key : String}
    {stamp : Stamp} (hchange : Change base folder task after next)
    (hserial : task.serial? ≠ some stamp.serial) :
    after.get? (temporaryName key stamp) = folder.get? (temporaryName key stamp) := by
  have hentry (suffix : String) :
      temporaryName key stamp ≠ entryName (keyFor base suffix) :=
    (entryName_ne_temporaryName _ key stamp).symm
  have htemporary {snapshot : Snapshot} {other : Stamp} {stage : Put.Stage}
      (htask : task = .keeping snapshot other stage) :
      temporaryName key stamp ≠ temporaryName (keyFor base snapshot.id.text) other := by
    intro heq
    apply hserial
    rw [htask, stamp_eq_of_temporaryName_eq heq]
    rfl
  cases hchange with
  | still folder => rw [folder]
  | removed suffix carries get? => rw [get?, if_neg (hentry suffix)]
  | drafted snapshot other stage task others => exact others _ (htemporary task)
  | kept snapshot other stage task next holds others =>
      exact others _ (hentry _) (htemporary task)

/-- What a move does leaves every task in order that has another serial number. -/
theorem Change.isPlaced {after : Folder} {next other : Task}
    (hchange : Change base folder task after next)
    (hplaced : other.IsPlaced base folder)
    (hserial : other.serial? = none ∨ other.serial? ≠ task.serial?) :
    other.IsPlaced base after := by
  cases other with
  | keeping snapshot stamp stage =>
      refine ⟨hplaced.safe, fun hstage => ?_, hplaced.running⟩
      have hother : task.serial? ≠ some stamp.serial :=
        hserial.elim nofun fun hne heq => hne heq.symm
      exact (hchange.get?_temporaryName hother).trans
        (hplaced.temporary hstage)
  | _ => exact hplaced

/-- What a move can do to one entry. -/
theorem Change.entry {after : Folder} {next : Task}
    (hchange : Change base folder task after next)
    (hplaced : task.IsPlaced base folder) (suffix : String) :
    let name := entryName (keyFor base suffix)
    after.get? name = folder.get? name ∨
      (∃ snapshot stamp stage, task = .keeping snapshot stamp stage ∧
        snapshot.id.text = suffix ∧ next = .saved snapshot .queued ∧
        Holds after (keyFor base suffix) snapshot.payload) ∨
      after.get? name = none := by
  intro name
  have hentry {owner : String} (howner : suffix ≠ owner) :
      name ≠ entryName (keyFor base owner) := fun heq =>
    howner (keyFor_injective (entryName_injective heq))
  cases hchange with
  | still folder => exact .inl (by rw [folder])
  | removed owner carries get? =>
      by_cases howner : suffix = owner
      · subst howner
        exact .inr (.inr ((get? name).trans (if_pos rfl)))
      · exact .inl ((get? name).trans (if_neg (hentry howner)))
  | drafted snapshot stamp stage task others =>
      subst task
      exact .inl (others name (entryName_ne_temporaryName _ _ stamp))
  | kept snapshot stamp stage task next holds others =>
      subst task
      by_cases howner : suffix = snapshot.id.text
      · subst howner
        exact .inr (.inl ⟨snapshot, stamp, stage, rfl, rfl, next, holds⟩)
      · exact .inl (others name (hentry howner)
          (entryName_ne_temporaryName _ _ stamp))

/-- Only a put ends a save as queued. -/
theorem Turn.eq_queued {look : Luck} {turn : Session × Task} {snapshot : Snapshot}
    (hturn : session.Turn now look folder task turn)
    (hqueued : turn.2 = .saved snapshot .queued) :
    task = .saved snapshot .queued ∨
      ∃ stamp stage, task = .keeping snapshot stamp stage := by
  cases hturn with
  | still task => exact .inl hqueued
  | kept other stamp stage =>
      cases hqueued
      exact .inr ⟨stamp, stage, rfl⟩
  | ended passing report =>
      rw [task_endPass] at hqueued
      cases hqueued
  | counted answer =>
      cases answer with
      | ok found => cases found <;> cases hqueued
      | error error => cases hqueued
  | _ => cases hqueued

/-- A move that ends a save as queued has left its payload in its entry. -/
theorem Move.holds_of_queued {snapshot : Snapshot}
    (hmove : session.Move now folder task move) (hbase : session.base = base)
    (hplaced : task.IsPlaced base folder)
    (hqueued : move.2.2 = .saved snapshot .queued) :
    task = .saved snapshot .queued ∨
      Holds move.1 (keyFor base snapshot.id.text) snapshot.payload := by
  obtain ⟨look, hturn⟩ := hmove.turn
  obtain hdone | ⟨stamp, stage, rfl⟩ := hturn.eq_queued now hqueued
  · exact .inl hdone
  · right
    cases hmove with
    | file luck =>
        obtain ⟨-, hholds, -⟩ | ⟨hlost | ⟨next, hkeeping, -⟩, -⟩ :=
          fileStep_keeping_cases now hbase hplaced luck
        · exact hholds
        · rw [hlost] at hqueued
          cases hqueued
        · rw [hkeeping] at hqueued
          cases hqueued
    | call chances =>
        cases stage with
        | making =>
            obtain ⟨-, hholds, -⟩ | ⟨hlost, -⟩ :=
              callStep_keeping_cases session now hbase chances folder stamp
            · exact hholds
            · rw [hlost] at hqueued
              cases hqueued
        | _ => cases hqueued

theorem isPlaced_afterUpload (hbase : session.base = base)
    (hplaced : task.IsPlaced base folder) (stamp : Stamp)
    (result : Except StorageError Unit) {key : DocumentKey} {payload : String}
    (hupload : task.upload? = some (key, payload)) :
    let next := (session.afterUpload now stamp result task).2
    next.IsPlaced base folder ∧
      (next.serial? = none ∨ next.serial? = some stamp.serial) := by
  intro next
  cases task with
  | uploading snapshot =>
      cases result with
      | ok _ => exact ⟨trivial, .inl rfl⟩
      | error error =>
          obtain ⟨hsafe, hkeeping⟩ | hlost :=
            session.afterUpload_error_cases now stamp error snapshot
          · simp only [next, hkeeping]
            exact ⟨⟨hbase ▸ hsafe, nofun, nofun⟩, .inr rfl⟩
          · simp only [next, hlost]
            exact ⟨trivial, .inl rfl⟩
  | resending entry suffix text pass =>
      cases result with
      | ok _ => exact ⟨⟨suffix, hplaced⟩, .inl rfl⟩
      | error error =>
          have hturn : session.Turn now .fine folder .listing
              (session.nextEntry now pass.report.addFailed pass.rest) :=
            session.turn_nextEntry now .fine folder rfl _ _
          have hfollows := hturn.follows now hbase trivial rfl folder
          exact ⟨hfollows.placed, .inl (hfollows.serial.elim id id)⟩
  | _ => cases hupload

end Session

namespace World

variable {n : Nat} {world after : World n}

/-- Every task of a world is in good order, and no two saves that keep their
payloads share a serial number. -/
structure IsPlaced (base : String) (world : World n) : Prop where
  bases : world.HasBase base
  tasks : ∀ (place : Nat) (job : Job n), world.jobs[place]? = some job →
    job.task.IsPlaced base world.folder
  issued : ∀ (place : Nat) (job : Job n) (serial : UInt64),
    world.jobs[place]? = some job → job.task.serial? = some serial →
      serial.toNat < world.serial.toNat
  distinct : ∀ (place other : Nat) (left right : Job n) (serial : UInt64),
    world.jobs[place]? = some left → world.jobs[other]? = some right →
      left.task.serial? = some serial → right.task.serial? = some serial →
        place = other

theorem isPlaced_new {sessions : Vector Session n} (folder : Folder)
    (hbase : ∀ i : Fin n, (sessions.get i).base = base) :
    (World.new folder sessions).IsPlaced base := by
  have hnone {place : Nat} {job : Job n} :
      (World.new folder sessions).jobs[place]? ≠ some job := by
    change ([] : List (Job n))[place]? ≠ some job
    rw [List.getElem?_nil]
    exact nofun
  refine ⟨hbase, fun place job hjob => ?_, fun place job serial hjob => ?_,
    fun place other left right serial hjob => ?_⟩
  all_goals exact absurd hjob hnone

/-- A world stays in good order when one job moves and what it does to the folder
does not disturb the others. -/
theorem IsPlaced.of_set {place : Nat} {old new : Job n} (hplaced : world.IsPlaced base)
    (hbases : after.HasBase base) (hfound : world.jobs[place]? = some old)
    (hjobs : after.jobs = world.jobs.set place new)
    (hothers : ∀ task : Task, task.IsPlaced base world.folder →
      task.serial? = none ∨ task.serial? ≠ old.task.serial? →
      task.IsPlaced base after.folder)
    (hnew : new.task.IsPlaced base after.folder)
    (hserial : world.serial.toNat ≤ after.serial.toNat)
    (hissued : ∀ serial, new.task.serial? = some serial →
      serial.toNat < after.serial.toNat ∧
        (old.task.serial? = some serial ∨ world.serial.toNat ≤ serial.toNat)) :
    after.IsPlaced base := by
  have hcases {k : Nat} {job : Job n} (hjob : after.jobs[k]? = some job) :
      (k = place ∧ job = new) ∨ k ≠ place ∧ world.jobs[k]? = some job := by
    rw [hjobs, List.getElem?_set] at hjob
    split at hjob
    · next heq =>
      split at hjob
      · exact .inl ⟨heq.symm, (Option.some.inj hjob).symm⟩
      · cases hjob
    · next hne => exact .inr ⟨fun heq => hne heq.symm, hjob⟩
  -- no other job shares a serial number with the one that moved
  have hunshared {k : Nat} {job : Job n} {serial : UInt64} (hne : k ≠ place)
      (hjob : world.jobs[k]? = some job) (hserial : job.task.serial? = some serial) :
      new.task.serial? ≠ some serial := by
    intro hsame
    obtain ⟨-, hold | hfresh⟩ := hissued serial hsame
    · exact hne (hplaced.distinct k place job old serial hjob hfound hserial hold)
    · exact absurd (hplaced.issued k job serial hjob hserial) (Nat.not_lt.mpr hfresh)
  refine ⟨hbases, fun k job hjob => ?_, fun k job serial hjob hown => ?_,
    fun k l left right serial hleft hright hown hother => ?_⟩
  · obtain ⟨rfl, rfl⟩ | ⟨hne, hjob⟩ := hcases hjob
    · exact hnew
    · refine hothers job.task (hplaced.tasks k job hjob) ?_
      cases hown : job.task.serial? with
      | none => exact .inl rfl
      | some serial =>
          refine .inr fun hold => hne ?_
          exact hplaced.distinct k place job old serial hjob hfound hown hold.symm
  · obtain ⟨rfl, rfl⟩ | ⟨hne, hjob⟩ := hcases hjob
    · exact (hissued serial hown).1
    · exact Nat.lt_of_lt_of_le (hplaced.issued k job serial hjob hown) hserial
  · obtain ⟨rfl, rfl⟩ | ⟨hne, hjob⟩ := hcases hleft
    · obtain ⟨rfl, rfl⟩ | ⟨hne, hjob⟩ := hcases hright
      · rfl
      · exact absurd hown (hunshared hne hjob hother)
    · obtain ⟨rfl, rfl⟩ | ⟨-, hjob'⟩ := hcases hright
      · exact absurd hother (hunshared hne hjob hown)
      · exact hplaced.distinct k l left right serial hjob hjob' hown hother

/-- A world stays in good order when a task of it makes a call of the file system, or a
whole call of the queue. -/
theorem IsPlaced.of_move {place : Nat} {i : Fin n} {task : Task}
    {move : Folder × Session × Task} (hplaced : world.IsPlaced base)
    (hbases : after.HasBase base)
    (hfound : world.jobs[place]? = some { session := i, task })
    (hmove : (world.sessions.get i).Move world.now world.folder task move)
    (hfolder : after.folder = move.1) (hserial : after.serial = world.serial)
    (hjobs : after.jobs = world.jobs.set place { session := i, task := move.2.2 }) :
    after.IsPlaced base := by
  have htask := hplaced.tasks place _ hfound
  have hchange := hmove.change world.now (hplaced.bases i) htask
  have hfollows := hmove.follows world.now (hplaced.bases i) htask
  rw [← hfolder] at hchange hfollows
  refine hplaced.of_set hbases hfound hjobs
    (fun task htask hother => hchange.isPlaced htask hother) hfollows.placed
    (Nat.le_of_eq (by rw [hserial])) fun serial hown => ?_
  obtain hnone | hsame := hfollows.serial
  · rw [hnone] at hown
    cases hown
  · rw [hsame] at hown
    rw [hserial]
    exact ⟨hplaced.issued place _ serial hfound hown, .inl hown⟩

/-- A world stays in good order when a task begins. -/
theorem IsPlaced.of_launch {i : Fin n} {task : Task} (hplaced : world.IsPlaced base)
    (hbases : after.HasBase base) (hfresh : task.isFresh = true)
    (hfolder : after.folder = world.folder) (hserial : after.serial = world.serial)
    (hjobs : after.jobs = world.jobs ++ [{ session := i, task }]) :
    after.IsPlaced base := by
  have hcases {k : Nat} {job : Job n} (hjob : after.jobs[k]? = some job) :
      world.jobs[k]? = some job ∨ job = { session := i, task } := by
    rw [hjobs, List.getElem?_append] at hjob
    split at hjob
    · exact .inl hjob
    · exact .inr (List.mem_singleton.mp (List.mem_of_getElem? hjob))
  -- the new task has no serial number yet
  have hnumbered {k : Nat} {job : Job n} {number : UInt64}
      (hjob : after.jobs[k]? = some job) (hown : job.task.serial? = some number) :
      world.jobs[k]? = some job := by
    obtain hjob | rfl := hcases hjob
    · exact hjob
    · rw [Task.serial?_of_isFresh hfresh] at hown
      cases hown
  refine ⟨hbases, fun k job hjob => ?_, fun k job number hjob hown => ?_,
    fun k l left right number hleft hright hown hother => ?_⟩
  · rw [hfolder]
    obtain hjob | rfl := hcases hjob
    · exact hplaced.tasks k job hjob
    · exact Task.isPlaced_of_isFresh hfresh
  · rw [hserial]
    exact hplaced.issued k job number (hnumbered hjob hown) hown
  · exact hplaced.distinct k l left right number (hnumbered hleft hown)
      (hnumbered hright hother) hown hother

/-- A world stays in good order when the store answers a task: a serial number that the
task gets is a new one. -/
theorem IsPlaced.of_answer {place : Nat} {i : Fin n} {task : Task}
    {result : Except StorageError Unit} {key : DocumentKey} {payload : String}
    {stamp : Stamp} (hplaced : world.IsPlaced base) (hbases : after.HasBase base)
    (hfound : world.jobs[place]? = some { session := i, task })
    (hupload : task.upload? = some (key, payload)) (hissued : stamp.serial = world.serial)
    (hfolder : after.folder = world.folder) (hserial : after.serial = world.serial + 1)
    (hjobs : after.jobs = world.jobs.set place
      { session := i
        task := ((world.sessions.get i).afterUpload world.now stamp result task).2 })
    (hroom : world.serial.toNat + 1 < UInt64.size) : after.IsPlaced base := by
  obtain ⟨hnew, hstamped⟩ := Session.isPlaced_afterUpload world.now (hplaced.bases i)
    (hplaced.tasks place _ hfound) stamp result hupload
  have hnext : after.serial.toNat = world.serial.toNat + 1 := by
    rw [hserial, UInt64.toNat_add]
    exact Nat.mod_eq_of_lt hroom
  rw [← hfolder] at hnew
  refine hplaced.of_set hbases hfound hjobs (fun task htask _ => ?_) hnew ?_
    fun number hown => ?_
  · rw [hfolder]
    exact htask
  · rw [hnext]
    exact Nat.le_succ _
  · obtain hnone | hstamp := hstamped
    · rw [hnone] at hown
      cases hown
    · rw [hstamp, hissued] at hown
      cases hown
      rw [hnext]
      exact ⟨Nat.lt_succ_self _, .inr (Nat.le_refl _)⟩

theorem IsPlaced.step (hplaced : world.IsPlaced base) (event : Event n)
    (hroom : world.serial.toNat + 1 < UInt64.size) : (world.step event).IsPlaced base := by
  have hbases := hplaced.bases.step event
  cases world.shift_step event with
  | quiet folder uploads documents serial jobs =>
      refine ⟨hbases, ?_, ?_, ?_⟩
      · rw [jobs, folder]
        exact hplaced.tasks
      · rw [jobs, serial]
        exact hplaced.issued
      · rw [jobs]
        exact hplaced.distinct
  | launch folder uploads documents serial jobs fresh =>
      exact hplaced.of_launch hbases fresh folder serial jobs
  | answer found upload issued folder uploads documents serial jobs =>
      exact hplaced.of_answer hbases found upload issued folder serial jobs hroom
  | file found folder uploads documents serial jobs =>
      exact hplaced.of_move hbases found (.file _) folder serial jobs
  | call found folder uploads documents serial jobs =>
      exact hplaced.of_move hbases found (.call _) folder serial jobs

theorem serial_step_le (world : World n) (event : Event n) :
    (world.step event).serial.toNat ≤ world.serial.toNat + 1 := by
  cases world.shift_step event with
  | answer found upload issued folder uploads documents serial jobs =>
      rw [serial, UInt64.toNat_add]
      exact Nat.mod_le _ _
  | quiet folder uploads documents serial jobs => exact serial ▸ Nat.le_succ _
  | launch folder uploads documents serial jobs fresh => exact serial ▸ Nat.le_succ _
  | file found folder uploads documents serial jobs => exact serial ▸ Nat.le_succ _
  | call found folder uploads documents serial jobs => exact serial ▸ Nat.le_succ _

theorem IsPlaced.run (hplaced : world.IsPlaced base) {events : List (Event n)}
    (hroom : world.serial.toNat + events.length < UInt64.size) :
    (world.run events).IsPlaced base := by
  induction events generalizing world with
  | nil => exact hplaced
  | cons event events ih =>
      rw [List.length_cons] at hroom
      have hserial := world.serial_step_le event
      exact ih (hplaced.step event (by omega)) (by omega)

variable {event : Event n}

/-- The entry of a key stays as it is, unless a save of the card whose key it is
returns and has written its payload there, or the entry is taken away. -/
theorem IsPlaced.entry_step (hplaced : world.IsPlaced base) (event : Event n)
    (suffix : String) :
    let name := entryName (keyFor base suffix)
    (world.step event).folder.get? name = world.folder.get? name ∨
      (∃ job snapshot, snapshot.id.text = suffix ∧
        world.Returns event job snapshot .queued) ∨
      (world.step event).folder.get? name = none := by
  intro name
  have hmoved {place : Nat} {i : Fin n} {task : Task} {move : Folder × Session × Task}
      (hfound : world.jobs[place]? = some { session := i, task })
      (hmove : (world.sessions.get i).Move world.now world.folder task move)
      (hfolder : (world.step event).folder = move.1)
      (hjobs : (world.step event).jobs =
        world.jobs.set place { session := i, task := move.2.2 }) :
      (world.step event).folder.get? name = world.folder.get? name ∨
        (∃ job snapshot, snapshot.id.text = suffix ∧
          world.Returns event job snapshot .queued) ∨
        (world.step event).folder.get? name = none := by
    have htask := hplaced.tasks place _ hfound
    have hchange := hmove.change world.now (hplaced.bases i) htask
    rw [← hfolder] at hchange
    obtain hsame | ⟨snapshot, stamp, stage, rfl, howner, hsaved, -⟩ | hgone :=
      hchange.entry htask suffix
    · exact .inl hsame
    · refine .inr (.inl ⟨place, snapshot, howner, fun j hj => ?_, i, ?_⟩)
      · rw [hfound] at hj
        cases hj
      · have hlt : place < world.jobs.length :=
          (List.getElem?_eq_some_iff.mp hfound).choose
        rw [hjobs, List.getElem?_set_self hlt, hsaved]
    · exact .inr (.inr hgone)
  cases world.shift_step event with
  | quiet folder uploads documents serial jobs => exact .inl (by rw [folder])
  | launch folder uploads documents serial jobs fresh => exact .inl (by rw [folder])
  | answer found upload issued folder uploads documents serial jobs =>
      exact .inl (by rw [folder])
  | file found folder uploads documents serial jobs =>
      exact hmoved found (.file _) folder jobs
  | call found folder uploads documents serial jobs =>
      exact hmoved found (.call _) folder jobs

/-- A save that returns as queued has written its payload to its entry. -/
theorem IsPlaced.holds_of_returns (hplaced : world.IsPlaced base) {job : Nat}
    {snapshot : Snapshot} (hreturns : world.Returns event job snapshot .queued) :
    Holds (world.step event).folder (keyFor base snapshot.id.text)
      snapshot.payload := by
  obtain ⟨i, task, hfound, hne, hanswer | hmoved⟩ := hreturns.move
  · obtain ⟨stamp, result, -, hqueued⟩ := hanswer
    obtain hdone | ⟨-, houtcome⟩ := Session.afterUpload_eq_saved _ _ hqueued.symm
    · exact absurd hdone hne
    · cases houtcome
  · have hmove {move : Folder × Session × Task}
        (hmove : (world.sessions.get i).Move world.now world.folder task move)
        (hqueued : .saved snapshot .queued = move.2.2) :
        Holds move.1 (keyFor base snapshot.id.text) snapshot.payload :=
      (hmove.holds_of_queued world.now (hplaced.bases i) (hplaced.tasks job _ hfound)
        hqueued.symm).resolve_left hne
    obtain ⟨luck, rfl, hfolder, hqueued⟩ | ⟨chances, rfl, hfolder, hqueued⟩ := hmoved
    · rw [hfolder]
      exact hmove (.file luck) hqueued
    · rw [hfolder]
      exact hmove (.call chances) hqueued

end World

end Scorekeeper.Save
