import Scorekeeper.Proofs.Queue.Calls
import Scorekeeper.Save.World

/-!
# Moves of tasks and worlds

A world moves by events.  This file says once what an event can do to what the
sessions share, namely the folder, the uploads, the documents and the list of
jobs.  Laws about runs are proved from the cases given here.
-/

namespace Scorekeeper.Save

open Queue Remote Files

/-- Whether a task is one that has just begun. -/
def Task.isFresh : Task → Bool
  | .uploading _ | .listing | .counting => true
  | _ => false

/-- Whether a task is a pass that has not ended. -/
def Task.isPassing : Task → Bool
  | .listing | .reading _ _ _ | .resending _ _ _ _ | .dropping _ _ _ _ => true
  | _ => false

namespace Session

variable (session : Session) (now : Nat)

@[simp]
theorem base_settle : session.settle.base = session.base := rfl

@[simp]
theorem base_await : (session.await now).base = session.base := rfl

@[simp]
theorem base_endSave (snapshot : Snapshot) (outcome : Outcome) :
    (session.endSave now snapshot outcome).1.base = session.base := by
  cases outcome <;> rfl

@[simp]
theorem task_endSave (snapshot : Snapshot) (outcome : Outcome) :
    (session.endSave now snapshot outcome).2 = .saved snapshot outcome := by
  cases outcome <;> rfl

@[simp]
theorem base_endPass (report : Report) :
    (session.endPass now report).1.base = session.base := by
  rw [endPass]
  split <;> rfl

@[simp]
theorem task_endPass (report : Report) :
    (session.endPass now report).2 = .passed report := by
  rw [endPass]
  split <;> rfl

/-- A pass ends, or it goes on to an entry of the queue among the keys that are
left. -/
theorem nextEntry_cases (report : Report) (keys : List String) :
    session.nextEntry now report keys = session.endPass now report ∨
      ∃ suffix rest, keyFor session.base suffix ∈ keys ∧
        session.nextEntry now report keys =
          (session, .reading (keyFor session.base suffix) suffix ⟨rest, report⟩) := by
  induction keys with
  | nil => exact .inl rfl
  | cons key rest ih =>
      cases hsuffix : suffixOf session.base key with
      | some suffix =>
          obtain ⟨rfl, -⟩ := suffixOf_eq_some_iff.mp hsuffix
          refine .inr ⟨suffix, rest, by simp, ?_⟩
          simp [nextEntry, hsuffix]
      | none =>
          have hnext : session.nextEntry now report (key :: rest) =
              session.nextEntry now report rest := by
            simp [nextEntry, hsuffix]
          rw [hnext]
          rcases ih with hend | ⟨suffix, left, hmem, hnext⟩
          · exact .inl hend
          · exact .inr ⟨suffix, left, List.mem_cons_of_mem _ hmem, hnext⟩

@[simp]
theorem base_nextEntry (report : Report) (keys : List String) :
    (session.nextEntry now report keys).1.base = session.base := by
  rcases session.nextEntry_cases now report keys with hend | ⟨suffix, rest, -, hnext⟩
  · rw [hend, base_endPass]
  · rw [hnext]

theorem base_afterUpload (stamp : Stamp) (answer : Except StorageError Unit)
    (task : Task) :
    (session.afterUpload now stamp answer task).1.base = session.base := by
  unfold afterUpload
  split
  · rfl
  · split
    · next put _ =>
      cases put <;> simp [afterKeeping]
    · rfl
  · rfl
  · simp
  · rfl

/-- What a call of the file system, or a whole call of the queue, can make of a
session and its task.  `look` is the luck of the call when it only looks. -/
inductive Turn (session : Session) (now : Nat) (look : Luck) (folder : Folder) :
    Task → Session × Task → Prop where
  | still (task : Task) : Turn session now look folder task (session, task)
  | clear (snapshot : Snapshot) (stage next : Removal.Stage) :
      Turn session now look folder (.clearing snapshot stage)
        (session, .clearing snapshot next)
  | cleared (snapshot : Snapshot) (stage : Removal.Stage) :
      Turn session now look folder (.clearing snapshot stage)
        (session.settle, .saved snapshot .saved)
  | keep (snapshot : Snapshot) (stamp : Stamp) (stage next : Put.Stage) :
      Turn session now look folder (.keeping snapshot stamp stage)
        (session, .keeping snapshot stamp next)
  | kept (snapshot : Snapshot) (stamp : Stamp) (stage : Put.Stage) :
      Turn session now look folder (.keeping snapshot stamp stage)
        (session.await now, .saved snapshot .queued)
  | lost (snapshot : Snapshot) (stamp : Stamp) (stage : Put.Stage) :
      Turn session now look folder (.keeping snapshot stamp stage)
        (session.settle, .saved snapshot .notQueued)
  | resend (key suffix payload : String) (pass : Pass)
      (read : get look key folder = .ok (some payload)) :
      Turn session now look folder (.reading key suffix pass)
        (session, .resending key suffix payload pass)
  | drop (key payload : String) (pass : Pass) (stage next : Removal.Stage) :
      Turn session now look folder (.dropping key payload pass stage)
        (session, .dropping key payload pass next)
  | entry {task : Task} (passing : task.isPassing = true) (suffix : String)
      (pass : Pass) :
      Turn session now look folder task
        (session, .reading (keyFor session.base suffix) suffix pass)
  | ended {task : Task} (passing : task.isPassing = true) (report : Report) :
      Turn session now look folder task (session.endPass now report)
  | counted (answer : Except QueueError Nat) :
      Turn session now look folder .counting (session.afterCounting now answer)

theorem turn_nextEntry (look : Luck) (folder : Folder) {task : Task}
    (hpassing : task.isPassing = true) (report : Report) (keys : List String) :
    session.Turn now look folder task (session.nextEntry now report keys) := by
  obtain hend | ⟨suffix, rest, -, hnext⟩ := session.nextEntry_cases now report keys
  · rw [hend]
    exact .ended hpassing report
  · rw [hnext]
    exact .entry hpassing suffix _

theorem turn_afterKeeping (look : Luck) (folder : Folder) (snapshot : Snapshot)
    (stamp : Stamp) (stage : Put.Stage) (answer : Except QueueError String) :
    session.Turn now look folder (.keeping snapshot stamp stage)
      (session.afterKeeping now snapshot answer) := by
  cases answer with
  | ok key => exact .kept snapshot stamp stage
  | error error => exact .lost snapshot stamp stage

theorem turn_fileStep (luck : Luck) (folder : Folder) (task : Task) :
    session.Turn now luck folder task (session.fileStep now luck folder task).2 := by
  cases task with
  | clearing snapshot stage =>
      simp only [fileStep]
      split
      · exact .cleared snapshot stage
      · exact .clear snapshot stage _
  | keeping snapshot stamp stage =>
      simp only [fileStep]
      split
      · exact session.turn_afterKeeping now _ _ _ _ _ _
      · exact .keep snapshot stamp stage _
  | listing =>
      simp only [fileStep, afterListing]
      split
      · exact session.turn_nextEntry now _ _ rfl _ _
      · exact .ended rfl _
  | reading key suffix pass =>
      simp only [fileStep, afterReading]
      split
      · next hread => exact .resend key suffix _ pass hread
      · exact session.turn_nextEntry now _ _ rfl _ _
      · exact session.turn_nextEntry now _ _ rfl _ _
  | dropping key payload pass stage =>
      simp only [fileStep]
      split
      · exact session.turn_nextEntry now _ _ rfl _ _
      · exact .drop key payload pass stage _
  | counting => exact .counted _
  | _ => exact .still _

theorem turn_callStep (chances : Chances) (folder : Folder) (task : Task) :
    session.Turn now chances.look folder task
      (session.callStep now chances folder task).2 := by
  cases task with
  | clearing snapshot stage =>
      cases stage with
      | comparing => exact .cleared snapshot .comparing
      | _ => exact .still _
  | keeping snapshot stamp stage =>
      cases stage with
      | making => exact session.turn_afterKeeping now _ _ _ _ _ _
      | _ => exact .still _
  | dropping key payload pass stage =>
      cases stage with
      | comparing => exact session.turn_nextEntry now _ _ rfl _ _
      | _ => exact .still _
  | listing => exact session.turn_fileStep now chances.look folder .listing
  | reading key suffix pass =>
      exact session.turn_fileStep now chances.look folder (.reading key suffix pass)
  | counting => exact session.turn_fileStep now chances.look folder .counting
  | _ => exact .still _

/-- Clearing an entry ends the save well, whatever comes of it. -/
theorem task_callStep_clearing (chances : Chances) (folder : Folder) (snapshot : Snapshot) :
    (session.callStep now chances folder (.clearing snapshot .comparing)).2.2 =
      .saved snapshot .saved := rfl

theorem Turn.base {look : Luck} {folder : Folder} {task : Task}
    {move : Session × Task} (hturn : session.Turn now look folder task move) :
    move.1.base = session.base := by
  cases hturn with
  | kept snapshot stamp stage => exact session.base_await now
  | ended passing report => exact session.base_endPass now report
  | counted answer =>
      cases answer with
      | ok found => cases found <;> rfl
      | error error => rfl
  | _ => rfl

/-- A save whose payload is to be kept ends in one call: the payload stands in its
entry and the timer is armed, or no entry has changed. -/
theorem callStep_keeping_cases {base : String} {snapshot : Snapshot}
    (hbase : session.base = base) (chances : Chances) (folder : Folder) (stamp : Stamp) :
    let key := keyFor base snapshot.id.text
    let after := session.callStep now chances folder (.keeping snapshot stamp .making)
    (after.2 = (session.await now, .saved snapshot .queued) ∧
        Holds after.1 key snapshot.payload ∧
        ∀ name, name ≠ entryName key → name ≠ temporaryName key stamp →
          after.1.get? name = folder.get? name) ∨
      after.2 = (session.settle, .saved snapshot .notQueued) ∧
        ∀ name, name ≠ temporaryName key stamp →
          after.1.get? name = folder.get? name := by
  intro key after
  subst hbase
  have hmove : after.2 = session.afterKeeping now snapshot
      ((session.putOf snapshot stamp).run chances.put folder).1 := rfl
  rcases (session.putOf snapshot stamp).run_cases chances.put folder with
    ⟨hok, hholds, hothers⟩ | ⟨error, herror, hothers⟩
  · refine .inl ⟨?_, hholds, hothers⟩
    rw [hmove, hok]
    rfl
  · refine .inr ⟨?_, hothers⟩
    rw [hmove, herror]
    rfl

/-- An entry that a removal was for is gone only if it held the payload that the
removal looked for; no other entry changes. -/
theorem entry_removal_cases {base owner : String} {removal : Removal}
    (hkey : removal.key = keyFor base owner) (chances : Removal.Chances)
    (folder : Folder) (suffix : String) :
    let name := entryName (keyFor base suffix)
    (removal.run chances folder).2.get? name = folder.get? name ∨
      suffix = owner ∧ Holds folder (keyFor base owner) removal.payload ∧
        (removal.run chances folder).2.get? name = none := by
  intro name
  rcases removal.run_cases chances folder with ⟨-, hkept⟩ | ⟨-, hholds, hget⟩
  · rw [hkept]
    exact .inl rfl
  · rw [hkey] at hholds hget
    by_cases howner : suffix = owner
    · subst howner
      exact .inr ⟨rfl, hholds, (hget name).trans (if_pos rfl)⟩
    · have hne : name ≠ entryName (keyFor base owner) := fun heq =>
        howner (keyFor_injective (entryName_injective heq))
      exact .inl ((hget name).trans (if_neg hne))

/-- After a failed upload a save turns to the queue, unless its key is one that the
queue refuses. -/
theorem afterUpload_error_cases (stamp : Stamp) (error : StorageError)
    (snapshot : Snapshot) :
    (isSafeKey (keyFor session.base snapshot.id.text).toList = true ∧
        session.afterUpload now stamp (.error error) (.uploading snapshot) =
          (session, .keeping snapshot stamp .making)) ∨
      session.afterUpload now stamp (.error error) (.uploading snapshot) =
        (session.settle, .saved snapshot .notQueued) := by
  by_cases hsafe : isSafeKey (keyFor session.base snapshot.id.text).toList = true
  · have hinit : (session.putOf snapshot stamp).init = .making := if_pos hsafe
    refine .inl ⟨hsafe, ?_⟩
    rw [afterUpload]
    simp only [hinit]
  · have hinit : (session.putOf snapshot stamp).init =
        .done (.error (.invalidKey (session.entryOf snapshot))) := if_neg hsafe
    right
    rw [afterUpload]
    simp only [hinit]
    rfl

theorem task_nextEntry_ne_saved (report : Report) (keys : List String)
    (snapshot : Snapshot) (outcome : Outcome) :
    (session.nextEntry now report keys).2 ≠ .saved snapshot outcome := by
  rcases session.nextEntry_cases now report keys with hend | ⟨suffix, rest, -, hnext⟩
  · rw [hend, task_endPass]
    exact nofun
  · rw [hnext]
    exact nofun

/-- An answer of the store ends a save only if the upload failed and its payload
has no place in the queue. -/
theorem afterUpload_eq_saved {task : Task} {stamp : Stamp}
    {answer : Except StorageError Unit} {snapshot : Snapshot} {outcome : Outcome}
    (hsaved : (session.afterUpload now stamp answer task).2 = .saved snapshot outcome) :
    task = .saved snapshot outcome ∨
      task = .uploading snapshot ∧ outcome = .notQueued := by
  cases task with
  | uploading other =>
      cases answer with
      | ok _ => cases hsaved
      | error error =>
          rcases session.afterUpload_error_cases now stamp error other with
            ⟨-, hkeeping⟩ | hlost
          · rw [hkeeping] at hsaved
            cases hsaved
          · rw [hlost] at hsaved
            cases hsaved
            exact .inr ⟨rfl, rfl⟩
  | resending key suffix payload pass =>
      cases answer with
      | ok _ => cases hsaved
      | error error =>
          exact absurd hsaved (session.task_nextEntry_ne_saved now _ _ snapshot outcome)
  | _ => exact .inl hsaved

/-- A call of the queue ends a save by clearing an entry or by keeping the
payload. -/
theorem callStep_eq_saved {task : Task} {chances : Chances} {folder : Folder}
    {snapshot : Snapshot} {outcome : Outcome}
    (hsaved : (session.callStep now chances folder task).2.2 =
      .saved snapshot outcome) :
    task = .saved snapshot outcome ∨
      (task = .clearing snapshot .comparing ∧ outcome = .saved) ∨
      ∃ stamp, task = .keeping snapshot stamp .making := by
  unfold callStep at hsaved
  split at hsaved
  · cases hsaved
    exact .inr (.inl ⟨rfl, rfl⟩)
  · simp only [afterKeeping] at hsaved
    split at hsaved
    all_goals
      cases hsaved
      exact .inr (.inr ⟨_, rfl⟩)
  · simp only [fileStep, afterListing] at hsaved
    split at hsaved
    · exact absurd hsaved (session.task_nextEntry_ne_saved now _ _ snapshot outcome)
    · cases hsaved
  · simp only [fileStep, afterReading] at hsaved
    split at hsaved
    · cases hsaved
    · exact absurd hsaved (session.task_nextEntry_ne_saved now _ _ snapshot outcome)
    · exact absurd hsaved (session.task_nextEntry_ne_saved now _ _ snapshot outcome)
  · exact absurd hsaved (session.task_nextEntry_ne_saved now _ _ snapshot outcome)
  · simp only [fileStep, afterCounting] at hsaved
    split at hsaved <;> cases hsaved
  · exact .inl hsaved

end Session

namespace Event

variable {n : Nat}

/-- Whether an event leaves every call of the queue whole. -/
def isWhole : Event n → Bool
  | .file _ _ => false
  | _ => true

end Event

namespace World

variable {n : Nat}

/-- What an event does to the parts of a world that the sessions share. -/
inductive Shift (world : World n) : Event n → World n → Prop where
  /-- Nothing but the sessions and the clock. -/
  | quiet {event : Event n} {after : World n}
      (folder : after.folder = world.folder)
      (uploads : after.uploads = world.uploads)
      (documents : after.documents = world.documents)
      (serial : after.serial = world.serial)
      (jobs : after.jobs = world.jobs) : Shift world event after
  /-- A task begins. -/
  | launch {event : Event n} {after : World n} {i : Fin n} {task : Task}
      (folder : after.folder = world.folder)
      (uploads : after.uploads = world.uploads)
      (documents : after.documents = world.documents)
      (serial : after.serial = world.serial)
      (jobs : after.jobs = world.jobs ++ [{ session := i, task }])
      (fresh : task.isFresh = true) :
      Shift world event after
  /-- The store answers a job. -/
  | answer {job : Nat} {i : Fin n} {task : Task} {result : Except StorageError Unit}
      {after : World n} {key : DocumentKey} {payload : String} {stamp : Stamp}
      (found : world.jobs[job]? = some { session := i, task })
      (upload : task.upload? = some (key, payload))
      (issued : stamp.serial = world.serial)
      (folder : after.folder = world.folder)
      (uploads : after.uploads =
        world.uploads ++ [{ path := key.path, payload, accepted := result.isOk }])
      (documents : after.documents =
        if result.isOk then putDocument key.path payload world.documents
        else world.documents)
      (serial : after.serial = world.serial + 1)
      (jobs : after.jobs = world.jobs.set job
        { session := i
          task := ((world.sessions.get i).afterUpload world.now stamp result task).2 }) :
      Shift world (.answer job result) after
  /-- A job makes a call of the file system. -/
  | file {job : Nat} {i : Fin n} {task : Task} {luck : Luck} {after : World n}
      (found : world.jobs[job]? = some { session := i, task })
      (folder : after.folder =
        ((world.sessions.get i).fileStep world.now luck world.folder task).1)
      (uploads : after.uploads = world.uploads)
      (documents : after.documents = world.documents)
      (serial : after.serial = world.serial)
      (jobs : after.jobs = world.jobs.set job
        { session := i
          task := ((world.sessions.get i).fileStep world.now luck world.folder task).2.2 }) :
      Shift world (.file job luck) after
  /-- A job makes a call of the queue. -/
  | call {job : Nat} {i : Fin n} {task : Task} {chances : Session.Chances}
      {after : World n}
      (found : world.jobs[job]? = some { session := i, task })
      (folder : after.folder =
        ((world.sessions.get i).callStep world.now chances world.folder task).1)
      (uploads : after.uploads = world.uploads)
      (documents : after.documents = world.documents)
      (serial : after.serial = world.serial)
      (jobs : after.jobs = world.jobs.set job
        { session := i
          task := ((world.sessions.get i).callStep world.now chances world.folder task).2.2 }) :
      Shift world (.call job chances) after

theorem shift_step (world : World n) (event : Event n) :
    world.Shift event (world.step event) := by
  cases event with
  | save i snapshot => exact .launch rfl rfl rfl rfl rfl rfl
  | retry i => exact .launch rfl rfl rfl rfl rfl rfl
  | resume i => exact .launch rfl rfl rfl rfl rfl rfl
  | schedule i => exact .quiet rfl rfl rfl rfl rfl
  | cancel i => exact .quiet rfl rfl rfl rfl rfl
  | expire i generation =>
      simp only [step]
      split
      · exact .launch rfl rfl rfl rfl rfl rfl
      · exact .quiet rfl rfl rfl rfl rfl
  | answer job result =>
      simp only [step, World.answer]
      split
      · exact .quiet rfl rfl rfl rfl rfl
      · next i task hfound =>
        split
        · exact .quiet rfl rfl rfl rfl rfl
        · next key payload hupload => exact .answer hfound hupload rfl rfl rfl rfl rfl rfl
  | file job luck =>
      simp only [step]
      split
      · exact .quiet rfl rfl rfl rfl rfl
      · next i task hfound => exact .file hfound rfl rfl rfl rfl rfl
  | call job chances =>
      simp only [step]
      split
      · exact .quiet rfl rfl rfl rfl rfl
      · next i task hfound => exact .call hfound rfl rfl rfl rfl rfl
  | wait duration => exact .quiet rfl rfl rfl rfl rfl

/-- A task that was not there before an event has just begun, or it comes from a move
of its job. -/
theorem task_step_cases {world : World n} {event : Event n} {job : Nat} {i : Fin n}
    {next : Task} (hafter : (world.step event).jobs[job]? = some { session := i, task := next })
    (hbefore : world.jobs[job]? ≠ some { session := i, task := next }) :
    next.isFresh = true ∨ ∃ task,
      world.jobs[job]? = some { session := i, task } ∧
      ((∃ stamp result, event = .answer job result ∧
          next = ((world.sessions.get i).afterUpload world.now stamp result task).2) ∨
        (∃ luck, event = .file job luck ∧
          let move := (world.sessions.get i).fileStep world.now luck world.folder task
          (world.step event).folder = move.1 ∧ next = move.2.2) ∨
        ∃ chances, event = .call job chances ∧
          let move := (world.sessions.get i).callStep world.now chances world.folder task
          (world.step event).folder = move.1 ∧ next = move.2.2) := by
  have hset {place : Nat} {j : Fin n} {task other : Task}
      (hfound : world.jobs[place]? = some { session := j, task })
      (hjobs : (world.step event).jobs =
        world.jobs.set place { session := j, task := other }) :
      place = job ∧ j = i ∧ other = next := by
    rw [hjobs, List.getElem?_set] at hafter
    split at hafter
    · next hjob =>
      split at hafter
      · simp only [Option.some.injEq, Job.mk.injEq] at hafter
        exact ⟨hjob, hafter⟩
      · cases hafter
    · exact absurd hafter hbefore
  cases world.shift_step event with
  | quiet folder uploads documents serial jobs =>
      rw [jobs] at hafter
      exact absurd hafter hbefore
  | launch folder uploads documents serial jobs fresh =>
      rw [jobs, List.getElem?_append] at hafter
      split at hafter
      · exact absurd hafter hbefore
      · cases List.mem_singleton.mp (List.mem_of_getElem? hafter)
        exact .inl fresh
  | answer found upload issued folder uploads documents serial jobs =>
      obtain ⟨rfl, rfl, rfl⟩ := hset found jobs
      exact .inr ⟨_, found, .inl ⟨_, _, rfl, rfl⟩⟩
  | file found folder uploads documents serial jobs =>
      obtain ⟨rfl, rfl, rfl⟩ := hset found jobs
      exact .inr ⟨_, found, .inr (.inl ⟨_, rfl, folder, rfl⟩)⟩
  | call found folder uploads documents serial jobs =>
      obtain ⟨rfl, rfl, rfl⟩ := hset found jobs
      exact .inr ⟨_, found, .inr (.inr ⟨_, rfl, folder, rfl⟩)⟩

/-- The event is the one at which the save of a job returns. -/
def Returns (world : World n) (event : Event n) (job : Nat) (snapshot : Snapshot)
    (outcome : Outcome) : Prop :=
  (∀ i, world.jobs[job]? ≠ some { session := i, task := .saved snapshot outcome }) ∧
    ∃ i, (world.step event).jobs[job]? =
      some { session := i, task := .saved snapshot outcome }

/-- The step at which a save returns is one of its own job. -/
theorem Returns.move {world : World n} {event : Event n} {job : Nat}
    {snapshot : Snapshot} {outcome : Outcome}
    (hreturns : world.Returns event job snapshot outcome) :
    ∃ i task, world.jobs[job]? = some { session := i, task } ∧
      task ≠ .saved snapshot outcome ∧
      ((∃ stamp result, event = .answer job result ∧
          .saved snapshot outcome =
            ((world.sessions.get i).afterUpload world.now stamp result task).2) ∨
        (∃ luck, event = .file job luck ∧
          let move := (world.sessions.get i).fileStep world.now luck world.folder task
          (world.step event).folder = move.1 ∧ .saved snapshot outcome = move.2.2) ∨
        ∃ chances, event = .call job chances ∧
          let move := (world.sessions.get i).callStep world.now chances world.folder task
          (world.step event).folder = move.1 ∧ .saved snapshot outcome = move.2.2) := by
  obtain ⟨hbefore, i, hafter⟩ := hreturns
  obtain hfresh | ⟨task, hfound, hmove⟩ := task_step_cases hafter (hbefore i)
  · cases hfresh
  · refine ⟨i, task, hfound, ?_, hmove⟩
    rintro rfl
    exact hbefore i hfound

/-- When the calls of the queue are whole, a save returns when its payload has no
place in the queue, when its entry has been cleared, or when the queue has answered
whether it keeps the payload. -/
theorem Returns.cases {world : World n} {event : Event n} {job : Nat}
    {snapshot : Snapshot} {outcome : Outcome} (hwhole : event.isWhole = true)
    (hreturns : world.Returns event job snapshot outcome) :
    ∃ i : Fin n,
      (outcome = .notQueued ∧ ∃ result, event = .answer job result ∧
        world.jobs[job]? = some { session := i, task := .uploading snapshot }) ∨
      (outcome = .saved ∧ ∃ chances, event = .call job chances ∧
        world.jobs[job]? =
          some { session := i, task := .clearing snapshot .comparing }) ∨
      ∃ chances stamp, event = .call job chances ∧
        world.jobs[job]? =
          some { session := i, task := .keeping snapshot stamp .making } ∧
        ((world.sessions.get i).callStep world.now chances world.folder
          (.keeping snapshot stamp .making)).2.2 = .saved snapshot outcome := by
  obtain ⟨i, task, hfound, hne, ⟨stamp, result, rfl, hsaved⟩ | ⟨luck, rfl, -⟩ |
    ⟨chances, rfl, -, hsaved⟩⟩ := hreturns.move
  · obtain rfl | ⟨rfl, houtcome⟩ := Session.afterUpload_eq_saved _ _ hsaved.symm
    · exact absurd rfl hne
    · exact ⟨i, .inl ⟨houtcome, result, rfl, hfound⟩⟩
  · cases hwhole
  · obtain rfl | ⟨rfl, houtcome⟩ | ⟨stamp, rfl⟩ := Session.callStep_eq_saved _ _ hsaved.symm
    · exact absurd rfl hne
    · exact ⟨i, .inr (.inl ⟨houtcome, chances, rfl, hfound⟩)⟩
    · exact ⟨i, .inr (.inr ⟨chances, stamp, rfl, hfound, hsaved.symm⟩)⟩

@[simp]
theorem get_setSession_self (world : World n) (i : Fin n) (session : Session) :
    (world.setSession i session).sessions.get i = session :=
  Vector.getElem_set_self i.isLt

theorem get_setSession_of_ne (world : World n) {i j : Fin n} (session : Session)
    (hne : i ≠ j) :
    (world.setSession i session).sessions.get j = world.sessions.get j := by
  have hval : i.val ≠ j.val := fun heq => hne (Fin.ext heq)
  exact Vector.getElem_set_ne i.isLt j.isLt hval

/-- All sessions keep their entries under keys with the same base. -/
def HasBase (base : String) (world : World n) : Prop :=
  ∀ i : Fin n, (world.sessions.get i).base = base

variable {base : String} {world : World n}

theorem HasBase.setSession (hbase : world.HasBase base) {i : Fin n} {session : Session}
    (hsession : session.base = (world.sessions.get i).base) :
    (world.setSession i session).HasBase base := by
  intro j
  by_cases hij : i = j
  · subst hij
    rw [get_setSession_self]
    exact hsession.trans (hbase i)
  · rw [get_setSession_of_ne world session hij]
    exact hbase j

theorem HasBase.step (hbase : world.HasBase base) (event : Event n) :
    (world.step event).HasBase base := by
  cases event with
  | save i snapshot => exact hbase.setSession rfl
  | retry i => exact hbase.setSession rfl
  | resume i => exact hbase.setSession rfl
  | schedule i => exact hbase.setSession rfl
  | cancel i => exact hbase.setSession rfl
  | expire i generation =>
      simp only [World.step]
      split
      · exact hbase.setSession rfl
      · exact hbase.setSession rfl
  | answer job result =>
      simp only [World.step, World.answer]
      split
      · exact hbase
      · next i task _ =>
        split
        · exact hbase
        · exact hbase.setSession
            ((world.sessions.get i).base_afterUpload world.now _ result task)
  | file job luck =>
      simp only [World.step]
      split
      · exact hbase
      · next i task _ =>
        exact hbase.setSession
          ((world.sessions.get i).turn_fileStep world.now luck world.folder task).base
  | call job chances =>
      simp only [World.step]
      split
      · exact hbase
      · next i task _ =>
        exact hbase.setSession
          ((world.sessions.get i).turn_callStep world.now chances world.folder task).base
  | wait duration => exact hbase

@[simp]
theorem run_nil (world : World n) : world.run [] = world := rfl

@[simp]
theorem run_cons (world : World n) (event : Event n) (events : List (Event n)) :
    world.run (event :: events) = (world.step event).run events := rfl

theorem run_append (world : World n) (before after : List (Event n)) :
    world.run (before ++ after) = (world.run before).run after :=
  List.foldl_append

end World

end Scorekeeper.Save
