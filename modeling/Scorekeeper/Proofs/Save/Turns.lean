import Scorekeeper.Proofs.Save.Retention

/-!
# Tasks in turn

One session has its folder to itself, and its saves, passes and resumptions come one
after another.  Then at most one task is under way, and a world is described by its
session, its folder, its documents and that task.  This file says what each event does
to the four of them.
-/

namespace Scorekeeper.Save

open Queue Remote Files

/-- A timer that expires and starts nothing leaves the slot as it was. -/
theorem Alarm.slot_of_expire {alarm after : Alarm} {generation : UInt64}
    (hexpire : alarm.expire generation = (false, after)) : after.slot = alarm.slot := by
  rw [expire] at hexpire
  split at hexpire
  · cases hexpire
    rfl
  · dsimp only at hexpire
    split at hexpire
    · cases hexpire
    · cases hexpire
      rfl

namespace World

variable {n : Nat}

/-- No task is under way. -/
def IsIdle (world : World n) : Prop :=
  ∀ job ∈ world.jobs, job.task.isFinished = true

/-- Which events may come next when tasks come in turn.  Each call of the queue is
taken as a whole, and nobody sets or clears the timer by hand. -/
def Admits (world : World n) : Event n → Prop
  | .save _ _ => world.IsIdle
  | .retry _ => world.IsIdle
  | .resume _ => world.IsIdle
  | .expire _ _ => world.IsIdle
  | .answer _ _ => True
  | .call _ _ => True
  | .wait _ => True
  | .schedule _ => False
  | .cancel _ => False
  | .file _ _ => False

/-- A run in which no task begins before all others have ended. -/
def InTurn : World n → List (Event n) → Prop
  | _, [] => True
  | world, event :: events => world.Admits event ∧ InTurn (world.step event) events

theorem isWhole_of_admits {world : World n} {event : Event n}
    (hadmits : world.Admits event) : event.isWhole = true := by
  cases event with
  | file job luck => cases hadmits
  | _ => rfl

theorem inTurn_append_iff {world : World n} {before after : List (Event n)} :
    world.InTurn (before ++ after) ↔
      world.InTurn before ∧ (world.run before).InTurn after := by
  induction before generalizing world with
  | nil => simp [InTurn]
  | cons event before ih => simp only [List.cons_append, InTurn, run_cons, ih, and_assoc]

/-! ## One session -/

/-- A session at its beginning, which has its folder to itself. -/
def alone (base : String) (interval : Nat) (process : UInt32) (folder : Folder) : World 1 :=
  .new folder #v[.new base interval process]

variable (world : World 1)

def session : Session :=
  world.sessions.get sole

/-- The task that is under way, or the one that ended last.  Before the first task it
is as if a pass had ended. -/
def current : Task :=
  (world.jobs.getLast?.map (·.task)).getD (.passed .zero)

/-- Only the last task can be under way. -/
def IsOrderly : Prop :=
  ∀ place job, world.jobs[place]? = some job → place + 1 < world.jobs.length →
    job.task.isFinished = true

variable {world : World 1}

theorem current_of_last {place : Nat} {job : Job 1} (hfound : world.jobs[place]? = some job)
    (hlast : place + 1 = world.jobs.length) : world.current = job.task := by
  rw [current]
  rw [List.getLast?_eq_getElem?, ← hlast, Nat.add_sub_cancel, hfound]
  rfl

theorem current_of_append {after : World 1} {task : Task} {i : Fin 1}
    (hjobs : after.jobs = world.jobs ++ [{ session := i, task }]) :
    after.current = task := by
  rw [current]
  rw [hjobs, List.getLast?_append]
  rfl

theorem current_of_jobs {after : World 1} (hjobs : after.jobs = world.jobs) :
    after.current = world.current := by
  unfold current
  rw [hjobs]

/-- A job that is under way is the last one. -/
theorem IsOrderly.last (horderly : world.IsOrderly) {place : Nat} {job : Job 1}
    (hfound : world.jobs[place]? = some job) (hrunning : job.task.isFinished = false) :
    place + 1 = world.jobs.length := by
  have hlt : place < world.jobs.length := (List.getElem?_eq_some_iff.mp hfound).choose
  by_cases hearlier : place + 1 < world.jobs.length
  · rw [horderly place job hfound hearlier] at hrunning
    cases hrunning
  · omega

theorem IsOrderly.isIdle_iff (horderly : world.IsOrderly) :
    world.IsIdle ↔ world.current.isFinished = true := by
  constructor
  · intro hidle
    rw [current]
    cases hlast : world.jobs.getLast? with
    | none => rfl
    | some job => exact hidle job (List.mem_of_getLast? hlast)
  · intro hcurrent job hmem
    obtain ⟨place, hfound⟩ := List.getElem?_of_mem hmem
    by_cases hrunning : job.task.isFinished = true
    · exact hrunning
    · have hlast := horderly.last hfound (Bool.eq_false_iff.mpr hrunning)
      rw [current_of_last hfound hlast] at hcurrent
      exact hcurrent

theorem IsOrderly.of_append {after : World 1} {new : Job 1} (hidle : world.IsIdle)
    (hjobs : after.jobs = world.jobs ++ [new]) : after.IsOrderly := by
  intro place job hfound hearlier
  rw [hjobs, List.length_append, List.length_singleton] at hearlier
  have hlt : place < world.jobs.length := by omega
  rw [hjobs, List.getElem?_append_left hlt] at hfound
  exact hidle job (List.mem_of_getElem? hfound)

variable {after : World 1} {place : Nat} {i : Fin 1} {next : Task}

theorem IsOrderly.of_set (horderly : world.IsOrderly)
    (hlast : place + 1 = world.jobs.length)
    (hjobs : after.jobs = world.jobs.set place { session := i, task := next }) :
    after.IsOrderly := by
  intro other job hfound hearlier
  rw [hjobs, List.length_set] at hearlier
  have hne : place ≠ other := by omega
  rw [hjobs, List.getElem?_set_ne hne] at hfound
  exact horderly other job hfound hearlier

theorem current_of_set (hlast : place + 1 = world.jobs.length)
    (hjobs : after.jobs = world.jobs.set place { session := i, task := next }) :
    after.current = next := by
  have hlt : place < world.jobs.length := by omega
  have hnew : after.jobs[place]? = some { session := i, task := next } := by
    rw [hjobs, List.getElem?_set_self hlt]
  have hlength : place + 1 = after.jobs.length := by
    rw [hjobs, List.length_set]
    exact hlast
  exact current_of_last hnew hlength

/-- What an event does when tasks come in turn. -/
inductive Stride (world : World 1) : Event 1 → World 1 → Prop where
  /-- Nothing but time goes by, or a timer expires that is no longer armed. -/
  | quiet {event : Event 1} {after : World 1}
      (folder : after.folder = world.folder)
      (documents : after.documents = world.documents)
      (status : after.session.status = world.session.status)
      (armed : after.session.isArmed = world.session.isArmed)
      (current : after.current = world.current) : Stride world event after
  | save {i : Fin 1} {snapshot : Snapshot} {after : World 1}
      (ended : world.current.isFinished = true)
      (folder : after.folder = world.folder)
      (documents : after.documents = world.documents)
      (session : after.session = (world.session.beginSave snapshot).1)
      (current : after.current = .uploading snapshot) :
      Stride world (.save i snapshot) after
  | pass {event : Event 1} {after : World 1}
      (ended : world.current.isFinished = true)
      (folder : after.folder = world.folder)
      (documents : after.documents = world.documents)
      (current : after.current = .listing) : Stride world event after
  | resume {i : Fin 1} {after : World 1}
      (ended : world.current.isFinished = true)
      (folder : after.folder = world.folder)
      (documents : after.documents = world.documents)
      (session : after.session = world.session)
      (current : after.current = .counting) : Stride world (.resume i) after
  | answer {job : Nat} {result : Except StorageError Unit} {stamp : Stamp}
      {key : DocumentKey} {payload : String} {after : World 1}
      (upload : world.current.upload? = some (key, payload))
      (folder : after.folder = world.folder)
      (documents : after.documents =
        if result.isOk then putDocument key.path payload world.documents
        else world.documents)
      (session : after.session =
        (world.session.afterUpload world.now stamp result world.current).1)
      (current : after.current =
        (world.session.afterUpload world.now stamp result world.current).2) :
      Stride world (.answer job result) after
  | call {job : Nat} {chances : Session.Chances} {after : World 1}
      (running : world.current.isFinished = false)
      (folder : after.folder =
        (world.session.callStep world.now chances world.folder world.current).1)
      (documents : after.documents = world.documents)
      (session : after.session =
        (world.session.callStep world.now chances world.folder world.current).2.1)
      (current : after.current =
        (world.session.callStep world.now chances world.folder world.current).2.2) :
      Stride world (.call job chances) after

theorem session_of_set (i : Fin 1) (session : Session) :
    (world.setSession i session).session = session := by
  obtain rfl : i = sole := Subsingleton.elim i sole
  exact get_setSession_self world sole session

theorem sessions_eq_session (i : Fin 1) : world.sessions.get i = world.session := by
  obtain rfl : i = sole := Subsingleton.elim i sole
  rfl

theorem isFinished_of_upload? {task : Task} {upload : DocumentKey × String}
    (hupload : task.upload? = some upload) : task.isFinished = false := by
  cases task <;> first | rfl | cases hupload

theorem callStep_of_isFinished {session : Session} {now : Nat}
    {chances : Session.Chances} {folder : Folder} {task : Task}
    (hended : task.isFinished = true) :
    session.callStep now chances folder task = (folder, session, task) := by
  cases task <;> first | rfl | cases hended

/-- A move that changes nothing leaves the world as it was. -/
theorem proceed_self {world : World n} {place : Nat} {i : Fin n} {task : Task}
    (hfound : world.jobs[place]? = some { session := i, task }) :
    world.proceed place i (world.folder, world.sessions.get i, task) = world := by
  obtain ⟨hlt, hjob⟩ := List.getElem?_eq_some_iff.mp hfound
  have hjobs : world.jobs.set place { session := i, task } = world.jobs := by
    rw [← hjob]
    exact List.set_getElem_self hlt
  have hsessions : world.sessions.set i (world.sessions.get i) = world.sessions :=
    Vector.set_getElem_self i.isLt
  simp only [proceed, setSession, hjobs, hsessions]

theorem step_call {place : Nat} {job : Job n} {world : World n}
    (hfound : world.jobs[place]? = some job) (chances : Session.Chances) :
    world.step (.call place chances) =
      world.proceed place job.session ((world.sessions.get job.session).callStep world.now chances
        world.folder job.task) := by
  simp only [step]
  rw [hfound]

theorem stride_expire (horderly : world.IsOrderly) (hidle : world.IsIdle) (i : Fin 1)
    (generation : UInt64) :
    world.Stride (.expire i generation) (world.step (.expire i generation)) ∧
      (world.step (.expire i generation)).IsOrderly := by
  have hsession : world.sessions.get i = world.session := sessions_eq_session i
  simp only [step]
  split
  · exact ⟨.pass (horderly.isIdle_iff.mp hidle) rfl rfl (current_of_append rfl),
      .of_append hidle rfl⟩
  · next alarm hexpire =>
    refine ⟨.quiet rfl rfl ?_ ?_ (current_of_jobs rfl), horderly⟩
    · rw [session_of_set, ← hsession]
    · rw [session_of_set, ← hsession]
      exact congrArg Option.isSome (Alarm.slot_of_expire hexpire)

/-- An answer reaches the task under way, or nothing waits for it. -/
theorem stride_answer (horderly : world.IsOrderly) (place : Nat)
    (result : Except StorageError Unit) :
    world.Stride (.answer place result) (world.step (.answer place result)) ∧
      (world.step (.answer place result)).IsOrderly := by
  simp only [step, World.answer]
  split
  · exact ⟨.quiet rfl rfl rfl rfl rfl, horderly⟩
  · next i task hfound =>
    have hsession : world.sessions.get i = world.session := sessions_eq_session i
    split
    · exact ⟨.quiet rfl rfl rfl rfl rfl, horderly⟩
    · next key payload hupload =>
      have hlast := horderly.last hfound (isFinished_of_upload? hupload)
      have hcurrent : world.current = task := current_of_last hfound hlast
      constructor
      · rw [← hcurrent] at hupload
        apply Stride.answer hupload
        · rfl
        · rfl
        · rw [hcurrent, ← hsession]
          exact session_of_set i _
        · rw [hcurrent, ← hsession]
          apply current_of_set hlast
          rfl
      · apply horderly.of_set hlast
        rfl

/-- A call moves the task under way; a task that has ended stays as it is. -/
theorem stride_call (horderly : world.IsOrderly) (place : Nat)
    (chances : Session.Chances) :
    world.Stride (.call place chances) (world.step (.call place chances)) ∧
      (world.step (.call place chances)).IsOrderly := by
  simp only [step]
  split
  · exact ⟨.quiet rfl rfl rfl rfl rfl, horderly⟩
  · next i task hfound =>
    by_cases hended : task.isFinished = true
    · rw [callStep_of_isFinished hended, proceed_self hfound]
      exact ⟨.quiet rfl rfl rfl rfl rfl, horderly⟩
    · have hsession : world.sessions.get i = world.session := sessions_eq_session i
      have hrunning := Bool.eq_false_iff.mpr hended
      have hlast := horderly.last hfound hrunning
      have hcurrent : world.current = task := current_of_last hfound hlast
      constructor
      · rw [← hcurrent] at hrunning
        apply Stride.call hrunning
        · rw [hcurrent, ← hsession]
          rfl
        · rfl
        · rw [hcurrent, ← hsession]
          exact session_of_set i _
        · rw [hcurrent, ← hsession]
          apply current_of_set hlast
          rfl
      · apply horderly.of_set hlast
        rfl

theorem stride_step {event : Event 1} (horderly : world.IsOrderly)
    (hadmits : world.Admits event) :
    world.Stride event (world.step event) ∧ (world.step event).IsOrderly := by
  have hsession (i : Fin 1) : world.sessions.get i = world.session := sessions_eq_session i
  cases event with
  | save i snapshot =>
      refine ⟨.save (horderly.isIdle_iff.mp hadmits) rfl rfl ?_ (current_of_append rfl),
        .of_append hadmits rfl⟩
      rw [← hsession i]
      exact session_of_set i _
  | retry i =>
      exact ⟨.pass (horderly.isIdle_iff.mp hadmits) rfl rfl (current_of_append rfl),
        .of_append hadmits rfl⟩
  | resume i =>
      refine ⟨.resume (horderly.isIdle_iff.mp hadmits) rfl rfl ?_ (current_of_append rfl),
        .of_append hadmits rfl⟩
      rw [← hsession i]
      exact session_of_set i _
  | schedule i => cases hadmits
  | cancel i => cases hadmits
  | file job luck => cases hadmits
  | expire i generation => exact stride_expire horderly hadmits i generation
  | answer place result => exact stride_answer horderly place result
  | call place chances => exact stride_call horderly place chances
  | wait duration => exact ⟨.quiet rfl rfl rfl rfl rfl, horderly⟩

theorem IsSound.current {base : String} (hsound : world.IsSound base) :
    world.current.IsSound base world.uploads := by
  rw [World.current]
  cases hlast : world.jobs.getLast? with
  | none => trivial
  | some job => exact hsound.tasks job (List.mem_of_getLast? hlast)

/-- What holds of every world in which tasks come in turn. -/
structure IsSerial (base : String) (world : World 1) : Prop where
  sound : world.IsSound base
  orderly : world.IsOrderly

theorem isSerial_new (base : String) (interval : Nat) (process : UInt32)
    (folder : Folder) :
    (World.alone base interval process folder).IsSerial base where
  sound := isSound_new folder fun i => by
    obtain rfl : i = 0 := Subsingleton.elim i 0
    rfl
  orderly := fun place job hfound => by
    have hnone : ([] : List (Job 1))[place]? = some job := hfound
    rw [List.getElem?_nil] at hnone
    cases hnone

theorem IsSerial.step {base : String} {event : Event 1} (hserial : world.IsSerial base)
    (hadmits : world.Admits event) :
    world.Stride event (world.step event) ∧ (world.step event).IsSerial base := by
  obtain ⟨hstride, horderly⟩ := stride_step hserial.orderly hadmits
  exact ⟨hstride, hserial.sound.step (isWhole_of_admits hadmits), horderly⟩

section Invariants

variable {n : Nat} {world : World n} {events : List (Event n)} {kept : World n → Prop}

/-- What the allowed events preserve holds after a run of them. -/
theorem InTurn.invariant_of_allowed {allowed : World n → Event n → Prop}
    (hturn : world.InTurn events)
    (hallowed : ∀ before event after, events = before ++ event :: after →
      allowed (world.run before) event)
    (hstep : ∀ world event, world.Admits event → allowed world event →
      kept world → kept (world.step event))
    (hworld : kept world) : kept (world.run events) := by
  induction events generalizing world with
  | nil => exact hworld
  | cons event events ih =>
      have hnext := hstep world event hturn.1 (hallowed [] event events rfl) hworld
      apply ih hturn.2 _ hnext
      intro before other after hevents
      exact hallowed (event :: before) other after (congrArg (event :: ·) hevents)

theorem InTurn.invariant (hturn : world.InTurn events)
    (hstep : ∀ world event, world.Admits event → kept world →
      kept (world.step event))
    (hworld : kept world) : kept (world.run events) := by
  have hstep (world : World n) (event : Event n) (hadmits : world.Admits event) (_ : True) :
      kept world → kept (world.step event) := hstep world event hadmits
  apply hturn.invariant_of_allowed _ hstep hworld
  intro before event after hevents
  trivial

end Invariants

/-- The event is the one at which the task under way ends as `task`. -/
def Ends (world : World 1) (event : Event 1) (task : Task) : Prop :=
  world.current.isFinished = false ∧ (world.step event).current = task

/-- A task ends when the store answers, or by a call of the queue. -/
theorem Stride.ends_cases {after : World 1} (hstride : world.Stride event after)
    (hrunning : world.current.isFinished = false)
    (hended : after.current.isFinished = true) :
    (∃ stamp result upload, world.current.upload? = some upload ∧
        after.folder = world.folder ∧
        (after.session, after.current) =
          world.session.afterUpload world.now stamp result world.current) ∨
      ∃ chances, after.documents = world.documents ∧
        (after.folder, after.session, after.current) =
          world.session.callStep world.now chances world.folder world.current := by
  cases hstride with
  | quiet folder documents status armed current =>
      rw [current, hrunning] at hended
      cases hended
  | save ended folder documents session current =>
      rw [current] at hended
      cases hended
  | pass ended folder documents current =>
      rw [current] at hended
      cases hended
  | resume ended folder documents session current =>
      rw [current] at hended
      cases hended
  | answer upload folder documents session current =>
      exact .inl ⟨_, _, _, upload, folder, by rw [session, current]⟩
  | call running folder documents session current =>
      exact .inr ⟨_, documents, by rw [folder, session, current]⟩

end World

end Scorekeeper.Save
