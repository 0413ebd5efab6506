import Scorekeeper.Proofs.Replaced
import Scorekeeper.Proofs.Save.Attendance

/-!
# The status settles

The status of a session and the slot of its timer are written by many tasks that overlap.
A task that shows `saving` writes the status once more when it ends, after the timer that
is then armed; and whatever else writes the two at all writes them together.  So either
the status agrees with the timer, or some task is still to write it.
-/

namespace Scorekeeper.Save

open Queue Remote Files

namespace Session

variable {session : Session} {now : Nat} {look : Luck} {folder : Folder} {task : Task}
  {turn : Session × Task}

/-- The status agrees with the timer. -/
def IsSettled (session : Session) : Prop :=
  session.status = if session.isArmed then .queued else .idle

theorem isSettled_settle (session : Session) : session.settle.IsSettled := rfl

theorem isSettled_await (session : Session) (now : Nat) : (session.await now).IsSettled := rfl

theorem isSettled_endPass (session : Session) (now : Nat) (report : Report) :
    (session.endPass now report).1.IsSettled := by
  rw [endPass]
  split
  · exact session.isSettled_await now
  · exact session.isSettled_settle

/-- What a move of a task may do: it leaves the session alone, and a busy task stays busy,
or it brings the status and the timer to agree. -/
def Yields (session : Session) (task : Task) (turn : Session × Task) : Prop :=
  (turn.1 = session ∧ (task.isBusy = true → turn.2.isBusy = true)) ∨ turn.1.IsSettled

theorem Turn.yields (hturn : session.Turn now look folder task turn) :
    session.Yields task turn := by
  cases hturn with
  | still task => exact .inl ⟨rfl, id⟩
  | cleared snapshot stage => exact .inr session.isSettled_settle
  | kept snapshot stamp stage => exact .inr (session.isSettled_await now)
  | lost snapshot stamp stage => exact .inr session.isSettled_settle
  | ended passing report => exact .inr (session.isSettled_endPass now report)
  | counted answer =>
      cases answer with
      | ok found =>
          cases found with
          | zero => exact .inl ⟨rfl, nofun⟩
          | succ found => exact .inr (session.isSettled_await now)
      | error error => exact .inl ⟨rfl, nofun⟩
  | _ => exact .inl ⟨rfl, fun _ => rfl⟩

theorem yields_afterUpload (session : Session) (now : Nat) (stamp : Stamp)
    (result : Except StorageError Unit) (task : Task) :
    session.Yields task (session.afterUpload now stamp result task) := by
  cases task with
  | uploading snapshot =>
      cases result with
      | ok _ => exact .inl ⟨rfl, fun _ => rfl⟩
      | error error =>
          obtain ⟨-, hkeeping⟩ | hlost :=
            session.afterUpload_error_cases now stamp error snapshot
          · rw [hkeeping]
            exact .inl ⟨rfl, fun _ => rfl⟩
          · rw [hlost]
            exact .inr session.isSettled_settle
  | resending key suffix payload pass =>
      cases result with
      | ok _ => exact .inl ⟨rfl, fun _ => rfl⟩
      | error error =>
          have hturn : session.Turn now .fine .absent (.resending key suffix payload pass)
              (session.nextEntry now pass.report.addFailed pass.rest) :=
            session.turn_nextEntry now .fine .absent rfl _ _
          exact hturn.yields
  | _ => exact .inl ⟨rfl, id⟩

end Session

namespace Event

variable {n : Nat}

/-- Whether an event arms or disarms the timer of a session by hand. -/
def handles (i : Fin n) : Event n → Bool
  | .schedule j | .cancel j => j == i
  | _ => false

end Event

namespace World

variable {n : Nat} {world : World n} {i j : Fin n}

/-- Some task of a session is busy. -/
def HasBusy (i : Fin n) (jobs : List (Job n)) : Prop :=
  ∃ job ∈ jobs, job.session = i ∧ job.task.isBusy = true

/-- The status of a session agrees with its timer, or a task of the session is busy, which
will bring them to agree. -/
def IsSettling (i : Fin n) (world : World n) : Prop :=
  (world.sessions.get i).IsSettled ∨ HasBusy i world.jobs

/-- A busy task is left after a task has moved, if that task was not the one or stays
busy. -/
theorem HasBusy.set {jobs : List (Job n)} {job : Nat} {task next : Task}
    (hbusy : HasBusy i jobs) (hfound : jobs[job]? = some { session := j, task })
    (hstays : j = i → task.isBusy = true → next.isBusy = true) :
    HasBusy i (jobs.set job { session := j, task := next }) := by
  obtain ⟨other, hother, hsession, hbusy⟩ := hbusy
  obtain rfl | hkept := eq_or_mem_set { session := j, task := next } hfound hother
  · -- the busy task is the one that moves
    have hlt := (List.getElem?_eq_some_iff.mp hfound).1
    exact ⟨_, List.mem_set hlt _, hsession, hstays hsession hbusy⟩
  · exact ⟨other, hkept, hsession, hbusy⟩

theorem isSettled_setSession {session : Session} (hsettled : (world.sessions.get i).IsSettled)
    (hsession : j = i → session.IsSettled) :
    ((world.setSession j session).sessions.get i).IsSettled := by
  by_cases hsame : j = i
  · subst hsame
    rw [get_setSession_self]
    exact hsession rfl
  · rw [get_setSession_of_ne world session hsame]
    exact hsettled

/-- A task begins that is busy or leaves the session as it was. -/
theorem isSettling_launch {start : Session × Task} (hsettling : world.IsSettling i)
    (hstart : start.2.isBusy = true ∨ start.1 = world.sessions.get j) :
    (world.launch j start).IsSettling i := by
  obtain hsettled | ⟨job, hjob, hsession, hbusy⟩ := hsettling
  · by_cases hsame : j = i
    · obtain hbusy | hsession := hstart
      · exact .inr ⟨_, List.mem_append_right _ List.mem_cons_self, hsame, hbusy⟩
      · left
        apply isSettled_setSession hsettled
        rintro rfl
        rw [hsession]
        exact hsettled
    · exact .inl (isSettled_setSession hsettled fun hij => absurd hij hsame)
  · exact .inr ⟨job, List.mem_append_left _ hjob, hsession, hbusy⟩

/-- A task makes a move of its session. -/
theorem isSettling_proceed {job : Nat} {task : Task} {move : Folder × Session × Task}
    (hsettling : world.IsSettling i) (hfound : world.jobs[job]? = some { session := j, task })
    (hmove : (world.sessions.get j).Yields task move.2) :
    (world.proceed job j move).IsSettling i := by
  obtain ⟨hsession, hstays⟩ | hdone := hmove
  · obtain hsettled | hbusy := hsettling
    · left
      apply isSettled_setSession hsettled
      rintro rfl
      rw [hsession]
      exact hsettled
    · exact .inr (hbusy.set hfound fun _ => hstays)
  · by_cases hsame : j = i
    · subst hsame
      left
      change ((world.setSession j move.2.1).sessions.get j).IsSettled
      rw [get_setSession_self]
      exact hdone
    · obtain hsettled | hbusy := hsettling
      · exact .inl (isSettled_setSession hsettled fun hij => absurd hij hsame)
      · exact .inr (hbusy.set hfound fun hij => absurd hij hsame)

theorem isSettling_setSession {session : Session} (hsettling : world.IsSettling i)
    (hsession : j = i → (world.sessions.get i).IsSettled → session.IsSettled) :
    (world.setSession j session).IsSettling i := by
  obtain hsettled | hbusy := hsettling
  · exact .inl (isSettled_setSession hsettled fun hij => hsession hij hsettled)
  · exact .inr hbusy

theorem IsSettling.step (hsettling : world.IsSettling i) {event : Event n}
    (hhands : event.handles i = false) : (world.step event).IsSettling i := by
  cases event with
  | save j snapshot => exact isSettling_launch hsettling (.inl rfl)
  | retry j => exact isSettling_launch hsettling (.inl rfl)
  | resume j => exact isSettling_launch hsettling (.inr rfl)
  | schedule j =>
      apply isSettling_setSession hsettling
      rintro rfl
      simp [Event.handles] at hhands
  | cancel j =>
      apply isSettling_setSession hsettling
      rintro rfl
      simp [Event.handles] at hhands
  | expire j generation =>
      rw [World.step]
      split
      · exact isSettling_launch hsettling (.inl rfl)
      · next alarm hexpire =>
        apply isSettling_setSession hsettling
        rintro rfl hsettled
        have hslot := Alarm.slot_of_expire hexpire
        rw [Session.IsSettled, Session.isArmed, Alarm.isArmed] at hsettled ⊢
        rw [hslot]
        exact hsettled
  | answer job result =>
      rw [World.step, answer]
      split
      · exact hsettling
      · next j task hfound =>
        split
        · exact hsettling
        · next key payload hupload =>
          have hrecorded : (world.record key.path payload result.isOk).IsSettling i := hsettling
          exact isSettling_proceed hrecorded hfound (Session.yields_afterUpload _ _ _ _ _)
  | file job luck =>
      rw [World.step]
      split
      · exact hsettling
      · next j task hfound =>
        exact isSettling_proceed hsettling hfound (Session.turn_fileStep _ _ _ _ _).yields
  | call job chances =>
      rw [World.step]
      split
      · exact hsettling
      · next j task hfound =>
        exact isSettling_proceed hsettling hfound (Session.turn_callStep _ _ _ _ _).yields
  | wait duration => exact hsettling

theorem IsSettling.run {events : List (Event n)} (hsettling : world.IsSettling i)
    (hhands : ∀ event ∈ events, event.handles i = false) : (world.run events).IsSettling i := by
  induction events generalizing world with
  | nil => exact hsettling
  | cons event events ih =>
      obtain ⟨hevent, hrest⟩ := List.forall_mem_cons.mp hhands
      exact ih (hsettling.step hevent) hrest

/-- Whenever no task of a session is under way, however its saves, passes, resumptions and
timers overlapped and ended, its status is not `saving`, and it is `queued` exactly when a
timer is armed. -/
theorem status_at_rest {base : String} {interval : Nat} {process : UInt32} {folder : Folder}
    {sessions : Vector Session n} (hnew : sessions.get i = .new base interval process)
    {events : List (Event n)} (hhands : ∀ event ∈ events, event.handles i = false)
    (hrest : ∀ job ∈ ((World.new folder sessions).run events).jobs,
      job.session = i → job.task.isFinished = true) :
    let session := ((World.new folder sessions).run events).sessions.get i
    session.status ≠ .saving ∧ (session.status = .queued ↔ session.isArmed = true) ∧
      (session.status = .idle ↔ session.isArmed = false) := by
  intro session
  have hbegins : (World.new folder sessions).IsSettling i := by
    left
    change (sessions.get i).IsSettled
    rw [hnew]
    rfl
  have hsettled : session.IsSettled := by
    obtain hsettled | ⟨job, hjob, hsession, hbusy⟩ := hbegins.run hhands
    · exact hsettled
    · rw [Task.not_isBusy_of_isFinished (hrest job hjob hsession)] at hbusy
      cases hbusy
  rw [hsettled]
  cases session.isArmed <;> simp

end World

/-! ## A pass between two saves -/

/-- Two saves overlap; the one that fails arms the timer.  A third save disarms it, a
resumption arms it again, and the pass that it starts outlasts the save and fails. -/
def crowded : List (Event 1) :=
  [.save sole ⟨waitingCard, "waiting"⟩, .save sole ⟨savedCard, "saved"⟩,
    .answer 0 (.error (.unavailable "offline")), .answer 1 (.ok ()), .call 0 .fine,
    .call 1 .fine, .save sole ⟨savedCard, "later"⟩, .resume sole, .call 3 .fine,
    .expire sole 2, .answer 2 (.ok ()), .call 2 .fine, .call 4 .fine, .call 4 .fine,
    .answer 4 (.error (.unavailable "offline"))]

theorem status_at_rest_crowded :
    freshWorld.sessions.get sole = .new "queue" 15000 1 ∧
      (∀ event ∈ crowded, event.handles sole = false) ∧
      (∀ job ∈ (freshWorld.run crowded).jobs, job.session = sole →
        job.task.isFinished = true) ∧
      (freshWorld.run crowded).session.status = .queued := by
  have hnew : freshWorld.sessions.get sole = .new "queue" 15000 1 := rfl
  have hhands : ∀ event ∈ crowded, event.handles sole = false := by
    simp [crowded, Event.handles]
  have hrest : ∀ job ∈ (freshWorld.run crowded).jobs, job.session = sole →
      job.task.isFinished = true := by
    have hended : ((freshWorld.run crowded).jobs.all fun job => job.task.isFinished) = true := by
      rfl
    intro job hjob _
    exact List.all_eq_true.mp hended job hjob
  have harmed : (freshWorld.run crowded).session.isArmed = true := rfl
  exact ⟨hnew, hhands, hrest, (World.status_at_rest hnew hhands hrest).2.1.mpr harmed⟩

end Scorekeeper.Save
