import Scorekeeper.Proofs.Save.Turns

/-!
# Whether a timer waits for the queue

An entry of the queue is uploaded when the retry timer expires.  A save disarms the
timer before it uploads, and arms it again only if its own payload has to be kept.
This file proves when a session comes to rest with entries in its queue and no timer
armed for them.
-/

namespace Scorekeeper.Save

open Queue Remote Files

variable {base : String}

/-- Some entry waits in the queue. -/
def HasEntries (base : String) (folder : Folder) : Prop :=
  ∃ suffix, suffix ≠ "" ∧ (folder.get? (entryName (keyFor base suffix))).isSome = true

theorem hasEntries_iff {folder : Folder} :
    HasEntries base folder ↔ ∃ listed, keys .fine base folder = .ok listed ∧ listed ≠ [] := by
  constructor
  · rintro ⟨suffix, hne, hentry⟩
    cases hlisted : keys .fine base folder with
    | ok listed =>
        have hmem : keyFor base suffix ∈ listed :=
          (mem_keys_iff hlisted).mpr ⟨hentry, suffix, hne, rfl⟩
        exact ⟨listed, rfl, List.ne_nil_of_mem hmem⟩
    | error error =>
        cases folder with
        | absent => cases hlisted
        | blocked => cases hentry
        | present entries => cases hlisted
  · rintro ⟨listed, hlisted, hne⟩
    obtain ⟨key, hmem⟩ := List.exists_mem_of_ne_nil listed hne
    obtain ⟨hentry, suffix, hsuffix, rfl⟩ := (mem_keys_iff hlisted).mp hmem
    exact ⟨suffix, hsuffix, hentry⟩

namespace Task

def isSaving : Task → Bool
  | .uploading _ | .clearing _ _ | .keeping _ _ _ => true
  | _ => false

/-- Whether a task is one that will settle the status of its session. -/
def isBusy (task : Task) : Bool :=
  task.isSaving || task.isPassing

/-- How a task and its session go together: no timer is armed during a save, and
unless a task is busy the status follows the timer. -/
structure Fits (session : Session) (task : Task) : Prop where
  disarmed : task.isSaving = true → session.isArmed = false
  settled : task.isBusy = false →
    session.status = if session.isArmed then .queued else .idle

theorem not_isBusy_of_isFinished {task : Task} (hended : task.isFinished = true) :
    task.isBusy = false := by
  cases task <;> first | rfl | cases hended

theorem isBusy_of_upload? {task : Task} {upload : DocumentKey × String}
    (hupload : task.upload? = some upload) : task.isBusy = true := by
  cases task <;> first | rfl | cases hupload

end Task

namespace Session

variable {session : Session} {now : Nat} {look : Luck} {folder : Folder} {task : Task}
  {turn : Session × Task}

theorem fits_settle {next : Task} (hsaving : next.isSaving = false) :
    next.Fits session.settle := by
  constructor
  · intro hbusy
    rw [hsaving] at hbusy
    cases hbusy
  · intro _
    rfl

theorem fits_await {next : Task} (hsaving : next.isSaving = false) :
    next.Fits (session.await now) := by
  constructor
  · intro hbusy
    rw [hsaving] at hbusy
    cases hbusy
  · intro _
    rfl

theorem fits_endPass (report : Report) :
    (session.endPass now report).2.Fits (session.endPass now report).1 := by
  rw [endPass]
  split
  · exact fits_await rfl
  · exact fits_settle rfl

theorem Turn.fits (hturn : session.Turn now look folder task turn)
    (hfits : task.Fits session) : turn.2.Fits turn.1 := by
  cases hturn with
  | still task => exact hfits
  | clear snapshot stage next => exact ⟨fun _ => hfits.disarmed rfl, nofun⟩
  | cleared snapshot stage => exact fits_settle rfl
  | keep snapshot stamp stage next => exact ⟨fun _ => hfits.disarmed rfl, nofun⟩
  | kept snapshot stamp stage => exact fits_await rfl
  | lost snapshot stamp stage => exact fits_settle rfl
  | resend key suffix payload pass read => exact ⟨nofun, nofun⟩
  | drop key payload pass stage next => exact ⟨nofun, nofun⟩
  | entry passing suffix pass => exact ⟨nofun, nofun⟩
  | ended passing report => exact fits_endPass report
  | counted answer =>
      cases answer with
      | ok found =>
          cases found with
          | zero => exact ⟨nofun, fun _ => hfits.settled rfl⟩
          | succ found => exact fits_await rfl
      | error error => exact ⟨nofun, fun _ => hfits.settled rfl⟩

theorem fits_afterUpload (hfits : task.Fits session) (stamp : Stamp)
    (result : Except StorageError Unit) :
    (session.afterUpload now stamp result task).2.Fits
      (session.afterUpload now stamp result task).1 := by
  cases task with
  | uploading snapshot =>
      cases result with
      | ok _ => exact ⟨fun _ => hfits.disarmed rfl, nofun⟩
      | error error =>
          obtain ⟨-, hkeeping⟩ | hlost :=
            session.afterUpload_error_cases now stamp error snapshot
          · rw [hkeeping]
            exact ⟨fun _ => hfits.disarmed rfl, nofun⟩
          · rw [hlost]
            exact fits_settle rfl
  | resending key suffix payload pass =>
      cases result with
      | ok _ => exact ⟨nofun, nofun⟩
      | error error =>
          have hturn : session.Turn now .fine .absent .listing
              (session.nextEntry now pass.report.addFailed pass.rest) :=
            session.turn_nextEntry now .fine .absent rfl _ _
          exact hturn.fits ⟨nofun, nofun⟩
  | _ => exact hfits

/-- A call that ends a save arms the timer if the payload was kept, and leaves the
timer alone otherwise. -/
theorem Turn.eq_saved {snapshot : Snapshot} {outcome : Outcome}
    (hturn : session.Turn now look folder task turn)
    (hsaved : turn.2 = .saved snapshot outcome) (hrunning : task.isFinished = false) :
    task.isSaving = true ∧
      ((outcome = .queued ∧ turn.1 = session.await now) ∨
        outcome ≠ .queued ∧ turn.1 = session.settle) := by
  cases hturn with
  | still task =>
      dsimp only at hsaved
      rw [hsaved] at hrunning
      cases hrunning
  | cleared other stage =>
      cases hsaved
      exact ⟨rfl, .inr ⟨nofun, rfl⟩⟩
  | kept other stamp stage =>
      cases hsaved
      exact ⟨rfl, .inl ⟨rfl, rfl⟩⟩
  | lost other stamp stage =>
      cases hsaved
      exact ⟨rfl, .inr ⟨nofun, rfl⟩⟩
  | ended passing report =>
      rw [task_endPass] at hsaved
      cases hsaved
  | counted answer =>
      cases answer with
      | ok found => cases found <;> cases hsaved
      | error error => cases hsaved
  | _ => cases hsaved

theorem Turn.eq_passed {report : Report}
    (hturn : session.Turn now look folder task turn) (hpassed : turn.2 = .passed report)
    (hrunning : task.isFinished = false) :
    turn.1 = (session.endPass now report).1 := by
  cases hturn with
  | still task =>
      dsimp only at hpassed
      rw [hpassed] at hrunning
      cases hrunning
  | ended passing other =>
      rw [task_endPass] at hpassed
      cases hpassed
      rfl
  | counted answer =>
      cases answer with
      | ok found => cases found <;> cases hpassed
      | error error => cases hpassed
  | _ => cases hpassed

/-- A busy task stays busy until its save or its pass ends. -/
theorem Turn.busy_cases (hturn : session.Turn now look folder task turn)
    (hbusy : task.isBusy = true) :
    turn.2.isBusy = true ∨ (∃ snapshot outcome, turn.2 = .saved snapshot outcome) ∨
      ∃ report, turn.2 = .passed report := by
  cases hturn with
  | still task => exact .inl hbusy
  | cleared snapshot stage => exact .inr (.inl ⟨_, _, rfl⟩)
  | kept snapshot stamp stage => exact .inr (.inl ⟨_, _, rfl⟩)
  | lost snapshot stamp stage => exact .inr (.inl ⟨_, _, rfl⟩)
  | ended passing report => exact .inr (.inr ⟨report, task_endPass _ _ _⟩)
  | counted answer => cases hbusy
  | _ => exact .inl rfl

/-- What becomes of the entries when a save ends and its payload is not kept: they stay,
or the one that the save clears goes. -/
theorem entries_of_saved {uploads : List Upload} (hbase : session.base = base)
    (hsound : task.IsSound base uploads) (hsaving : task.isSaving = true)
    (chances : Chances) {snapshot : Snapshot} {outcome : Outcome}
    (houtcome : outcome ≠ .queued)
    (hsaved : (session.callStep now chances folder task).2.2 = .saved snapshot outcome) :
    let entry := fun suffix => entryName (keyFor base suffix)
    let after := (session.callStep now chances folder task).1
    (outcome = .notQueued ∧
        ∀ suffix, after.get? (entry suffix) = folder.get? (entry suffix)) ∨
      outcome = .saved ∧ ∀ suffix,
        after.get? (entry suffix) = folder.get? (entry suffix) ∨
          suffix = snapshot.id.text ∧ Holds folder (keyFor base suffix) snapshot.payload ∧
            after.get? (entry suffix) = none := by
  intro entry after
  cases task with
  | uploading other => cases hsaved
  | clearing other stage =>
      obtain ⟨rfl, -⟩ := hsound
      cases hsaved
      right
      constructor
      · rfl
      · intro suffix
        have hkey : (session.removalOf snapshot).key = keyFor base snapshot.id.text :=
          congrArg (keyFor · _) hbase
        obtain hsame | ⟨rfl, hholds, hgone⟩ :=
          entry_removal_cases hkey chances.removal folder suffix
        · exact .inl hsame
        · exact .inr ⟨rfl, hholds, hgone⟩
  | keeping other stamp stage =>
      obtain ⟨rfl, -⟩ := hsound
      obtain ⟨hqueued, -⟩ | ⟨hlost, hothers⟩ :=
        callStep_keeping_cases session now hbase chances folder stamp
      · rw [hqueued] at hsaved
        cases hsaved
        exact absurd rfl houtcome
      · rw [hlost] at hsaved
        cases hsaved
        left
        constructor
        · rfl
        · intro suffix
          exact hothers _ (entryName_ne_temporaryName _ _ stamp)
  | _ => cases hsaving

/-- What the answer of the store makes of the upload that a task waits for: a save goes
on or is lost, and a pass goes on or ends. -/
theorem afterUpload_cases (session : Session) (now : Nat)
    {upload : DocumentKey × String} (hupload : task.upload? = some upload)
    (stamp : Stamp) (result : Except StorageError Unit) :
    let after := session.afterUpload now stamp result task
    after.2.isBusy = true ∨
      (∃ snapshot, task = .uploading snapshot ∧
        after = (session.settle, .saved snapshot .notQueued)) ∨
      ∃ report, after = session.endPass now report := by
  intro after
  cases task with
  | uploading snapshot =>
      cases result with
      | ok _ => exact .inl rfl
      | error error =>
          obtain ⟨-, hkeeping⟩ | hlost :=
            session.afterUpload_error_cases now stamp error snapshot
          · left
            simp only [after, hkeeping]
            rfl
          · exact .inr (.inl ⟨snapshot, rfl, hlost⟩)
  | resending key suffix payload pass =>
      cases result with
      | ok _ => exact .inl rfl
      | error error =>
          obtain hend | ⟨other, rest, -, hnext⟩ :=
            session.nextEntry_cases now pass.report.addFailed pass.rest
          · exact .inr (.inr ⟨_, hend⟩)
          · left
            simp only [after, afterUpload, hnext]
            rfl
  | _ => cases hupload

end Session

namespace World

variable {world : World 1} {event : Event 1}

/-- If entries wait, so does a timer, and the status says so. -/
def Attended (base : String) (world : World 1) : Prop :=
  ∀ listed, keys .fine base world.folder = .ok listed → listed ≠ [] →
    world.session.isArmed = true ∧ world.session.status = .queued

/-- An event that leaves entries behind without a timer. -/
inductive Strands (base : String) (world : World 1) (event : Event 1) : Prop where
  /-- A save ends whose payload neither the store nor the queue took, while some entry
  waits. -/
  | lost (snapshot : Snapshot)
      (ends : world.Ends event (.saved snapshot .notQueued))
      (waiting : HasEntries base world.folder)
  /-- A save ends well while an entry waits that it does not clear: one of another card,
  one that holds another payload, or one that cannot be removed. -/
  | saved (snapshot : Snapshot) (suffix : String)
      (ends : world.Ends event (.saved snapshot .saved)) (nonempty : suffix ≠ "")
      (waiting : (world.folder.get? (entryName (keyFor base suffix))).isSome = true)
      (outlasts : suffix ≠ snapshot.id.text ∨
        ¬Holds world.folder (keyFor base suffix) snapshot.payload ∨
        ((world.step event).folder.get? (entryName (keyFor base suffix))).isSome = true)
  /-- A pass ends that counted no failure and that no timer follows, although an entry
  is left. -/
  | passed (report : Report) (ends : world.Ends event (.passed report))
      (clean : report.failed = 0) (disarmed : world.session.isArmed = false)
      (left : HasEntries base (world.step event).folder)

/-- What holds of a world whose tasks come in turn. -/
structure IsSteady (base : String) (world : World 1) : Prop
    extends world.IsSerial base where
  fits : world.current.Fits world.session

theorem IsSteady.step (hsteady : world.IsSteady base) (hadmits : world.Admits event) :
    (world.step event).IsSteady base := by
  obtain ⟨hstride, hserial⟩ := hsteady.toIsSerial.step hadmits
  refine ⟨hserial, ?_⟩
  have hfits := hsteady.fits
  clear hserial
  generalize world.step event = after at hstride ⊢
  cases hstride with
  | quiet folder documents status armed current =>
      rw [current]
      constructor
      · intro hsaving
        rw [armed]
        exact hfits.disarmed hsaving
      · intro hresting
        rw [status, armed]
        exact hfits.settled hresting
  | save ended folder documents session current =>
      rw [current, session]
      exact ⟨fun _ => rfl, nofun⟩
  | pass ended folder documents current =>
      rw [current]
      exact ⟨nofun, nofun⟩
  | resume ended folder documents session current =>
      rw [current, session]
      exact ⟨nofun, fun _ => hfits.settled (Task.not_isBusy_of_isFinished ended)⟩
  | answer upload folder documents session current =>
      rw [current, session]
      exact Session.fits_afterUpload hfits _ _
  | call running folder documents session current =>
      rw [current, session]
      exact (Session.turn_callStep _ _ _ _ _).fits hfits

theorem IsSteady.run (hsteady : world.IsSteady base) {events : List (Event 1)}
    (hturn : world.InTurn events) : (world.run events).IsSteady base :=
  hturn.invariant (fun _ _ hadmits hworld => hworld.step hadmits) hsteady

/-- At rest the status says `queued` exactly if a timer is armed. -/
theorem IsSteady.attended_iff (hsteady : world.IsSteady base)
    (hresting : world.current.isBusy = false) :
    world.Attended base ↔
      (HasEntries base world.folder → world.session.isArmed = true) := by
  have hsettled := hsteady.fits.settled hresting
  constructor
  · intro hattended hentries
    obtain ⟨listed, hlisted, hne⟩ := hasEntries_iff.mp hentries
    exact (hattended listed hlisted hne).1
  · intro harmed listed hlisted hne
    have harmed := harmed (hasEntries_iff.mpr ⟨listed, hlisted, hne⟩)
    refine ⟨harmed, ?_⟩
    rw [hsettled, harmed]
    rfl

/-- How a save comes to its end. -/
theorem IsSteady.saved_cases (hsteady : world.IsSteady base)
    (hadmits : world.Admits event) {snapshot : Snapshot} {outcome : Outcome}
    (hends : world.Ends event (.saved snapshot outcome)) :
    let entry := fun suffix => entryName (keyFor base suffix)
    let after := world.step event
    (outcome = .queued ∧ after.session.isArmed = true) ∨
      after.session.isArmed = false ∧
        ((outcome = .notQueued ∧
            ∀ suffix, after.folder.get? (entry suffix) = world.folder.get? (entry suffix)) ∨
          outcome = .saved ∧ ∀ suffix,
            after.folder.get? (entry suffix) = world.folder.get? (entry suffix) ∨
              suffix = snapshot.id.text ∧
                Holds world.folder (keyFor base suffix) snapshot.payload ∧
                after.folder.get? (entry suffix) = none) := by
  obtain ⟨hrunning, hsaved⟩ := hends
  have hdisarmed := hsteady.fits.disarmed
  have hsound := hsteady.sound.current
  have hbase : world.session.base = base := hsteady.sound.bases 0
  obtain ⟨hstride, -⟩ := stride_step hsteady.orderly hadmits
  intro entry after
  obtain ⟨stamp, result, upload, hupload, hfolder, hmove⟩ | ⟨chances, -, hmove⟩ :=
    hstride.ends_cases hrunning (by rw [hsaved]; rfl)
  · right
    have hcases := Session.afterUpload_cases world.session world.now hupload stamp result
    simp only [← hmove, hsaved] at hcases
    obtain hbusy | ⟨other, htask, hlost⟩ | ⟨report, hended⟩ := hcases
    · cases hbusy
    · obtain ⟨hsession, hcurrent⟩ := Prod.mk.inj hlost
      cases hcurrent
      refine ⟨?_, .inl ⟨rfl, fun suffix => congrArg (·.get? (entry suffix)) hfolder⟩⟩
      change (world.step event).session.isArmed = false
      rw [hsession]
      exact hdisarmed (by rw [htask]; rfl)
    · have hcurrent := congrArg Prod.snd hended
      rw [Session.task_endPass] at hcurrent
      cases hcurrent
  · have hturn := Session.turn_callStep world.session world.now chances world.folder
      world.current
    rw [← hmove] at hturn
    obtain ⟨hsaving, ⟨houtcome, hawait⟩ | ⟨houtcome, hsettle⟩⟩ :=
      hturn.eq_saved hsaved hrunning
    · left
      refine ⟨houtcome, ?_⟩
      change (world.step event).session.isArmed = true
      rw [show (world.step event).session = _ from hawait]
      rfl
    · right
      constructor
      · change (world.step event).session.isArmed = false
        rw [show (world.step event).session = _ from hsettle]
        exact hdisarmed hsaving
      · have hfolder : (world.step event).folder = _ := congrArg Prod.fst hmove
        have hcurrent := congrArg (·.2.2) hmove
        simp only [hsaved] at hcurrent
        simp only [after, hfolder]
        exact Session.entries_of_saved hbase hsound hsaving chances houtcome hcurrent.symm

/-- How a pass comes to its end. -/
theorem IsSteady.session_of_ends_passed (hsteady : world.IsSteady base)
    (hadmits : world.Admits event) {report : Report}
    (hends : world.Ends event (.passed report)) :
    (world.step event).session = (world.session.endPass world.now report).1 := by
  obtain ⟨hrunning, hpassed⟩ := hends
  obtain ⟨hstride, -⟩ := stride_step hsteady.orderly hadmits
  obtain ⟨stamp, result, upload, hupload, -, hmove⟩ | ⟨chances, -, hmove⟩ :=
    hstride.ends_cases hrunning (by rw [hpassed]; rfl)
  · have hcases := Session.afterUpload_cases world.session world.now hupload stamp result
    simp only [← hmove, hpassed] at hcases
    obtain hbusy | ⟨other, htask, hlost⟩ | ⟨counted, hended⟩ := hcases
    · cases hbusy
    · cases congrArg Prod.snd hlost
    · have hcurrent := congrArg Prod.snd hended
      rw [Session.task_endPass] at hcurrent
      cases hcurrent
      exact congrArg Prod.fst hended
  · have hturn := Session.turn_callStep world.session world.now chances world.folder
      world.current
    rw [← hmove] at hturn
    exact hturn.eq_passed hpassed hrunning

theorem isArmed_endPass (session : Session) (now : Nat) (report : Report) :
    (session.endPass now report).1.isArmed =
      if 0 < report.failed then true else session.isArmed := by
  rw [Session.endPass]
  split <;> rfl

/-- After an event that strands entries they wait at rest, and no timer is armed. -/
theorem IsSteady.of_strands (hsteady : world.IsSteady base)
    (hadmits : world.Admits event) (hstrands : world.Strands base event) :
    (world.step event).current.isFinished = true ∧
      HasEntries base (world.step event).folder ∧
      (world.step event).session.isArmed = false := by
  cases hstrands with
  | lost snapshot ends waiting =>
      obtain ⟨houtcome, -⟩ | ⟨hdisarmed, ⟨-, hsame⟩ | ⟨houtcome, -⟩⟩ :=
        hsteady.saved_cases hadmits ends
      · cases houtcome
      · obtain ⟨suffix, hne, hentry⟩ := waiting
        refine ⟨by rw [ends.2]; rfl, ⟨suffix, hne, ?_⟩, hdisarmed⟩
        rw [hsame]
        exact hentry
      · cases houtcome
  | saved snapshot suffix ends nonempty waiting outlasts =>
      obtain ⟨houtcome, -⟩ | ⟨hdisarmed, ⟨houtcome, -⟩ | ⟨-, hcases⟩⟩ :=
        hsteady.saved_cases hadmits ends
      · cases houtcome
      · cases houtcome
      · refine ⟨by rw [ends.2]; rfl, ⟨suffix, nonempty, ?_⟩, hdisarmed⟩
        obtain hsame | ⟨howner, hholds, hgone⟩ := hcases suffix
        · rw [hsame]
          exact waiting
        · obtain hother | hunheld | hstays := outlasts
          · exact absurd howner hother
          · exact absurd hholds hunheld
          · exact hstays
  | passed report ends clean disarmed left =>
      refine ⟨by rw [ends.2]; rfl, left, ?_⟩
      rw [hsteady.session_of_ends_passed hadmits ends, isArmed_endPass, clean]
      exact disarmed

/-- A busy task stays busy, or its save or its pass ends. -/
theorem Stride.busy_cases {after : World 1} (hstride : world.Stride event after)
    (hbusy : world.current.isBusy = true) :
    after.current.isBusy = true ∨
      (∃ snapshot outcome, after.current = .saved snapshot outcome) ∨
      ∃ report, after.current = .passed report := by
  have hrunning : world.current.isFinished ≠ true := by
    intro hended
    rw [Task.not_isBusy_of_isFinished hended] at hbusy
    cases hbusy
  cases hstride with
  | quiet folder documents status armed current =>
      rw [current]
      exact .inl hbusy
  | save ended folder documents session current => exact absurd ended hrunning
  | pass ended folder documents current => exact absurd ended hrunning
  | resume ended folder documents session current => exact absurd ended hrunning
  | @answer job result stamp key payload after upload folder documents session current =>
      rw [current]
      obtain hbusy | ⟨snapshot, -, hlost⟩ | ⟨report, hended⟩ :=
        Session.afterUpload_cases world.session world.now upload stamp result
      · exact .inl hbusy
      · rw [hlost]
        exact .inr (.inl ⟨_, _, rfl⟩)
      · rw [hended]
        exact .inr (.inr ⟨report, Session.task_endPass _ _ _⟩)
  | call running folder documents session current =>
      rw [current]
      exact (Session.turn_callStep _ _ _ _ _).busy_cases hbusy

/-- A timer waits for the entries while no busy task takes care of them. -/
def Minds (base : String) (world : World 1) : Prop :=
  world.current.isBusy = false → HasEntries base world.folder →
    world.session.isArmed = true

theorem IsSteady.minds_of_saved (hsteady : world.IsSteady base)
    (hadmits : world.Admits event) (hstrands : ¬world.Strands base event)
    {snapshot : Snapshot} {outcome : Outcome}
    (hends : world.Ends event (.saved snapshot outcome)) :
    (world.step event).Minds base := by
  intro hresting hentries
  obtain ⟨suffix, hne, hentry⟩ := hentries
  obtain ⟨-, harmed⟩ | ⟨-, ⟨rfl, hsame⟩ | ⟨rfl, hcases⟩⟩ :=
    hsteady.saved_cases hadmits hends
  · exact harmed
  · rw [hsame] at hentry
    exact absurd (.lost snapshot hends ⟨suffix, hne, hentry⟩) hstrands
  · obtain hsame | ⟨-, -, hgone⟩ := hcases suffix
    · have hwaiting := hentry
      rw [hsame] at hwaiting
      exact absurd (.saved snapshot suffix hends hne hwaiting (.inr (.inr hentry))) hstrands
    · rw [hgone] at hentry
      cases hentry

theorem IsSteady.minds_of_passed (hsteady : world.IsSteady base)
    (hadmits : world.Admits event) (hstrands : ¬world.Strands base event)
    {report : Report} (hends : world.Ends event (.passed report)) :
    (world.step event).Minds base := by
  intro hresting hentries
  rw [hsteady.session_of_ends_passed hadmits hends, isArmed_endPass]
  split
  · rfl
  · next hclean =>
    by_cases harmed : world.session.isArmed = true
    · exact harmed
    · have hdisarmed : world.session.isArmed = false := Bool.eq_false_iff.mpr harmed
      have hnone : report.failed = 0 := by omega
      exact absurd (.passed report hends hnone hdisarmed hentries) hstrands

/-- While no task is busy the entries stay, and a resumption that counts them arms the
timer. -/
theorem Stride.minds {after : World 1} (hstride : world.Stride event after)
    (hresting : world.current.isBusy = false) (hminds : world.Minds base) :
    after.Minds base := by
  intro hstill hentries
  have hbefore := hminds hresting
  cases hstride with
  | quiet folder documents status armed current =>
      rw [armed]
      rw [folder] at hentries
      exact hbefore hentries
  | save ended folder documents session current =>
      rw [current] at hstill
      cases hstill
  | pass ended folder documents current =>
      rw [current] at hstill
      cases hstill
  | resume ended folder documents session current =>
      rw [session]
      rw [folder] at hentries
      exact hbefore hentries
  | answer upload folder documents session current =>
      rw [Task.isBusy_of_upload? upload] at hresting
      cases hresting
  | @call job chances after running folder documents session current =>
      generalize world.current = task at hresting running folder session
      cases task with
      | counting =>
          have hfolder : after.folder = world.folder := folder
          have hsession : after.session = (world.session.afterCounting world.now
              (size chances.look world.session.base world.folder)).1 := session
          rw [hfolder] at hentries
          have harmed := hbefore hentries
          rw [hsession]
          cases size chances.look world.session.base world.folder with
          | ok found =>
              cases found with
              | zero => exact harmed
              | succ found => rfl
          | error error => exact harmed
      | saved snapshot outcome => cases running
      | passed report => cases running
      | resumed answer => cases running
      | _ => cases hresting

theorem IsSteady.minds_step (hsteady : world.IsSteady base)
    (hadmits : world.Admits event) (hminds : world.Minds base)
    (hstrands : ¬world.Strands base event) : (world.step event).Minds base := by
  obtain ⟨hstride, -⟩ := stride_step hsteady.orderly hadmits
  by_cases hbusy : world.current.isBusy = true
  · have hrunning : world.current.isFinished = false := by
      rw [Bool.eq_false_iff]
      intro hended
      rw [Task.not_isBusy_of_isFinished hended] at hbusy
      cases hbusy
    obtain hstill | ⟨snapshot, outcome, hsaved⟩ | ⟨report, hpassed⟩ :=
      hstride.busy_cases hbusy
    · intro hresting
      rw [hresting] at hstill
      cases hstill
    · exact hsteady.minds_of_saved hadmits hstrands ⟨hrunning, hsaved⟩
    · exact hsteady.minds_of_passed hadmits hstrands ⟨hrunning, hpassed⟩
  · exact hstride.minds (Bool.eq_false_iff.mpr hbusy) hminds

theorem IsSteady.minds_run (hsteady : world.IsSteady base) (hminds : world.Minds base)
    {events : List (Event 1)} (hturn : world.InTurn events)
    (hnone : ∀ before event after, events = before ++ event :: after →
      ¬(world.run before).Strands base event) : (world.run events).Minds base := by
  have hstep (world : World 1) (event : Event 1) (hadmits : world.Admits event)
      (hstrands : ¬world.Strands base event)
      (hworld : world.IsSteady base ∧ world.Minds base) :
      (world.step event).IsSteady base ∧ (world.step event).Minds base :=
    ⟨hworld.1.step hadmits, hworld.1.minds_step hadmits hworld.2 hstrands⟩
  exact (hturn.invariant_of_allowed hnone hstep ⟨hsteady, hminds⟩).2

theorem isSteady_new (base : String) (interval : Nat) (process : UInt32)
    (folder : Folder) :
    (World.alone base interval process folder).IsSteady base where
  toIsSerial := isSerial_new base interval process folder
  fits := ⟨nofun, fun _ => rfl⟩

/-- A resumption that can look into the folder arms the timer for what it finds. -/
theorem minds_of_resume (base : String) (interval : Nat) (process : UInt32)
    (folder : Folder) {chances : Session.Chances} (hlook : chances.look = .fine) :
    ((World.alone base interval process folder).run
      [.resume sole, .call 0 chances]).Minds base := by
  intro hresting hentries
  have hfolder : ((World.alone base interval process folder).run
      [.resume sole, .call 0 chances]).folder = folder := rfl
  have hsession : ((World.alone base interval process folder).run
      [.resume sole, .call 0 chances]).session =
        ((Session.new base interval process).afterCounting 0
          (size chances.look base folder)).1 := rfl
  rw [hfolder] at hentries
  obtain ⟨listed, hlisted, hne⟩ := hasEntries_iff.mp hentries
  rw [hsession, hlook]
  rw [size]
  rw [hlisted]
  cases listed with
  | nil => exact absurd rfl hne
  | cons key listed => rfl

end World

open World

/-- When a session leaves entries without a timer.  A session has its folder to itself;
the folder holds no entry at first, or the session resumes and finds what is there.  Its
saves, passes, resumptions and expiring timers come in turn, with any luck.  Entries that
wait between two of them are attended throughout if and only if no event strands
entries. -/
theorem attended_throughout_iff (base : String) (interval : Nat) (process : UInt32)
    (folder : Folder) {opening events : List (Event 1)}
    (hopening : (opening = [] ∧ keys .fine base folder = .ok []) ∨
      ∃ chances, opening = [.resume sole, .call 0 chances] ∧ chances.look = .fine)
    (hturn : (World.alone base interval process folder).InTurn
      (opening ++ events)) :
    let start := (World.alone base interval process folder).run opening
    (∀ before after, events = before ++ after → (start.run before).IsIdle →
        (start.run before).Attended base) ↔
      ∀ before event after, events = before ++ event :: after →
        ¬(start.run before).Strands base event := by
  intro start
  obtain ⟨hopened, hturn⟩ := inTurn_append_iff.mp hturn
  have hstart : start.IsSteady base :=
    (isSteady_new base interval process folder).run hopened
  have hminds : start.Minds base := by
    obtain ⟨rfl, hempty⟩ | ⟨chances, rfl, hlook⟩ := hopening
    · intro hresting hentries
      obtain ⟨listed, hlisted, hne⟩ := hasEntries_iff.mp hentries
      have hnil := hlisted.symm.trans hempty
      cases hnil
      exact absurd rfl hne
    · exact minds_of_resume base interval process folder hlook
  constructor
  · intro hattended before event after hevents hstrands
    subst hevents
    obtain ⟨hbefore, hadmits, -⟩ := inTurn_append_iff.mp hturn
    have hsteady := hstart.run hbefore
    obtain ⟨hended, hentries, hdisarmed⟩ := hsteady.of_strands hadmits hstrands
    have hnext := hsteady.step hadmits
    have hidle := hnext.orderly.isIdle_iff.mpr hended
    have hrun : start.run (before ++ [event]) = (start.run before).step event := by
      rw [run_append]
      rfl
    rw [← hrun] at hnext hended hentries hdisarmed hidle
    have hattended := hattended (before ++ [event]) after (by simp) hidle
    rw [hnext.attended_iff (Task.not_isBusy_of_isFinished hended)] at hattended
    rw [hattended hentries] at hdisarmed
    cases hdisarmed
  · intro hnone before after hevents hidle
    subst hevents
    obtain ⟨hbefore, -⟩ := inTurn_append_iff.mp hturn
    have hsteady := hstart.run hbefore
    have hended := hsteady.orderly.isIdle_iff.mp hidle
    have hresting := Task.not_isBusy_of_isFinished hended
    rw [hsteady.attended_iff hresting]
    apply hstart.minds_run hminds hbefore _ hresting
    intro first event rest hsplit
    subst hsplit
    exact hnone first event (rest ++ after) (by simp)

/-! ## A card that waits while another one is saved -/

def waitingCard : ScorecardId where
  text := "3-cccccc"
  wellFormed := by decide

def savedCard : ScorecardId where
  text := "4-dddddd"
  wellFormed := by decide

/-- One card has to be kept in the queue, then another one is saved. -/
def twoCards : List (Event 1) :=
  [.save sole ⟨waitingCard, "waiting"⟩, .answer 0 (.error (.unavailable "offline")),
    .call 0 .fine, .save sole ⟨savedCard, "saved"⟩, .answer 1 (.ok ()), .call 1 .fine]

def freshWorld : World 1 :=
  World.alone "queue" 15000 1 .absent

theorem inTurn_twoCards : freshWorld.InTurn twoCards := by
  refine ⟨?_, trivial, trivial, ?_, trivial, trivial, trivial⟩
  · intro job hmem
    cases hmem
  · intro job hmem
    have hjob : job ∈ [Job.mk (0 : Fin 1) (.saved ⟨waitingCard, "waiting"⟩ .queued)] := hmem
    rw [List.mem_singleton.mp hjob]
    rfl

/-- After both saves the session is at rest, and nothing waits for the first card. -/
theorem not_attended_twoCards :
    (freshWorld.run twoCards).IsIdle ∧ ¬(freshWorld.run twoCards).Attended "queue" := by
  have hsteady : (freshWorld.run twoCards).IsSteady "queue" :=
    (isSteady_new "queue" 15000 1 .absent).run inTurn_twoCards
  refine ⟨hsteady.orderly.isIdle_iff.mpr rfl, fun hattended => ?_⟩
  rw [hsteady.attended_iff rfl] at hattended
  have harmed := hattended ⟨"3-cccccc", by decide, rfl⟩
  cases harmed

/-- A session that is at rest may have an entry in its queue and no timer armed. -/
theorem not_attended_throughout_twoCards :
    freshWorld.InTurn twoCards ∧
      ¬∀ before after, twoCards = before ++ after → (freshWorld.run before).IsIdle →
        (freshWorld.run before).Attended "queue" := by
  refine ⟨inTurn_twoCards, fun hattended => ?_⟩
  exact not_attended_twoCards.2
    (hattended twoCards [] (List.append_nil _).symm not_attended_twoCards.1)

theorem strands_twoCards :
    keys .fine "queue" .absent = .ok [] ∧ freshWorld.InTurn ([] ++ twoCards) ∧
      ¬∀ before event after, twoCards = before ++ event :: after →
        ¬(freshWorld.run before).Strands "queue" event := by
  have hempty : keys .fine "queue" .absent = .ok [] := rfl
  refine ⟨hempty, inTurn_twoCards, fun hnone => ?_⟩
  have hattended := (attended_throughout_iff "queue" 15000 1 .absent (.inl ⟨rfl, hempty⟩)
    inTurn_twoCards).mpr hnone
  exact not_attended_twoCards.2
    (hattended twoCards [] (List.append_nil _).symm not_attended_twoCards.1)

end Scorekeeper.Save
