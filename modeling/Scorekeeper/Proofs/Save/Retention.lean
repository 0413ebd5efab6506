import Scorekeeper.Proofs.Save.Moves

/-!
# Queued payloads are kept

Sessions overlap without locks, and each of them may remove an entry that another
one wrote.  What protects a queued payload is that a removal is only ever begun
for a payload that the store has taken under the same id.  This file proves that
every task keeps to this, and derives that a queued payload stays until the store
has it or a later payload of the same card takes its place.
-/

namespace Scorekeeper.Save

open Queue Remote Files

variable {n : Nat} {base : String}

/-- The store has answered some upload of exactly `payload` under an id that it
took it. -/
def Acknowledged (uploads : List Upload) (id payload : String) : Prop :=
  ∃ upload ∈ uploads, upload.path = (DocumentKey.scorecard id).path ∧
    upload.payload = payload ∧ upload.accepted = true

theorem Acknowledged.append {uploads : List Upload} {id payload : String}
    (hacknowledged : Acknowledged uploads id payload) (later : List Upload) :
    Acknowledged (uploads ++ later) id payload := by
  obtain ⟨upload, hmem, hupload⟩ := hacknowledged
  exact ⟨upload, List.mem_append_left _ hmem, hupload⟩

theorem acknowledged_of_ok (uploads : List Upload) (id payload : String) :
    Acknowledged
      (uploads ++ [{ path := (DocumentKey.scorecard id).path, payload, accepted := true }])
      id payload :=
  ⟨_, List.mem_append_right _ (List.mem_singleton.mpr rfl), rfl, rfl, rfl⟩

/-! ## What tasks know -/

namespace Task

/-- What a task may rely on between two of its calls: it knows the id of the entry
it works on, and it removes only what the store has acknowledged under that id. -/
def IsSound (base : String) (uploads : List Upload) : Task → Prop
  | .clearing snapshot stage =>
      stage = .comparing ∧ Acknowledged uploads snapshot.id.text snapshot.payload
  | .keeping snapshot _ stage =>
      stage = .making ∧ isSafeKey (keyFor base snapshot.id.text).toList = true
  | .reading key suffix _ => key = keyFor base suffix
  | .resending key suffix _ _ => key = keyFor base suffix
  | .dropping key payload _ stage =>
      stage = .comparing ∧
        ∃ suffix, key = keyFor base suffix ∧ Acknowledged uploads suffix payload
  | _ => True

variable {uploads : List Upload} {task : Task}

theorem IsSound.append (hsound : task.IsSound base uploads) (later : List Upload) :
    task.IsSound base (uploads ++ later) := by
  cases task with
  | clearing snapshot stage => exact ⟨hsound.1, hsound.2.append later⟩
  | dropping key payload pass stage =>
      obtain ⟨hstage, suffix, hkey, hacknowledged⟩ := hsound
      exact ⟨hstage, suffix, hkey, hacknowledged.append later⟩
  | _ => exact hsound

theorem isSound_of_isFresh (hfresh : task.isFresh = true) :
    task.IsSound base uploads := by
  cases task <;> trivial

end Task

namespace Session

variable {session : Session} {uploads : List Upload} {task : Task} (now : Nat)

theorem isSound_nextEntry (hbase : session.base = base) (report : Report)
    (keys : List String) :
    (session.nextEntry now report keys).2.IsSound base uploads := by
  rcases session.nextEntry_cases now report keys with hend | ⟨suffix, rest, -, hnext⟩
  · rw [hend, task_endPass]
    trivial
  · rw [hnext, hbase]
    exact rfl

theorem isSound_afterUpload (hbase : session.base = base)
    (hsound : task.IsSound base uploads) (stamp : Stamp)
    (result : Except StorageError Unit) {key : DocumentKey} {payload : String}
    (hupload : task.upload? = some (key, payload)) :
    (session.afterUpload now stamp result task).2.IsSound base
      (uploads ++ [{ path := key.path, payload, accepted := result.isOk }]) := by
  cases task with
  | uploading snapshot =>
      cases hupload
      cases result with
      | ok _ => exact ⟨rfl, acknowledged_of_ok _ _ _⟩
      | error error =>
          rcases session.afterUpload_error_cases now stamp error snapshot with
            ⟨hsafe, hkeeping⟩ | hlost
          · rw [hkeeping]
            exact ⟨rfl, hbase ▸ hsafe⟩
          · rw [hlost]
            trivial
  | resending entry suffix text pass =>
      cases hupload
      cases result with
      | ok _ => exact ⟨rfl, suffix, hsound, acknowledged_of_ok _ _ _⟩
      | error error => exact isSound_nextEntry now hbase _ _
  | _ => cases hupload

theorem isSound_callStep (hbase : session.base = base)
    (hsound : task.IsSound base uploads) (chances : Chances) (folder : Folder) :
    (session.callStep now chances folder task).2.2.IsSound base uploads := by
  cases task with
  | clearing snapshot stage =>
      obtain ⟨rfl, -⟩ := hsound
      simp [callStep, afterClearing, Task.IsSound]
  | keeping snapshot stamp stage =>
      obtain ⟨rfl, -⟩ := hsound
      simp only [callStep, afterKeeping]
      split <;> simp [Task.IsSound]
  | listing =>
      simp only [callStep, fileStep, afterListing]
      split
      · exact isSound_nextEntry now hbase _ _
      · simp [Task.IsSound]
  | reading key suffix pass =>
      simp only [callStep, fileStep, afterReading]
      split
      · exact hsound
      · exact isSound_nextEntry now hbase _ _
      · exact isSound_nextEntry now hbase _ _
  | dropping key payload pass stage =>
      obtain ⟨rfl, -⟩ := hsound
      exact isSound_nextEntry now hbase _ _
  | counting =>
      simp only [callStep, fileStep, afterCounting]
      split <;> trivial
  | uploading snapshot => trivial
  | saved snapshot outcome => trivial
  | resending key suffix payload pass => exact hsound
  | passed report => trivial
  | resumed answer => trivial

end Session

namespace World

/-- Every session and every task of a world keeps to the rules of the queue. -/
structure IsSound (base : String) (world : World n) : Prop where
  bases : world.HasBase base
  tasks : ∀ job ∈ world.jobs, job.task.IsSound base world.uploads

theorem isSound_new {sessions : Vector Session n} (folder : Folder)
    (hbase : ∀ i : Fin n, (sessions.get i).base = base) :
    (World.new folder sessions).IsSound base :=
  ⟨hbase, fun _ hmem => absurd hmem List.not_mem_nil⟩

variable {world : World n} {event : Event n}

theorem IsSound.step (hsound : world.IsSound base) (hwhole : event.isWhole = true) :
    (world.step event).IsSound base := by
  refine ⟨hsound.bases.step event, ?_⟩
  have hfound {job : Nat} {i : Fin n} {task : Task}
      (hjob : world.jobs[job]? = some { session := i, task }) :
      task.IsSound base world.uploads :=
    hsound.tasks _ (List.mem_of_getElem? hjob)
  intro job hmem
  cases world.shift_step event with
  | quiet folder uploads documents serial jobs =>
      rw [jobs] at hmem
      rw [uploads]
      exact hsound.tasks job hmem
  | launch folder uploads documents serial jobs fresh =>
      rw [jobs] at hmem
      rw [uploads]
      rcases List.mem_append.mp hmem with hold | hnew
      · exact hsound.tasks job hold
      · rw [List.mem_singleton.mp hnew]
        exact Task.isSound_of_isFresh fresh
  | answer found upload issued folder uploads documents serial jobs =>
      rw [jobs] at hmem
      rw [uploads]
      rcases List.mem_or_eq_of_mem_set hmem with hold | rfl
      · exact (hsound.tasks job hold).append _
      · exact Session.isSound_afterUpload _ (hsound.bases _) (hfound found) _ _ upload
  | file found folder uploads documents serial jobs => cases hwhole
  | call found folder uploads documents serial jobs =>
      rw [jobs] at hmem
      rw [uploads]
      rcases List.mem_or_eq_of_mem_set hmem with hold | rfl
      · exact hsound.tasks job hold
      · exact Session.isSound_callStep _ (hsound.bases _) (hfound found) _ _

theorem IsSound.run (hsound : world.IsSound base) {events : List (Event n)}
    (hwhole : ∀ event ∈ events, event.isWhole = true) :
    (world.run events).IsSound base := by
  induction events generalizing world with
  | nil => exact hsound
  | cons event events ih =>
      have hstep := hsound.step (hwhole event List.mem_cons_self)
      exact ih hstep fun later hmem => hwhole later (List.mem_cons_of_mem _ hmem)

end World

/-! ## What happens to an entry -/

namespace Session

variable {session : Session} {uploads : List Upload} {task : Task}
  {folder : Folder} (now : Nat) (chances : Chances)

/-- A save that keeps its payload is the only task that writes an entry, and it
writes its own.  An entry that goes was found to hold an acknowledged payload. -/
theorem entry_callStep (hbase : session.base = base)
    (hsound : task.IsSound base uploads) (suffix : String) :
    let name := entryName (keyFor base suffix)
    let after := session.callStep now chances folder task
    after.1.get? name = folder.get? name ∨
      (∃ snapshot stamp, task = .keeping snapshot stamp .making ∧
        snapshot.id.text = suffix ∧ after.2.2 = .saved snapshot .queued ∧
        Holds after.1 (keyFor base suffix) snapshot.payload) ∨
      ∃ payload, Acknowledged uploads suffix payload ∧
        Holds folder (keyFor base suffix) payload ∧ after.1.get? name = none := by
  intro name after
  cases task with
  | clearing snapshot stage =>
      obtain ⟨rfl, hacknowledged⟩ := hsound
      have hkey : (session.removalOf snapshot).key = keyFor base snapshot.id.text := by
        rw [← hbase]
        rfl
      rcases entry_removal_cases hkey chances.removal folder suffix with
        hsame | ⟨rfl, hholds, hgone⟩
      · exact .inl hsame
      · exact .inr (.inr ⟨_, hacknowledged, hholds, hgone⟩)
  | dropping key payload pass stage =>
      obtain ⟨rfl, owner, rfl, hacknowledged⟩ := hsound
      have hkey : (Removal.mk (keyFor base owner) payload).key = keyFor base owner := rfl
      rcases entry_removal_cases hkey chances.removal folder suffix with
        hsame | ⟨rfl, hholds, hgone⟩
      · exact .inl hsame
      · exact .inr (.inr ⟨_, hacknowledged, hholds, hgone⟩)
  | keeping snapshot stamp stage =>
      obtain ⟨rfl, -⟩ := hsound
      have htemporary := entryName_ne_temporaryName (keyFor base suffix)
        (keyFor base snapshot.id.text) stamp
      rcases callStep_keeping_cases session now hbase chances folder stamp with
        ⟨hqueued, hholds, hothers⟩ | ⟨-, hothers⟩
      · by_cases howner : suffix = snapshot.id.text
        · subst howner
          exact .inr (.inl ⟨snapshot, stamp, rfl, rfl, congrArg Prod.snd hqueued, hholds⟩)
        · have hentry : name ≠ entryName (keyFor base snapshot.id.text) := fun heq =>
            howner (keyFor_injective (entryName_injective heq))
          exact .inl (hothers name hentry htemporary)
      · exact .inl (hothers name htemporary)
  | _ => exact .inl rfl

end Session

namespace World

variable {world : World n} {event : Event n}

/-- The entry of a key stays as it is, unless a save of the card whose key it is
returns and has written its payload there, or its content is acknowledged. -/
theorem entry_step (hsound : world.IsSound base) (hwhole : event.isWhole = true)
    (suffix : String) :
    let name := entryName (keyFor base suffix)
    (world.step event).folder.get? name = world.folder.get? name ∨
      (∃ job snapshot, snapshot.id.text = suffix ∧
        world.Returns event job snapshot .queued ∧
        Holds (world.step event).folder (keyFor base suffix) snapshot.payload) ∨
      ∃ payload, Acknowledged world.uploads suffix payload ∧
        Holds world.folder (keyFor base suffix) payload ∧
        (world.step event).folder.get? name = none := by
  intro name
  cases world.shift_step event with
  | quiet folder uploads documents serial jobs => exact .inl (by rw [folder])
  | launch folder uploads documents serial jobs fresh => exact .inl (by rw [folder])
  | answer found upload issued folder uploads documents serial jobs => exact .inl (by rw [folder])
  | file found folder uploads documents serial jobs => cases hwhole
  | @call job i task chances after found folder uploads documents serial jobs =>
      have htask := hsound.tasks _ (List.mem_of_getElem? found)
      rw [folder]
      rcases Session.entry_callStep world.now chances (hsound.bases i) htask suffix with
        hsame | ⟨snapshot, stamp, rfl, howner, hsaved, hholds⟩ | hgone
      · exact .inl hsame
      · refine .inr (.inl ⟨job, snapshot, howner, ⟨fun i hi => ?_, i, ?_⟩, hholds⟩)
        · rw [found] at hi
          cases hi
        · have hlt : job < world.jobs.length :=
            (List.getElem?_eq_some_iff.mp found).choose
          rw [jobs, List.getElem?_set_self hlt, hsaved]
      · exact .inr (.inr hgone)

/-- A save that returns as queued has written its payload to its entry. -/
theorem holds_of_returns_queued (hsound : world.IsSound base)
    (hwhole : event.isWhole = true) {job : Nat} {snapshot : Snapshot}
    (hreturns : world.Returns event job snapshot .queued) :
    Holds (world.step event).folder (keyFor base snapshot.id.text)
      snapshot.payload := by
  obtain ⟨i, ⟨houtcome, -⟩ | ⟨houtcome, -⟩ | ⟨chances, stamp, rfl, found, hsaved⟩⟩ :=
    hreturns.cases hwhole
  · cases houtcome
  · cases houtcome
  · have hfolder : (world.step (.call job chances)).folder =
        ((world.sessions.get i).callStep world.now chances world.folder
          (.keeping snapshot stamp .making)).1 := by
      simp only [World.step, found]
      rfl
    rw [hfolder]
    rcases Session.callStep_keeping_cases (world.sessions.get i) world.now
        (hsound.bases i) chances world.folder stamp with
      ⟨-, hholds, -⟩ | ⟨hlost, -⟩
    · exact hholds
    · rw [hlost] at hsaved
      cases hsaved

/-! ## Whole runs -/

theorem uploads_step (hwhole : event.isWhole = true) :
    ∃ later, (world.step event).uploads = world.uploads ++ later := by
  cases world.shift_step event with
  | quiet folder uploads documents serial jobs => exact ⟨[], by simp [uploads]⟩
  | launch folder uploads documents serial jobs fresh => exact ⟨[], by simp [uploads]⟩
  | answer found upload issued folder uploads documents serial jobs => exact ⟨_, uploads⟩
  | file found folder uploads documents serial jobs => cases hwhole
  | call found folder uploads documents serial jobs => exact ⟨[], by simp [uploads]⟩

/-- After some events a payload of a card stands in its entry, or the store has
acknowledged it, or on the way a save put another payload of the card in its
place. -/
def Retains (world : World n) (base : String) (id : ScorecardId) (payload : String)
    (events : List (Event n)) : Prop :=
  Holds (world.run events).folder (keyFor base id.text) payload ∨
    Acknowledged (world.run events).uploads id.text payload ∨
    ∃ before event after job other, events = before ++ event :: after ∧
      (world.run before).Returns event job ⟨id, other⟩ .queued ∧ other ≠ payload

theorem Retains.cons {id : ScorecardId} {payload : String} {events : List (Event n)}
    (hretains : (world.step event).Retains base id payload events) :
    world.Retains base id payload (event :: events) := by
  rcases hretains with
    hholds | hacknowledged | ⟨before, other, after, job, text, rfl, hreplaced⟩
  · exact .inl hholds
  · exact .inr (.inl hacknowledged)
  · exact .inr (.inr ⟨event :: before, other, after, job, text, rfl, hreplaced⟩)

/-- A payload that stands in its entry, or that the store has, is retained by any
run. -/
theorem retains_of_kept (hsound : world.IsSound base) {id : ScorecardId}
    {payload : String}
    (hkept : Holds world.folder (keyFor base id.text) payload ∨
      Acknowledged world.uploads id.text payload)
    {events : List (Event n)} (hwhole : ∀ event ∈ events, event.isWhole = true) :
    world.Retains base id payload events := by
  induction events generalizing world with
  | nil => exact hkept.imp_right .inl
  | cons event events ih =>
      have hevent := hwhole event List.mem_cons_self
      have hlater : ∀ later ∈ events, later.isWhole = true :=
        fun later hmem => hwhole later (List.mem_cons_of_mem _ hmem)
      have hsound' := hsound.step hevent
      obtain ⟨later, huploads⟩ := world.uploads_step hevent
      have hacknowledged (h : Acknowledged world.uploads id.text payload) :
          world.Retains base id payload (event :: events) := by
        refine (ih hsound' (.inr ?_) hlater).cons
        rw [huploads]
        exact h.append later
      rcases hkept with hholds | hkept
      · rcases entry_step hsound hevent id.text with
          hsame | ⟨job, ⟨owner, text⟩, howner, hreturns, hstored⟩ |
          ⟨found, hfound, hheld, -⟩
        · refine (ih hsound' (.inl ?_) hlater).cons
          rw [holds_iff, hsame]
          exact holds_iff.mp hholds
        · obtain rfl : owner = id := ScorecardId.text_injective howner
          by_cases htext : text = payload
          · subst htext
            exact (ih hsound' (.inl hstored) hlater).cons
          · exact .inr (.inr ⟨[], event, events, job, text, rfl, hreturns, htext⟩)
        · obtain rfl : found = payload := holds_unique hheld hholds
          exact hacknowledged hfound
      · exact hacknowledged hkept

end World

open World

/-- No queued payload is lost.  Any number of sessions share a folder and a base of
keys, and their saves, passes, timers and resumptions overlap in any order, each
call of the queue being one step.  Once a save has returned as queued, its payload
is retained from then on; and no step takes away an entry whose exact content the
store has not acknowledged under the id of that entry. -/
theorem queued_payloads_retained {sessions : Vector Session n} (folder : Folder)
    (hbase : ∀ i : Fin n, (sessions.get i).base = base) {events : List (Event n)}
    (hwhole : ∀ event ∈ events, event.isWhole = true) :
    (∀ before event after job snapshot, events = before ++ event :: after →
        ((World.new folder sessions).run before).Returns event job snapshot .queued →
        ((World.new folder sessions).run (before ++ [event])).Retains base
          snapshot.id snapshot.payload after) ∧
      ∀ before event after suffix node, events = before ++ event :: after →
        ((World.new folder sessions).run before).folder.get?
          (entryName (keyFor base suffix)) = some node →
        ((World.new folder sessions).run (before ++ [event])).folder.get?
          (entryName (keyFor base suffix)) = none →
        ∃ payload, node = .file payload.toByteArray ∧
          Acknowledged ((World.new folder sessions).run before).uploads
            suffix payload := by
  have hsplit {before after : List (Event n)} {event : Event n}
      (hevents : events = before ++ event :: after) :
      ((World.new folder sessions).run before).IsSound base ∧
        event.isWhole = true ∧ ∀ later ∈ after, later.isWhole = true := by
    subst hevents
    refine ⟨(isSound_new folder hbase).run fun earlier hmem => ?_, ?_, ?_⟩
    · exact hwhole earlier (List.mem_append_left _ hmem)
    · exact hwhole event (List.mem_append_right _ List.mem_cons_self)
    · intro later hmem
      exact hwhole later (List.mem_append_right _ (List.mem_cons_of_mem _ hmem))
  constructor
  · intro before event after job snapshot hevents hreturns
    obtain ⟨hsound, hevent, hafter⟩ := hsplit hevents
    rw [run_append]
    exact retains_of_kept (hsound.step hevent)
      (.inl (holds_of_returns_queued hsound hevent hreturns)) hafter
  · intro before event after suffix node hevents hpresent hgone
    obtain ⟨hsound, hevent, -⟩ := hsplit hevents
    rw [run_append] at hgone
    change (World.step _ event).folder.get? _ = none at hgone
    rcases entry_step hsound hevent suffix with
      hsame | ⟨job, snapshot, -, -, hstored⟩ | ⟨payload, hacknowledged, hheld, -⟩
    · rw [hgone, hpresent] at hsame
      cases hsame
    · have hentry := (holds_iff.mp hstored).2
      rw [hgone] at hentry
      cases hentry
    · have hentry := (holds_iff.mp hheld).2
      rw [hpresent] at hentry
      exact ⟨payload, Option.some.inj hentry, hacknowledged⟩

/-! ## Two sessions that overlap -/

def clubCard : ScorecardId where
  text := "1-aaaaaa"
  wellFormed := by decide

def twoSessions : Vector Session 2 :=
  #v[.new "queue" 15000 1, .new "queue" 15000 2]

/-- The first session cannot upload a card and turns to the queue. -/
def firstSave : List (Event 2) :=
  [.save 0 ⟨clubCard, "first"⟩, .answer 0 (.error (.unavailable "offline"))]

/-- The second session begins to resend the payload that was kept.  Before the
store answers, the first session keeps another one in its place. -/
def overlap : List (Event 2) :=
  [.retry 1, .call 1 .fine, .call 1 .fine, .save 0 ⟨clubCard, "second"⟩,
    .answer 2 (.error (.unavailable "offline")), .call 2 .fine, .answer 1 (.ok ()),
    .call 1 .fine]

theorem queued_payloads_retained_overlap :
    (∀ i : Fin 2, twoSessions[i].base = "queue") ∧
      (∀ event ∈ firstSave ++ .call 0 .fine :: overlap, event.isWhole = true) ∧
      ((World.new .absent twoSessions).run firstSave).Returns (.call 0 .fine) 0
        ⟨clubCard, "first"⟩ .queued ∧
      ((World.new .absent twoSessions).run (firstSave ++ [.call 0 .fine])).Retains
        "queue" clubCard "first" overlap := by
  have hbase : ∀ i : Fin 2, twoSessions[i].base = "queue" := by decide
  have hwhole : ∀ event ∈ firstSave ++ .call 0 .fine :: overlap,
      event.isWhole = true := by
    simp [firstSave, overlap, Event.isWhole]
  have hreturns : ((World.new .absent twoSessions).run firstSave).Returns
      (.call 0 .fine) 0 ⟨clubCard, "first"⟩ .queued := by
    refine ⟨fun i hi => ?_, 0, rfl⟩
    cases hi
  have hretained := (queued_payloads_retained .absent hbase hwhole).1 firstSave
    (.call 0 .fine) overlap 0 ⟨clubCard, "first"⟩ rfl hreturns
  exact ⟨hbase, hwhole, hreturns, hretained⟩

end Scorekeeper.Save
