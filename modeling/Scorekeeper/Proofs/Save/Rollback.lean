import Scorekeeper.Proofs.Save.Entries

/-!
# Passes that upload an older payload

A save that succeeds removes its entry only if the entry holds exactly what was
uploaded.  An older payload of the card may therefore outlive it in the queue, and
the next pass uploads that payload over the newer one.  This file proves that such
a leftover is the only way in which a pass can set the store back: what a pass
uploads is what stands in the entry, and what stands there was left by some save,
or by an earlier session; since then no save of the card was queued, and no removal
has taken the payload away.  A removal takes it away if it finds this very payload
and deletes it, or if it had found its own one there before and now deletes.
-/

namespace Scorekeeper.Save

open Queue Remote Files

variable {n : Nat} {base : String}

namespace Task

/-- The card that a save is about, while it runs and once it has returned. -/
def snapshot? : Task → Option Snapshot
  | .uploading snapshot => some snapshot
  | .clearing snapshot _ => some snapshot
  | .keeping snapshot _ _ => some snapshot
  | .saved snapshot _ => some snapshot
  | _ => none

end Task

namespace Session

variable {session : Session} {now : Nat} {task : Task}

theorem snapshot?_afterUpload {snapshot : Snapshot}
    (hsnapshot : task.snapshot? = some snapshot) (stamp : Stamp)
    (result : Except StorageError Unit) :
    (session.afterUpload now stamp result task).2.snapshot? = some snapshot := by
  cases task with
  | uploading other =>
      cases result with
      | ok _ => exact hsnapshot
      | error error =>
          obtain ⟨-, hkeeping⟩ | hlost :=
            session.afterUpload_error_cases now stamp error other
          · rw [hkeeping]
            exact hsnapshot
          · rw [hlost]
            exact hsnapshot
  | clearing other stage => exact hsnapshot
  | keeping other stamp stage => exact hsnapshot
  | saved other outcome => exact hsnapshot
  | _ => cases hsnapshot

variable {look : Luck} {folder : Folder} {turn : Session × Task}

/-- A save stays a save of the same payload. -/
theorem Turn.snapshot? {snapshot : Snapshot}
    (hturn : session.Turn now look folder task turn)
    (hsnapshot : task.snapshot? = some snapshot) : turn.2.snapshot? = some snapshot := by
  cases hturn with
  | resend key suffix payload pass read => cases hsnapshot
  | drop key payload pass stage next => cases hsnapshot
  | entry passing suffix pass => cases task <;> cases passing <;> cases hsnapshot
  | ended passing report => cases task <;> cases passing <;> cases hsnapshot
  | counted answer => cases hsnapshot
  | _ => exact hsnapshot

/-- A pass begins an upload only with a payload that it has just read. -/
theorem Turn.eq_resending {key suffix payload : String} {left : Pass}
    (hturn : session.Turn now look folder task turn)
    (hresending : turn.2 = .resending key suffix payload left) :
    task = .resending key suffix payload left ∨
      task = .reading key suffix left ∧ get look key folder = .ok (some payload) := by
  cases hturn with
  | still task => exact .inl hresending
  | resend other owner text pass read =>
      cases hresending
      exact .inr ⟨rfl, read⟩
  | ended passing report =>
      rw [task_endPass] at hresending
      cases hresending
  | counted answer =>
      cases answer with
      | ok found => cases found <;> cases hresending
      | error error => cases hresending
  | _ => cases hresending

/-- The answer of the store never begins an upload. -/
theorem afterUpload_eq_resending {stamp : Stamp} {result : Except StorageError Unit}
    {key suffix payload : String} {left : Pass}
    (hresending : (session.afterUpload now stamp result task).2 =
      .resending key suffix payload left) :
    task = .resending key suffix payload left := by
  cases task with
  | uploading snapshot =>
      cases result with
      | ok _ => cases hresending
      | error error =>
          obtain ⟨-, hkeeping⟩ | hlost :=
            session.afterUpload_error_cases now stamp error snapshot
          · rw [hkeeping] at hresending
            cases hresending
          · rw [hlost] at hresending
            cases hresending
  | resending other owner text pass =>
      cases result with
      | ok _ => cases hresending
      | error error =>
          have hturn : session.Turn now .fine .absent .listing
              (session.nextEntry now pass.report.addFailed pass.rest) :=
            session.turn_nextEntry now .fine .absent rfl _ _
          obtain hlisting | ⟨hlisting, -⟩ := hturn.eq_resending hresending
          · cases hlisting
          · cases hlisting
  | _ => exact hresending

/-! ## Entries that are taken away -/

variable {suffix payload : String}

theorem folder_fileStep_of_removal {removal : Removal} {stage : Removal.Stage}
    (hbase : session.base = base) (hremoval : task.removal? base = some (removal, stage))
    (luck : Luck) :
    (session.fileStep now luck folder task).1 = (removal.step luck stage folder).2 := by
  subst hbase
  cases task with
  | clearing snapshot stage =>
      cases hremoval
      exact folder_fileStep_clearing now luck snapshot _
  | dropping key payload pass stage =>
      cases hremoval
      exact folder_fileStep_dropping now luck key payload pass _
  | _ => cases hremoval

/-- A whole call carries out a removal that has not begun, and none that has. -/
theorem folder_callStep_of_removal {removal : Removal} {stage : Removal.Stage}
    (hbase : session.base = base) (hremoval : task.removal? base = some (removal, stage))
    (chances : Chances) :
    (session.callStep now chances folder task).1 =
      match stage with
      | .comparing => (removal.run chances.removal folder).2
      | _ => folder := by
  subst hbase
  cases task with
  | clearing snapshot stage =>
      cases hremoval
      cases stage <;> rfl
  | dropping key payload pass stage =>
      cases hremoval
      cases stage <;> rfl
  | _ => cases hremoval

/-- A text that stands in an entry is gone only after the move of a task that removes one. -/
theorem Move.removes_of_gone {move : Folder × Session × Task}
    (hmove : session.Move now folder task move) (hbase : session.base = base)
    (hplaced : task.IsPlaced base folder) (hholds : Holds folder (keyFor base suffix) payload)
    (hgone : move.1.get? (entryName (keyFor base suffix)) = none) :
    task.removal? base ≠ none := by
  have hentry := (holds_iff.mp hholds).2
  cases hmove.change now hbase hplaced with
  | still folder =>
      rw [folder, hentry] at hgone
      cases hgone
  | removed owner carries get? => exact carries
  | drafted snapshot stamp stage task others =>
      rw [others _ (entryName_ne_temporaryName _ _ stamp), hentry] at hgone
      cases hgone
  | kept snapshot stamp stage task next holds others =>
      by_cases howner : suffix = snapshot.id.text
      · rw [howner, (holds_iff.mp holds).2] at hgone
        cases hgone
      · have hname : entryName (keyFor base suffix) ≠
            entryName (keyFor base snapshot.id.text) := fun heq =>
          howner (keyFor_injective (entryName_injective heq))
        rw [others _ hname (entryName_ne_temporaryName _ _ stamp), hentry] at hgone
        cases hgone

/-- A call of the file system takes a text away exactly if it is a deletion of the entry. -/
theorem gone_fileStep_iff (now : Nat) (hbase : session.base = base)
    (hplaced : task.IsPlaced base folder) (hholds : Holds folder (keyFor base suffix) payload)
    (luck : Luck) :
    (session.fileStep now luck folder task).1.get? (entryName (keyFor base suffix)) = none ↔
      luck = .fine ∧ ∃ looked,
        task.removal? base = some (⟨keyFor base suffix, looked⟩, .deleting) := by
  have hmove : session.Move now folder task (session.fileStep now luck folder task) := .file luck
  have hremoves := hmove.removes_of_gone hbase hplaced hholds
  cases hremoval : task.removal? base with
  | none =>
      refine iff_of_false (fun hgone => hremoves hgone hremoval) ?_
      rintro ⟨-, looked, hsome⟩
      cases hsome
  | some carried =>
      obtain ⟨⟨key, looked⟩, stage⟩ := carried
      rw [folder_fileStep_of_removal hbase hremoval, Removal.gone_step_iff hholds]
      constructor
      · rintro ⟨rfl, rfl, hluck⟩
        exact ⟨hluck, looked, rfl⟩
      · rintro ⟨hluck, other, heq⟩
        cases heq
        exact ⟨rfl, rfl, hluck⟩

/-- A whole call takes a text away exactly if it removes that text. -/
theorem gone_callStep_iff (now : Nat) (hbase : session.base = base)
    (hplaced : task.IsPlaced base folder) (hholds : Holds folder (keyFor base suffix) payload)
    (chances : Chances) :
    (session.callStep now chances folder task).1.get? (entryName (keyFor base suffix)) = none ↔
      chances.removal = .fine ∧
        task.removal? base = some (⟨keyFor base suffix, payload⟩, .comparing) := by
  have hmove : session.Move now folder task (session.callStep now chances folder task) :=
    .call chances
  have hremoves := hmove.removes_of_gone hbase hplaced hholds
  cases hremoval : task.removal? base with
  | none =>
      refine iff_of_false (fun hgone => hremoves hgone hremoval) ?_
      rintro ⟨-, hsome⟩
      cases hsome
  | some carried =>
      obtain ⟨removal, stage⟩ := carried
      rw [folder_callStep_of_removal hbase hremoval]
      cases stage with
      | comparing =>
          rw [Removal.gone_run_iff hholds, and_comm]
          simp
      | _ =>
          rw [(holds_iff.mp hholds).2]
          simp

end Session

namespace World

variable {world : World n} {event : Event n}

/-- The payload that the save `job` is about. -/
def snapshot? (world : World n) (job : Nat) : Option Snapshot :=
  world.jobs[job]?.bind fun job => job.task.snapshot?

theorem snapshot?_step {job : Nat} {snapshot : Snapshot}
    (hsnapshot : world.snapshot? job = some snapshot) (event : Event n) :
    (world.step event).snapshot? job = some snapshot := by
  obtain ⟨old, hfound, htask⟩ := Option.bind_eq_some_iff.mp hsnapshot
  have hset {place : Nat} {i : Fin n} {task next : Task}
      (hplace : world.jobs[place]? = some { session := i, task })
      (hjobs : (world.step event).jobs =
        world.jobs.set place { session := i, task := next })
      (hkept : task.snapshot? = some snapshot → next.snapshot? = some snapshot) :
      (world.step event).snapshot? job = some snapshot := by
    rw [snapshot?]
    rw [hjobs, List.getElem?_set]
    split
    · next heq =>
      subst heq
      have hlt : place < world.jobs.length :=
        (List.getElem?_eq_some_iff.mp hfound).choose
      rw [if_pos hlt]
      rw [hplace] at hfound
      cases hfound
      exact hkept htask
    · exact hsnapshot
  cases world.shift_step event with
  | quiet folder uploads documents serial jobs =>
      rw [snapshot?]
      rw [jobs]
      exact hsnapshot
  | launch folder uploads documents serial jobs fresh =>
      have hlt : job < world.jobs.length := (List.getElem?_eq_some_iff.mp hfound).choose
      rw [snapshot?]
      rw [jobs, List.getElem?_append_left hlt]
      exact hsnapshot
  | answer found upload issued folder uploads documents serial jobs =>
      exact hset found jobs fun htask => Session.snapshot?_afterUpload htask _ _
  | file found folder uploads documents serial jobs =>
      exact hset found jobs (Session.turn_fileStep _ _ _ _ _).snapshot?
  | call found folder uploads documents serial jobs =>
      exact hset found jobs (Session.turn_callStep _ _ _ _ _).snapshot?

theorem snapshot?_run {job : Nat} {snapshot : Snapshot}
    (hsnapshot : world.snapshot? job = some snapshot) (events : List (Event n)) :
    (world.run events).snapshot? job = some snapshot := by
  induction events generalizing world with
  | nil => exact hsnapshot
  | cons event events ih => exact ih (snapshot?_step hsnapshot event)

theorem Returns.snapshot? {job : Nat} {snapshot : Snapshot} {outcome : Outcome}
    (hreturns : world.Returns event job snapshot outcome) :
    (world.step event).snapshot? job = some snapshot := by
  obtain ⟨-, i, hafter⟩ := hreturns
  rw [World.snapshot?]
  rw [hafter]
  rfl

/-! ## What stands in an entry -/

/-- With the event a job takes away the payload that stands in the entry of a card.  It
deletes the entry after having found its own payload there, whatever has become of that;
or in one call it finds the payload that stands there to be its own and deletes it. -/
inductive TakesAway (base : String) (id : ScorecardId) (payload : String)
    (world : World n) : Event n → Prop where
  | deletes {job : Nat} {i : Fin n} {task : Task} {looked : String}
      (found : world.jobs[job]? = some { session := i, task })
      (removal : task.removal? base =
        some (⟨keyFor base id.text, looked⟩, .deleting)) :
      TakesAway base id payload world (.file job .fine)
  | removes {job : Nat} {i : Fin n} {task : Task} {chances : Session.Chances}
      (found : world.jobs[job]? = some { session := i, task })
      (removal : task.removal? base =
        some (⟨keyFor base id.text, payload⟩, .comparing))
      (unhindered : chances.removal = .fine) :
      TakesAway base id payload world (.call job chances)

/-- An event that leaves the payload in the entry of a card: no save of the card returns
as queued, and no removal takes the payload away. -/
def Spares (base : String) (id : ScorecardId) (payload : String) (world : World n)
    (event : Event n) : Prop :=
  (∀ job text, ¬world.Returns event job ⟨id, text⟩ .queued) ∧
    ¬world.TakesAway base id payload event

/-- All events of a run leave the payload in the entry of a card. -/
def SparesAll (base : String) (id : ScorecardId) (payload : String) :
    World n → List (Event n) → Prop
  | _, [] => True
  | world, event :: events =>
      world.Spares base id payload event ∧ SparesAll base id payload (world.step event) events

/-- The save `writer` has put `payload` into the entry of a card, and it has been left
there since. -/
def LeftBy (base : String) (id : ScorecardId) (payload : String) (writer : Nat)
    (world : World n) (events : List (Event n)) : Prop :=
  ∃ before event after, events = before ++ event :: after ∧
    (world.run before).Returns event writer ⟨id, payload⟩ .queued ∧
    SparesAll base id payload ((world.run before).step event) after

variable {id : ScorecardId} {payload : String} {writer : Nat}

theorem not_leftBy_nil : ¬LeftBy base id payload writer world [] := by
  rintro ⟨before, event, after, hevents, -⟩
  cases before <;> cases hevents

theorem leftBy_cons_iff {events : List (Event n)} :
    LeftBy base id payload writer world (event :: events) ↔
      (world.Returns event writer ⟨id, payload⟩ .queued ∧
          SparesAll base id payload (world.step event) events) ∨
        LeftBy base id payload writer (world.step event) events := by
  constructor
  · rintro ⟨before, other, after, hevents, hreturns, hspared⟩
    cases before with
    | nil =>
        cases hevents
        exact .inl ⟨hreturns, hspared⟩
    | cons first before =>
        cases hevents
        exact .inr ⟨before, other, after, rfl, hreturns, hspared⟩
  · rintro (⟨hreturns, hspared⟩ | ⟨before, other, after, rfl, hreturns, hspared⟩)
    · exact ⟨[], event, events, rfl, hreturns, hspared⟩
    · exact ⟨event :: before, other, after, rfl, hreturns, hspared⟩

theorem LeftBy.snapshot? {events : List (Event n)}
    (hleft : LeftBy base id payload writer world events) :
    (world.run events).snapshot? writer = some ⟨id, payload⟩ := by
  obtain ⟨before, event, after, rfl, hreturns, -⟩ := hleft
  rw [run_append, run_cons]
  exact snapshot?_run hreturns.snapshot? after

/-- A payload that stands in an entry is gone after an event exactly if that takes it
away. -/
theorem IsPlaced.gone_iff_takesAway (hplaced : world.IsPlaced base)
    (hholds : Holds world.folder (keyFor base id.text) payload) :
    (world.step event).folder.get? (entryName (keyFor base id.text)) = none ↔
      world.TakesAway base id payload event := by
  have hfile {job : Nat} {i : Fin n} {task : Task} (luck : Luck)
      (hfound : world.jobs[job]? = some { session := i, task }) :=
    Session.gone_fileStep_iff world.now (hplaced.bases i) (hplaced.tasks job _ hfound) hholds luck
  have hcall {job : Nat} {i : Fin n} {task : Task} (chances : Session.Chances)
      (hfound : world.jobs[job]? = some { session := i, task }) :=
    Session.gone_callStep_iff world.now (hplaced.bases i) (hplaced.tasks job _ hfound) hholds
      chances
  constructor
  · intro hgone
    have hstands {after : Folder} (hsame : after = world.folder) :
        after.get? (entryName (keyFor base id.text)) ≠ none := by
      rw [hsame, (holds_iff.mp hholds).2]
      nofun
    cases world.shift_step event with
    | quiet folder uploads documents serial jobs => exact absurd hgone (hstands folder)
    | launch folder uploads documents serial jobs fresh => exact absurd hgone (hstands folder)
    | answer found upload issued folder uploads documents serial jobs =>
        exact absurd hgone (hstands folder)
    | file found folder uploads documents serial jobs =>
        rw [folder] at hgone
        obtain ⟨rfl, looked, hremoval⟩ := (hfile _ found).mp hgone
        exact .deletes found hremoval
    | call found folder uploads documents serial jobs =>
        rw [folder] at hgone
        obtain ⟨hchances, hremoval⟩ := (hcall _ found).mp hgone
        exact .removes found hremoval hchances
  · intro htakes
    cases htakes with
    | deletes found removal =>
        simp only [World.step, found, proceed]
        exact (hfile .fine found).mpr ⟨rfl, _, removal⟩
    | removes found removal unhindered =>
        simp only [World.step, found, proceed]
        exact (hcall _ found).mpr ⟨unhindered, removal⟩

/-- An entry holds a payload after an event exactly if a save of it returns as
queued, or the entry held the payload before and it is left there. -/
theorem IsPlaced.holds_step_iff (hplaced : world.IsPlaced base) :
    Holds (world.step event).folder (keyFor base id.text) payload ↔
      (Holds world.folder (keyFor base id.text) payload ∧ world.Spares base id payload event) ∨
        ∃ writer, world.Returns event writer ⟨id, payload⟩ .queued := by
  constructor
  · intro hholds
    by_cases hwritten : ∃ job text, world.Returns event job ⟨id, text⟩ .queued
    · obtain ⟨job, text, hreturns⟩ := hwritten
      have htext : text = payload :=
        holds_unique (hplaced.holds_of_returns hreturns) hholds
      subst htext
      exact .inr ⟨job, hreturns⟩
    · obtain hsame | ⟨job, ⟨owner, text⟩, howner, hreturns⟩ | hgone :=
        hplaced.entry_step event id.text
      · have hstands := (holds_iff.mp hholds).2
        rw [holds_iff, hsame, ← holds_iff] at hholds
        refine .inl ⟨hholds, fun job text hreturns => hwritten ⟨job, text, hreturns⟩, ?_⟩
        intro htakes
        rw [(hplaced.gone_iff_takesAway hholds).mpr htakes] at hstands
        cases hstands
      · obtain rfl : owner = id := ScorecardId.text_injective howner
        exact absurd ⟨job, text, hreturns⟩ hwritten
      · have hentry := (holds_iff.mp hholds).2
        rw [hgone] at hentry
        cases hentry
  · rintro (⟨hholds, hunwritten, huntaken⟩ | ⟨writer, hreturns⟩)
    · obtain hsame | ⟨job, ⟨owner, text⟩, howner, hreturns⟩ | hgone :=
        hplaced.entry_step event id.text
      · rw [holds_iff, hsame]
        exact holds_iff.mp hholds
      · obtain rfl : owner = id := ScorecardId.text_injective howner
        exact absurd hreturns (hunwritten job text)
      · exact absurd ((hplaced.gone_iff_takesAway hholds).mp hgone) huntaken
    · have hholds := hplaced.holds_of_returns hreturns
      exact hholds

/-- After a run an entry holds a payload exactly if some save left it there, or it
held the payload from the start and was left to itself. -/
theorem IsPlaced.holds_run_iff (hplaced : world.IsPlaced base)
    {events : List (Event n)} (hroom : world.serial.toNat + events.length < UInt64.size) :
    Holds (world.run events).folder (keyFor base id.text) payload ↔
      (Holds world.folder (keyFor base id.text) payload ∧
          SparesAll base id payload world events) ∨
        ∃ writer, LeftBy base id payload writer world events := by
  induction events generalizing world with
  | nil => simp [SparesAll, not_leftBy_nil]
  | cons event events ih =>
      rw [List.length_cons] at hroom
      have hserial := world.serial_step_le event
      have hstep := hplaced.step event (by omega)
      rw [run_cons, ih hstep (by omega), hplaced.holds_step_iff]
      simp only [leftBy_cons_iff, SparesAll]
      constructor
      · rintro (⟨⟨hholds, hspares⟩ | ⟨writer, hreturns⟩, hspared⟩ | ⟨writer, hleft⟩)
        · exact .inl ⟨hholds, hspares, hspared⟩
        · exact .inr ⟨writer, .inl ⟨hreturns, hspared⟩⟩
        · exact .inr ⟨writer, .inr hleft⟩
      · rintro (⟨hholds, hspares, hspared⟩ | ⟨writer, ⟨hreturns, hspared⟩ | hleft⟩)
        · exact .inl ⟨.inl ⟨hholds, hspares⟩, hspared⟩
        · exact .inl ⟨.inr ⟨writer, hreturns⟩, hspared⟩
        · exact .inr ⟨writer, hleft⟩

/-- A save that the store took compares what stands in the entry of its card with its own
payload, and nothing hinders it. -/
def Compares (world : World n) (event : Event n) (job : Nat) (snapshot : Snapshot) : Prop :=
  (∃ i, world.jobs[job]? = some { session := i, task := .clearing snapshot .comparing }) ∧
    (event = .file job .fine ∨
      ∃ chances, event = .call job chances ∧ chances.removal.compare = .fine)

/-- A save that finds another payload than its own returns as saved and leaves it there. -/
def LeavesOthers (base : String) (world : World n) (event : Event n) : Prop :=
  ∀ job snapshot payload, world.Compares event job snapshot →
    Holds world.folder (keyFor base snapshot.id.text) payload → payload ≠ snapshot.payload →
      world.Returns event job snapshot .saved ∧
        Holds (world.step event).folder (keyFor base snapshot.id.text) payload

theorem IsPlaced.leavesOthers (hplaced : world.IsPlaced base) (event : Event n) :
    world.LeavesOthers base event := by
  intro job snapshot payload hcompares hholds hother
  obtain ⟨⟨i, hfound⟩, hevent⟩ := hcompares
  have hlt : job < world.jobs.length := (List.getElem?_eq_some_iff.mp hfound).choose
  have hbase := hplaced.bases i
  have hget : get .fine (keyFor base snapshot.id.text) world.folder = .ok (some payload) := hholds
  have hstep : ((world.sessions.get i).removalOf snapshot).step .fine .comparing world.folder =
      (.done (.ok false), world.folder) := by
    simp [Removal.step, Session.removalOf, Session.entryOf, hbase, hget, hother]
  have hmove : world.step event = world.proceed job i
      (world.folder, (world.sessions.get i).afterClearing world.now snapshot) := by
    obtain rfl | ⟨chances, rfl, hcompare⟩ := hevent
    · simp only [World.step, hfound, Session.fileStep, hstep]
    · simp only [World.step, hfound, Session.callStep, Removal.run, hcompare, hstep]
  have hsaved : (world.step event).jobs[job]? =
      some { session := i, task := .saved snapshot .saved } := by
    rw [hmove]
    exact List.getElem?_set_self hlt
  refine ⟨⟨fun j hbefore => ?_, i, hsaved⟩, ?_⟩
  · rw [hfound] at hbefore
    cases hbefore
  · rw [hmove]
    exact hholds

/-! ## What a pass uploads -/

/-- At the event a pass begins to upload a payload of a card. -/
def Resends (world : World n) (event : Event n) (pass : Nat) (id : ScorecardId)
    (payload : String) : Prop :=
  (∀ i key left, world.jobs[pass]? ≠
      some { session := i, task := .resending key id.text payload left }) ∧
    ∃ i key left, (world.step event).jobs[pass]? =
      some { session := i, task := .resending key id.text payload left }

/-- At the event a pass reads the entry of a card, and the reading goes well. -/
def Reads (base : String) (world : World n) (event : Event n) (pass : Nat)
    (id : ScorecardId) : Prop :=
  (∃ i left, world.jobs[pass]? =
      some { session := i, task := .reading (keyFor base id.text) id.text left }) ∧
    (event = .file pass .fine ∨ ∃ chances, event = .call pass chances ∧ chances.look = .fine)

/-- A pass uploads what it finds in the entry. -/
theorem IsPlaced.resends_iff (hplaced : world.IsPlaced base) {pass : Nat} :
    world.Resends event pass id payload ↔
      world.Reads base event pass id ∧
        Holds world.folder (keyFor base id.text) payload := by
  constructor
  · rintro ⟨hbefore, i, key, left, hafter⟩
    obtain hfresh | ⟨task, hfound, hmove⟩ := task_step_cases hafter (hbefore i key left)
    · cases hfresh
    · have htask := hplaced.tasks pass _ hfound
      have hread {look : Luck} {turn : Session × Task}
          (hturn : (world.sessions.get i).Turn world.now look world.folder task turn)
          (hnext : .resending key id.text payload left = turn.2) :
          task = .reading (keyFor base id.text) id.text left ∧ look = .fine ∧
            Holds world.folder (keyFor base id.text) payload := by
        obtain rfl | ⟨rfl, hget⟩ := hturn.eq_resending hnext.symm
        · exact absurd hfound (hbefore i key left)
        · cases htask
          obtain ⟨hlook, hentry⟩ := get_eq_some_iff.mp hget
          exact ⟨rfl, hlook, holds_iff.mpr hentry⟩
      obtain ⟨stamp, result, -, hnext⟩ | ⟨luck, rfl, -, hnext⟩ |
        ⟨chances, rfl, -, hnext⟩ := hmove
      · rw [Session.afterUpload_eq_resending hnext.symm] at hfound
        exact absurd hfound (hbefore i key left)
      · obtain ⟨rfl, rfl, hholds⟩ := hread (Session.turn_fileStep _ _ _ _ _) hnext
        exact ⟨⟨⟨i, left, hfound⟩, .inl rfl⟩, hholds⟩
      · obtain ⟨rfl, hlook, hholds⟩ := hread (Session.turn_callStep _ _ _ _ _) hnext
        exact ⟨⟨⟨i, left, hfound⟩, .inr ⟨chances, rfl, hlook⟩⟩, hholds⟩
  · rintro ⟨⟨⟨i, left, hfound⟩, hevent⟩, hholds⟩
    have hlt : pass < world.jobs.length := (List.getElem?_eq_some_iff.mp hfound).choose
    have hmove : (world.sessions.get i).fileStep world.now .fine world.folder
        (.reading (keyFor base id.text) id.text left) =
          (world.folder, world.sessions.get i,
            .resending (keyFor base id.text) id.text payload left) := by
      simp only [Session.fileStep, show get .fine _ _ = _ from hholds, Session.afterReading]
    refine ⟨fun j key other hother => ?_, i, keyFor base id.text, left, ?_⟩
    · rw [hfound] at hother
      cases hother
    · obtain rfl | ⟨chances, rfl, hlook⟩ := hevent
      · simp only [World.step, hfound, proceed, hmove]
        exact List.getElem?_set_self hlt
      · simp only [World.step, hfound, proceed, Session.callStep, hlook, hmove]
        exact List.getElem?_set_self hlt

/-- A run comes to `event` after `before`.  On the way there the store took the upload
of the save `version` of a card, and the pass `pass` began only after that. -/
structure Occasion (start : World n) (events : List (Event n)) (id : ScorecardId)
    (version pass : Nat) (before : List (Event n)) (event : Event n) : Prop where
  reached : ∃ closing, events = before ++ event :: closing
  taken : ∃ opening middle text i, before = opening ++ .answer version (.ok ()) :: middle ∧
    (start.run opening).jobs[version]? =
      some { session := i, task := .uploading ⟨id, text⟩ } ∧
    (start.run opening).jobs.length ≤ pass

/-- The payload is that of the save `version` of the card, or of a later one. -/
def IsCurrent (world : World n) (version : Nat) (id : ScorecardId) (payload : String) :
    Prop :=
  ∃ newer, version ≤ newer ∧ world.snapshot? newer = some ⟨id, payload⟩

/-- Once the store has taken the upload of a save, no pass that begins afterwards
uploads an older payload of the card. -/
def PassesUploadCurrent (start : World n) (events : List (Event n)) (id : ScorecardId) :
    Prop :=
  ∀ version pass before event payload,
    start.Occasion events id version pass before event →
    (start.run before).Resends event pass id payload →
    (start.run events).IsCurrent version id payload

/-- When such a pass reads the entry of the card, nothing older has been left there:
neither by the time before the run nor by an older save. -/
def NothingLeftBehind (base : String) (start : World n) (events : List (Event n))
    (id : ScorecardId) : Prop :=
  ∀ version pass before event payload,
    start.Occasion events id version pass before event →
    (start.run before).Reads base event pass id →
    (Holds start.folder (keyFor base id.text) payload ∧ SparesAll base id payload start before) ∨
      (∃ older, older < version ∧ LeftBy base id payload older start before) →
    (start.run events).IsCurrent version id payload

end World

open World

/-- When a pass sets the store back.  Any number of sessions share a folder and a base
of keys; their saves, passes and timers overlap in any order, down to the single calls
of the file system.  The passes upload no older payload if and only if none has been
left behind for them.  A save that the store took leaves every payload behind but its
own. -/
theorem passesUploadCurrent_iff {sessions : Vector Session n} (folder : Folder)
    (hbase : ∀ i : Fin n, (sessions.get i).base = base) {events : List (Event n)}
    (hroom : events.length < UInt64.size) (id : ScorecardId) :
    ((World.new folder sessions).PassesUploadCurrent events id ↔
        (World.new folder sessions).NothingLeftBehind base events id) ∧
      ∀ before event after, events = before ++ event :: after →
        ((World.new folder sessions).run before).LeavesOthers base event := by
  obtain ⟨start, hnew⟩ : ∃ start, start = World.new folder sessions := ⟨_, rfl⟩
  have hstart : start.IsPlaced base := hnew ▸ isPlaced_new folder hbase
  have hserial : start.serial.toNat = 0 := by
    rw [hnew]
    rfl
  rw [← hnew]
  have hfits {before after : List (Event n)} {event : Event n}
      (hsplit : events = before ++ event :: after) :
      start.serial.toNat + before.length < UInt64.size := by
    rw [hsplit, List.length_append] at hroom
    omega
  refine ⟨?_, fun before event after hsplit => (hstart.run (hfits hsplit)).leavesOthers event⟩
  have hbefore {version pass : Nat} {before : List (Event n)} {event : Event n}
      (hoccasion : start.Occasion events id version pass before event) :
      start.serial.toNat + before.length < UInt64.size :=
    hfits hoccasion.reached.choose_spec
  constructor
  · intro hcurrent version pass before event payload hoccasion hreads hleft
    have hholds : Holds (start.run before).folder (keyFor base id.text) payload := by
      rw [hstart.holds_run_iff (hbefore hoccasion)]
      obtain hold | ⟨older, -, hleft⟩ := hleft
      · exact .inl hold
      · exact .inr ⟨older, hleft⟩
    have hresends : (start.run before).Resends event pass id payload :=
      (hstart.run (hbefore hoccasion)).resends_iff.mpr ⟨hreads, hholds⟩
    exact hcurrent version pass before event payload hoccasion hresends
  · intro hnone version pass before event payload hoccasion hresends
    obtain ⟨hreads, hholds⟩ :=
      (hstart.run (hbefore hoccasion)).resends_iff.mp hresends
    rw [hstart.holds_run_iff (hbefore hoccasion)] at hholds
    obtain hold | ⟨writer, hleft⟩ := hholds
    · exact hnone version pass before event payload hoccasion hreads (.inl hold)
    · by_cases holder : writer < version
      · exact hnone version pass before event payload hoccasion hreads
          (.inr ⟨writer, holder, hleft⟩)
      · -- a save from `version` on has left its own payload
        refine ⟨writer, Nat.not_lt.mp holder, ?_⟩
        obtain ⟨closing, rfl⟩ := hoccasion.reached
        rw [run_append]
        exact snapshot?_run hleft.snapshot? _

/-! ## An older payload that comes back -/

def roundCard : ScorecardId where
  text := "2-bbbbbb"
  wellFormed := by decide

def loneSession : Vector Session 1 :=
  #v[.new "queue" 15000 1]

/-- The first payload has to be kept in the queue, and a second one is on its way. -/
def twoPayloads : List (Event 1) :=
  [.save sole ⟨roundCard, "first"⟩, .answer 0 (.error (.unavailable "offline")),
    .call 0 .fine, .save sole ⟨roundCard, "second"⟩]

/-- The store takes the second payload, and a pass comes to the entry. -/
def laterPass : List (Event 1) :=
  twoPayloads ++ .answer 1 (.ok ()) :: [.call 1 .fine, .retry sole, .call 2 .fine]

/-- The pass reads the entry. -/
def throughReading : List (Event 1) :=
  laterPass ++ [.call 2 .fine]

theorem occasion_laterPass :
    (World.new .absent loneSession).Occasion throughReading roundCard 1 2 laterPass
      (.call 2 .fine) where
  reached := ⟨[], rfl⟩
  taken := ⟨twoPayloads, [.call 1 .fine, .retry sole, .call 2 .fine], "second", 0, rfl, rfl,
    by decide⟩

theorem resends_laterPass :
    ((World.new .absent loneSession).run laterPass).Resends (.call 2 .fine) 2 roundCard
      "first" := by
  refine ⟨fun i key left hresending => ?_, 0, "queue.2-bbbbbb", ⟨[], .zero⟩, rfl⟩
  cases hresending

theorem not_isCurrent_laterPass :
    ¬((World.new .absent loneSession).run throughReading).IsCurrent 1 roundCard
      "first" := by
  rintro ⟨newer, hnewer, hsnapshot⟩
  match newer with
  | 0 => cases hnewer
  | 1 =>
      change some (Snapshot.mk roundCard "second") = some ⟨roundCard, "first"⟩ at hsnapshot
      simp at hsnapshot
  | 2 => cases hsnapshot
  | newer + 3 => cases hsnapshot

/-- The first payload stands in the entry, since the save of the second one removed
nothing, and the pass uploads it over the second. -/
theorem not_passesUploadCurrent_laterPass :
    ¬(World.new .absent loneSession).PassesUploadCurrent throughReading roundCard := by
  intro hcurrent
  exact not_isCurrent_laterPass
    (hcurrent 1 2 laterPass (.call 2 .fine) "first" occasion_laterPass resends_laterPass)

theorem not_nothingLeftBehind_laterPass :
    (∀ i : Fin 1, (loneSession.get i).base = "queue") ∧
      throughReading.length < UInt64.size ∧
      ¬(World.new .absent loneSession).NothingLeftBehind "queue" throughReading
        roundCard := by
  have hbase : ∀ i : Fin 1, (loneSession.get i).base = "queue" := by decide
  have hroom : throughReading.length < UInt64.size := by decide
  refine ⟨hbase, hroom, fun hnone => ?_⟩
  have hcurrent := (passesUploadCurrent_iff .absent hbase hroom roundCard).1.mpr hnone
  exact not_isCurrent_laterPass
    (hcurrent 1 2 laterPass (.call 2 .fine) "first" occasion_laterPass resends_laterPass)

end Scorekeeper.Save
