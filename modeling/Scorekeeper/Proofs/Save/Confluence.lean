import Scorekeeper.Proofs.Replaced
import Scorekeeper.Proofs.Save.Passes

/-!
# Passes over one queue are confluent

Any number of passes of any number of sessions go through one queue, their calls of the
file system and the answers of the store coming in any order.  The invariant says that an
entry is as it was or gone, that it goes only after the store took its payload, and that a
pass whose payload the store took stays with the entry until it is gone.  So, when all
passes have ended, the entries that are left and the documents of the store depend on
nothing but the entries that the store took from some pass.
-/

namespace Scorekeeper.Save

open Queue Remote Files

namespace World

variable {n : Nat}

/-- What an event tells a pass about an entry. -/
def note? (world : World n) : Event n → Option Note
  | .answer job result => world.jobs[job]?.bind (·.task.noteOfAnswer job result.isOk)
  | .file job _ => world.jobs[job]?.bind (·.task.noteOfRead job world.folder)
  | _ => none

/-- What the passes of a run find out, in the order of the run. -/
def notes : World n → List (Event n) → List Note
  | _, [] => []
  | world, event :: events => (world.note? event).toList ++ notes (world.step event) events

/-- The task of a job, once there is one. -/
def task? (world : World n) (job : Nat) : Option Task :=
  world.jobs[job]?.map Job.task

/-- An event of passes: nothing moves but the clock, the timers and the sessions, and
maybe a pass begins, or a pass makes a step. -/
inductive Advance (base : String) (world : World n) :
    Event n → Option Note → World n → Prop where
  | still {event : Event n} {after : World n} {new : List (Job n)}
      (folder : after.folder = world.folder)
      (documents : after.documents = world.documents)
      (jobs : after.jobs = world.jobs ++ new)
      (listing : ∀ job ∈ new, job.task = .listing) : Advance base world event none after
  | go {event : Event n} {job : Nat} {i : Fin n} {task next : Task} {note : Option Note}
      {after : World n}
      (found : world.jobs[job]? = some { session := i, task })
      (step : PassStep base job world.folder world.documents task note after.folder
        after.documents next)
      (jobs : after.jobs = world.jobs.set job { session := i, task := next })
      (listing : task = .listing → event = .file job .fine) :
      Advance base world event note after

/-- Some pass is about to remove an entry. -/
def Drops (world : World n) (key : String) : Prop :=
  ∃ job ∈ world.jobs, job.task.dropped? = some key

/-- What holds while passes go through a stock of entries: `before` are the documents
that the store had at first, and `notes` what the passes have found out since. -/
structure IsDraining (base : String) (origin : Folder) (listed : List String)
    (before : List (String × String)) (notes : List Note) (world : World n) : Prop where
  bases : world.HasBase base
  remains : Remains origin world.folder
  about : ∀ job ∈ world.jobs, job.task.IsAbout base origin listed
  gone : ∀ key ∈ listed, world.folder.get? (entryName key) = none → Taken notes key
  dropped : ∀ key, world.Drops key → Taken notes key
  taken : ∀ key, Taken notes key →
    world.folder.get? (entryName key) = none ∨ world.Drops key
  documents : ∀ key suffix payload, suffixOf base key = some suffix →
    Holds origin key payload →
    world.documents.lookup (DocumentKey.scorecard suffix).path =
      if Taken notes key then some payload
      else before.lookup (DocumentKey.scorecard suffix).path

variable {base : String} {origin : Folder} {listed : List String}
  {before : List (String × String)} {notes : List Note} {world : World n} {event : Event n}

theorem isDraining_of_isFinished (hstock : Stock base world.folder listed)
    (hbase : world.HasBase base) (hidle : ∀ job ∈ world.jobs, job.task.isFinished = true) :
    world.IsDraining base world.folder listed world.documents [] where
  bases := hbase
  remains := hstock.remains
  about job hmem := Task.isAbout_of_isFinished (hidle job hmem) _ _ _
  gone key hmem hgone := by
    obtain ⟨hentry, -⟩ := (mem_keys_iff hstock.keys).mp hmem
    rw [hgone] at hentry
    cases hentry
  dropped := by
    rintro key ⟨job, hmem, hdropped⟩
    rw [Task.dropped?_of_isFinished (hidle job hmem)] at hdropped
    cases hdropped
  taken := by
    rintro key ⟨note, hmem, -⟩
    cases hmem
  documents key suffix payload _ _ := by
    rw [if_neg]
    rintro ⟨note, hmem, -⟩
    cases hmem

theorem IsDraining.advance (hdraining : world.IsDraining base origin listed before notes)
    (hstock : Stock base origin listed) (hpasses : event.isOfPasses = true) :
    world.Advance base event (world.note? event) (world.step event) := by
  have hstill {event : Event n} {after : World n} (hfolder : after.folder = world.folder)
      (hdocuments : after.documents = world.documents) (hjobs : after.jobs = world.jobs) :
      world.Advance base event none after :=
    .still hfolder hdocuments (hjobs.trans (List.append_nil _).symm) (by simp)
  cases event with
  | save i snapshot => cases hpasses
  | resume i => cases hpasses
  | call job chances => cases hpasses
  | retry i => exact .still rfl rfl rfl (by simp [Session.beginPass])
  | schedule i => exact hstill rfl rfl rfl
  | cancel i => exact hstill rfl rfl rfl
  | wait duration => exact hstill rfl rfl rfl
  | expire i generation =>
      simp only [step]
      split
      · exact .still rfl rfl rfl (by simp [Session.beginPass])
      · exact hstill rfl rfl rfl
  | answer job result =>
      cases hfound : world.jobs[job]? with
      | none =>
          simp only [step, World.answer, note?, hfound]
          exact hstill rfl rfl rfl
      | some old =>
          obtain ⟨i, task⟩ := old
          have habout := hdraining.about _ (List.mem_of_getElem? hfound)
          simp only [step, World.answer, note?, hfound, Option.bind_some]
          cases task with
          | resending key suffix payload pass =>
              exact .go hfound (Session.passStep_afterUpload world.now job world.documents
                (hdraining.bases i) hstock _ result habout.2.2.2) rfl (by simp)
          | uploading snapshot => cases habout
          | _ => exact hstill rfl rfl rfl
  | file job luck =>
      obtain rfl : luck = .fine := of_decide_eq_true hpasses
      cases hfound : world.jobs[job]? with
      | none =>
          simp only [step, note?, hfound]
          exact hstill rfl rfl rfl
      | some old =>
          obtain ⟨i, task⟩ := old
          have habout := hdraining.about _ (List.mem_of_getElem? hfound)
          simp only [step, note?, hfound, Option.bind_some]
          obtain ⟨hmove, hnote⟩ | hstep :=
            Session.passStep_fileStep world.now job world.documents (hdraining.bases i) hstock
              hdraining.remains habout
          · rw [hmove, hnote, proceed_self hfound]
            exact hstill rfl rfl rfl
          · exact .go hfound hstep rfl fun _ => rfl

theorem IsDraining.of_go (hdraining : world.IsDraining base origin listed before notes)
    (hstock : Stock base origin listed) {after : World n} {job : Nat} {i : Fin n}
    {task next : Task} {note : Option Note} (hbases : after.HasBase base)
    (hfound : world.jobs[job]? = some { session := i, task })
    (hstep : PassStep base job world.folder world.documents task note after.folder
      after.documents next)
    (hjobs : after.jobs = world.jobs.set job { session := i, task := next }) :
    after.IsDraining base origin listed before (notes ++ note.toList) := by
  have hmem := List.mem_of_getElem? hfound
  have habout := hdraining.about _ hmem
  have hnext : { session := i, task := next } ∈ after.jobs := by
    rw [hjobs]
    exact List.mem_set (List.getElem?_eq_some_iff.mp hfound).1 _
  have htaken := hstep.taken_iff notes
  refine ⟨hbases, hstep.remains hdraining.remains, ?_, ?_, ?_, ?_, ?_⟩
  · intro other hother
    rw [hjobs] at hother
    obtain hother | rfl := List.mem_or_eq_of_mem_set hother
    · exact hdraining.about other hother
    · exact hstep.isAbout hstock hdraining.remains habout
  · intro key hlisted hgone
    obtain hgone | hdropped := hstep.dropped_of_gone hgone
    · exact (htaken key).mpr (.inl (hdraining.gone key hlisted hgone))
    · exact (htaken key).mpr (.inl (hdraining.dropped key ⟨_, hmem, hdropped⟩))
  · rintro key ⟨other, hother, hdropped⟩
    rw [htaken]
    rw [hjobs] at hother
    obtain hother | rfl := List.mem_or_eq_of_mem_set hother
    · exact .inl (hdraining.dropped key ⟨other, hother, hdropped⟩)
    · obtain hdropped | hnote := hstep.taken_of_dropped hdropped
      · exact .inl (hdraining.dropped key ⟨_, hmem, hdropped⟩)
      · exact .inr hnote
  · intro key hnotes
    obtain hnotes | hnote := (htaken key).mp hnotes
    · obtain hgone | ⟨other, hother, hdropped⟩ := hdraining.taken key hnotes
      · exact .inl (hstep.gone hgone)
      · obtain rfl | hkept := eq_or_mem_set { session := i, task := next } hfound hother
        · obtain hdropped | hgone := hstep.dropped_or_gone hdraining.remains habout hdropped
          · exact .inr ⟨_, hnext, hdropped⟩
          · exact .inl hgone
        · exact .inr ⟨other, hjobs ▸ hkept, hdropped⟩
    · exact .inr ⟨_, hnext, hstep.dropped_of_taken hnote⟩
  · intro key suffix payload hsuffix hpayload
    rw [hstep.lookup_later habout hsuffix hpayload,
      hdraining.documents key suffix payload hsuffix hpayload]
    by_cases hnote : note = some ⟨job, key, .taken⟩
    · rw [if_pos hnote, if_pos ((htaken key).mpr (.inr hnote))]
    · simp only [htaken, hnote, or_false, if_false]

theorem IsDraining.of_still (hdraining : world.IsDraining base origin listed before notes)
    {after : World n} {new : List (Job n)} (hbases : after.HasBase base)
    (hfolder : after.folder = world.folder) (hdocuments : after.documents = world.documents)
    (hjobs : after.jobs = world.jobs ++ new) (hnew : ∀ job ∈ new, job.task = .listing) :
    after.IsDraining base origin listed before notes := by
  have hdrops (key : String) : after.Drops key ↔ world.Drops key := by
    constructor
    · rintro ⟨job, hmem, hdropped⟩
      rw [hjobs] at hmem
      obtain hmem | hmem := List.mem_append.mp hmem
      · exact ⟨job, hmem, hdropped⟩
      · rw [hnew job hmem] at hdropped
        cases hdropped
    · rintro ⟨job, hmem, hdropped⟩
      exact ⟨job, hjobs ▸ List.mem_append_left _ hmem, hdropped⟩
  refine ⟨hbases, ?_, ?_, ?_, ?_, ?_, ?_⟩
  · rw [hfolder]
    exact hdraining.remains
  · intro job hmem
    rw [hjobs] at hmem
    obtain hmem | hmem := List.mem_append.mp hmem
    · exact hdraining.about job hmem
    · rw [hnew job hmem]
      exact trivial
  · rw [hfolder]
    exact hdraining.gone
  · intro key hdropped
    exact hdraining.dropped key ((hdrops key).mp hdropped)
  · intro key htaken
    rw [hfolder, hdrops]
    exact hdraining.taken key htaken
  · rw [hdocuments]
    exact hdraining.documents

theorem IsDraining.of_advance (hdraining : world.IsDraining base origin listed before notes)
    (hstock : Stock base origin listed) {after : World n} {note : Option Note}
    (hbases : after.HasBase base) (hadvance : world.Advance base event note after) :
    after.IsDraining base origin listed before (notes ++ note.toList) := by
  cases hadvance with
  | still folder documents jobs listing =>
      rw [Option.toList_none, List.append_nil]
      exact hdraining.of_still hbases folder documents jobs listing
  | go found step jobs listing => exact hdraining.of_go hstock hbases found step jobs

theorem IsDraining.step (hdraining : world.IsDraining base origin listed before notes)
    (hstock : Stock base origin listed) (hpasses : event.isOfPasses = true) :
    (world.step event).IsDraining base origin listed before
      (notes ++ (world.note? event).toList) :=
  hdraining.of_advance hstock (hdraining.bases.step event) (hdraining.advance hstock hpasses)

theorem IsDraining.run (hdraining : world.IsDraining base origin listed before notes)
    (hstock : Stock base origin listed) {events : List (Event n)}
    (hpasses : ∀ event ∈ events, event.isOfPasses = true) :
    (world.run events).IsDraining base origin listed before (notes ++ world.notes events) := by
  induction events generalizing world notes with
  | nil =>
      rw [World.notes, List.append_nil]
      exact hdraining
  | cons event events ih =>
      obtain ⟨hevent, hevents⟩ := List.forall_mem_cons.mp hpasses
      rw [run_cons, World.notes, ← List.append_assoc]
      exact ih (hdraining.step hstock hevent) hevents

/-- When no pass is under way, an entry is gone exactly if the store took its payload. -/
theorem IsDraining.entry_of_isFinished
    (hdraining : world.IsDraining base origin listed before notes)
    (hended : ∀ job ∈ world.jobs, job.task.isFinished = true) {key : String}
    (hlisted : key ∈ listed) :
    world.folder.get? (entryName key) =
      if Taken notes key then none else origin.get? (entryName key) := by
  split
  · next htaken =>
    obtain hgone | ⟨job, hmem, hdropped⟩ := hdraining.taken key htaken
    · exact hgone
    · rw [Task.dropped?_of_isFinished (hended job hmem)] at hdropped
      cases hdropped
  · next hspared =>
    obtain hsame | hgone := hdraining.remains.names (entryName key)
    · exact hsame
    · exact absurd (hdraining.gone key hlisted hgone) hspared

section Accounts

variable {after : World n} {job : Nat} {task : Task} {report : Report}

/-- What the pass of one job finds out, in order. -/
def notesOf (job : Nat) (notes : List Note) : List Note :=
  notes.filter fun note => decide (note.job = job)

theorem notesOf_of_job_eq {note : Option Note} (hjob : ∀ found ∈ note, found.job = job) :
    notesOf job note.toList = note.toList := by
  refine List.filter_eq_self.mpr fun found hmem => ?_
  exact decide_eq_true (hjob found (Option.mem_toList.mp hmem))

theorem notesOf_of_job_ne {note : Option Note} {other : Nat}
    (hjob : ∀ found ∈ note, found.job = other) (hne : other ≠ job) :
    notesOf job note.toList = [] := by
  refine List.filter_eq_nil_iff.mpr fun found hmem => ?_
  rw [hjob found (Option.mem_toList.mp hmem)]
  simpa using hne

/-- Whatever event comes, a pass under way settles its keys by its notes and counts
them. -/
theorem Advance.accounts {note : Option Note} (hadvance : world.Advance base event note after)
    (hfound : world.task? job = some task) (hlisted : task ≠ .listing) :
    ∃ next, after.task? job = some next ∧ next ≠ .listing ∧
      (notesOf job note.toList).map Note.key ++ next.pending = task.pending ∧
      ((notesOf job note.toList).map Note.finding).foldl Report.add task.report =
        next.report := by
  obtain ⟨⟨i, old⟩, hjob, rfl⟩ := Option.map_eq_some_iff.mp hfound
  cases hadvance with
  | still folder documents jobs listing =>
      refine ⟨old, ?_, hlisted, rfl, rfl⟩
      rw [task?, jobs, List.getElem?_append_left (List.getElem?_eq_some_iff.mp hjob).1, hjob]
      rfl
  | @go place _ _ next _ _ found step jobs listing =>
      by_cases hplace : place = job
      · subst hplace
        rw [hjob] at found
        cases found
        have hafter : after.task? place = some next := by
          rw [task?, jobs, List.getElem?_set_self (List.getElem?_eq_some_iff.mp hjob).1]
          rfl
        rw [notesOf_of_job_eq step.job_eq]
        exact ⟨next, hafter, step.accounts hlisted⟩
      · rw [notesOf_of_job_ne step.job_eq hplace]
        refine ⟨old, ?_, hlisted, rfl, rfl⟩
        rw [task?, jobs, List.getElem?_set_ne hplace, hjob]
        rfl

/-- A job that is to list the keys learns nothing about entries before it does so. -/
theorem Advance.listing_cases {note : Option Note}
    (hadvance : world.Advance base event note after)
    (hlisting : ∀ task ∈ world.task? job, task = .listing) :
    notesOf job note.toList = [] ∧
      ((∀ task ∈ after.task? job, task = .listing) ∨
        event = .file job .fine ∧ world.task? job = some .listing ∧
          ∃ found, keys .fine base world.folder = .ok found ∧
            after.task? job = some (.onward base .zero found)) := by
  cases hadvance with
  | still folder documents jobs listing =>
      refine ⟨rfl, .inl fun task htask => ?_⟩
      obtain ⟨other, hother, rfl⟩ := Option.map_eq_some_iff.mp htask
      rw [jobs, List.getElem?_append] at hother
      split at hother
      · exact hlisting _ (Option.map_eq_some_iff.mpr ⟨other, hother, rfl⟩)
      · exact listing other (List.mem_of_getElem? hother)
  | @go place i task next _ _ found step jobs listing =>
      by_cases hplace : place = job
      · subst hplace
        have hbefore : world.task? place = some task := by
          rw [task?, found]
          rfl
        obtain rfl := hlisting task hbefore
        have hafter : after.task? place = some next := by
          rw [task?, jobs, List.getElem?_set_self (List.getElem?_eq_some_iff.mp found).1]
          rfl
        obtain ⟨rfl, hfound⟩ := step.of_listing
        obtain ⟨found, hkeys, rfl⟩ := hfound
        exact ⟨rfl, .inr ⟨listing rfl, hbefore, found, hkeys, hafter⟩⟩
      · refine ⟨notesOf_of_job_ne step.job_eq hplace, .inl fun other hother => ?_⟩
        rw [task?, jobs, List.getElem?_set_ne hplace] at hother
        exact hlisting other hother

theorem notesOf_cons (job : Nat) (world : World n) (event : Event n) (events : List (Event n)) :
    notesOf job (world.notes (event :: events)) =
      notesOf job (world.note? event).toList ++
        notesOf job ((world.step event).notes events) :=
  List.filter_append _ _

/-- A pass under way that ends has settled the keys that were left and has counted what
it found. -/
theorem IsDraining.accounts_run (hdraining : world.IsDraining base origin listed before notes)
    (hstock : Stock base origin listed) {events : List (Event n)}
    (hpasses : ∀ event ∈ events, event.isOfPasses = true)
    (hfound : world.task? job = some task) (hlisted : task ≠ .listing)
    (hended : (world.run events).task? job = some (.passed report)) :
    (notesOf job (world.notes events)).map Note.key = task.pending ∧
      ((notesOf job (world.notes events)).map Note.finding).foldl Report.add task.report =
        report := by
  induction events generalizing world notes task with
  | nil =>
      rw [run_nil, hfound] at hended
      cases hended
      exact ⟨rfl, rfl⟩
  | cons event events ih =>
      obtain ⟨hevent, hevents⟩ := List.forall_mem_cons.mp hpasses
      obtain ⟨next, hnext, hunder, hkeys, hreport⟩ :=
        (hdraining.advance hstock hevent).accounts hfound hlisted
      obtain ⟨hlater, hcounted⟩ :=
        ih (hdraining.step hstock hevent) hevents hnext hunder hended
      rw [notesOf_cons, List.map_append, List.map_append, List.foldl_append, hlater, hreport]
      exact ⟨hkeys, hcounted⟩

/-- A pass that ends has listed the keys at one of its steps, has settled each of them in
order and has counted what it found. -/
theorem IsDraining.listed_run (hdraining : world.IsDraining base origin listed before notes)
    (hstock : Stock base origin listed) {events : List (Event n)}
    (hpasses : ∀ event ∈ events, event.isOfPasses = true)
    (hlisting : ∀ task ∈ world.task? job, task = .listing)
    (hended : (world.run events).task? job = some (.passed report)) :
    ∃ earlier later found, events = earlier ++ .file job .fine :: later ∧
      (world.run earlier).task? job = some .listing ∧
      keys .fine base (world.run earlier).folder = .ok found ∧
      (notesOf job (world.notes events)).map Note.key = found ∧
      ((notesOf job (world.notes events)).map Note.finding).foldl Report.add .zero =
        report := by
  induction events generalizing world notes with
  | nil => cases hlisting _ hended
  | cons event events ih =>
      obtain ⟨hevent, hevents⟩ := List.forall_mem_cons.mp hpasses
      have hnext := hdraining.step hstock hevent
      obtain ⟨hnone, hlater | ⟨rfl, hbefore, found, hkeys, hafter⟩⟩ :=
        (hdraining.advance hstock hevent).listing_cases hlisting
      · obtain ⟨earlier, later, found, rfl, hfound⟩ := ih hnext hevents hlater hended
        rw [notesOf_cons, hnone]
        exact ⟨event :: earlier, later, found, rfl, hfound⟩
      · have haccounts := hnext.accounts_run hstock hevents hafter
          (Task.onward_ne_listing _ _ _) hended
        rw [Task.pending_onward, Task.report_onward] at haccounts
        rw [notesOf_cons, hnone]
        exact ⟨[], events, found, rfl, hbefore, hkeys, haccounts⟩

end Accounts

/-- Passes over one queue are confluent.  The entries are readable, no task is under way
at first, and from then on only passes run, any number of them, their calls of the file
system and the answers of the store interleaved in any order.  When all have ended, an
entry is as it was unless the store took its payload from some pass; then it is gone and
its payload is the document of its id, which otherwise is as it was.  Each pass has
settled the keys that it listed, each of them once, and its report counts them: as
skipped those that were gone when it came to read them, as failed those alone that the
store refused. -/
theorem passes_confluent {start : World n} (hbase : start.HasBase base)
    (hidle : ∀ job ∈ start.jobs, job.task.isFinished = true)
    (hlisted : keys .fine base start.folder = .ok listed)
    (hreadable : ∀ key ∈ listed, ∃ payload, Holds start.folder key payload)
    {events : List (Event n)} (hpasses : ∀ event ∈ events, event.isOfPasses = true)
    (hended : ∀ job ∈ (start.run events).jobs, job.task.isFinished = true) :
    (∀ key ∈ listed, ∀ suffix payload, suffixOf base key = some suffix →
        Holds start.folder key payload →
        (start.run events).folder.get? (entryName key) =
            (if Taken (start.notes events) key then none
            else some (.file payload.toByteArray)) ∧
          (start.run events).documents.lookup (DocumentKey.scorecard suffix).path =
            if Taken (start.notes events) key then some payload
            else start.documents.lookup (DocumentKey.scorecard suffix).path) ∧
      ∀ job report, start.jobs.length ≤ job →
        (start.run events).task? job = some (.passed report) →
        ∃ earlier later found, events = earlier ++ .file job .fine :: later ∧
          (start.run earlier).task? job = some .listing ∧
          keys .fine base (start.run earlier).folder = .ok found ∧
          (notesOf job (start.notes events)).map Note.key = found ∧
          report.uploaded + report.skipped + report.failed = found.length ∧
          let findings := (notesOf job (start.notes events)).map Note.finding
          report.uploaded = findings.count .taken ∧ report.skipped = findings.count .gone ∧
            report.failed = findings.count .refused := by
  have hstock : Stock base start.folder listed := ⟨hlisted, hreadable⟩
  have hstart := isDraining_of_isFinished hstock hbase hidle
  have hafter := hstart.run hstock hpasses
  rw [List.nil_append] at hafter
  constructor
  · intro key hmem suffix payload hsuffix hpayload
    have hentry := hafter.entry_of_isFinished hended hmem
    rw [(holds_iff.mp hpayload).2] at hentry
    exact ⟨hentry, hafter.documents key suffix payload hsuffix hpayload⟩
  · intro job report hjob hreport
    have hnew : ∀ task ∈ start.task? job, task = .listing := by
      intro task htask
      rw [task?, List.getElem?_eq_none hjob] at htask
      cases htask
    obtain ⟨earlier, later, found, hevents, hlisting, hkeys, hsettled, rfl⟩ :=
      hstart.listed_run hstock hpasses hnew hreport
    have hlength : ((notesOf job (start.notes events)).map Note.finding).length =
        found.length := by
      rw [← hsettled, List.length_map, List.length_map]
    have htotal := Report.total_foldl_add .zero
      ((notesOf job (start.notes events)).map Note.finding)
    rw [hlength] at htotal
    have hcounts := Report.foldl_add .zero
      ((notesOf job (start.notes events)).map Note.finding)
    refine ⟨earlier, later, found, hevents, hlisting, hkeys, hsettled, ?_, ?_⟩
    · exact htotal.trans (Nat.zero_add _)
    · rw [hcounts]
      exact ⟨Nat.zero_add _, Nat.zero_add _, Nat.zero_add _⟩

/-! ## Two sessions over two entries -/

/-- Two entries wait. -/
def twoEntries : Folder :=
  .present
    { list := [(entryName "queue.5-eeeeee", .file "fifth".toByteArray),
        (entryName "queue.6-ffffff", .file "sixth".toByteArray)]
      nodup := by decide }

/-- The store has an older document of the second entry. -/
def twoReaders : World 2 :=
  { World.new twoEntries twoSessions with documents := [("scorecard/6-ffffff", "older")] }

def firstReader : Fin 2 :=
  Fin.castSucc sole

def secondReader : Fin 2 :=
  Fin.last 1

/-- Both sessions list both entries.  The store takes the first entry from the first
session, and the second session finds it gone.  Both read the second entry, and the store
refuses it to both. -/
def crossedPasses : List (Event 2) :=
  [.retry firstReader, .retry secondReader, .file 0 .fine, .file 1 .fine, .file 0 .fine,
    .answer 0 (.ok ()), .file 0 .fine, .file 0 .fine, .file 1 .fine, .file 0 .fine,
    .file 1 .fine, .answer 0 (.error (.unavailable "offline")),
    .answer 1 (.error (.unavailable "offline"))]

theorem notes_crossedPasses : twoReaders.notes crossedPasses =
    [⟨0, "queue.5-eeeeee", .taken⟩, ⟨1, "queue.5-eeeeee", .gone⟩,
      ⟨0, "queue.6-ffffff", .refused⟩, ⟨1, "queue.6-ffffff", .refused⟩] := rfl

theorem isFinished_crossedPasses :
    ∀ job ∈ (twoReaders.run crossedPasses).jobs, job.task.isFinished = true := by
  have hjobs : (twoReaders.run crossedPasses).jobs =
      [⟨0, .passed ⟨1, 0, 1⟩⟩, ⟨1, .passed ⟨0, 1, 1⟩⟩] := rfl
  rw [hjobs]
  simp [Task.isFinished]

/-- The first entry goes and becomes the document of its id; the second one stays, and so
does the older document. -/
theorem passes_confluent_crossed :
    twoReaders.HasBase "queue" ∧ (∀ job ∈ twoReaders.jobs, job.task.isFinished = true) ∧
      keys .fine "queue" twoReaders.folder = .ok ["queue.5-eeeeee", "queue.6-ffffff"] ∧
      (∀ key ∈ ["queue.5-eeeeee", "queue.6-ffffff"],
        ∃ payload, Holds twoReaders.folder key payload) ∧
      (∀ event ∈ crossedPasses, event.isOfPasses = true) ∧
      (∀ job ∈ (twoReaders.run crossedPasses).jobs, job.task.isFinished = true) ∧
      (twoReaders.run crossedPasses).folder.get? (entryName "queue.5-eeeeee") = none ∧
      (twoReaders.run crossedPasses).documents.lookup "scorecard/5-eeeeee" = some "fifth" ∧
      (twoReaders.run crossedPasses).folder.get? (entryName "queue.6-ffffff") =
        some (.file "sixth".toByteArray) ∧
      (twoReaders.run crossedPasses).documents.lookup "scorecard/6-ffffff" = some "older" ∧
      (twoReaders.run crossedPasses).task? 1 = some (.passed ⟨0, 1, 1⟩) ∧
      ((notesOf 1 (twoReaders.notes crossedPasses)).map Note.finding).count .gone = 1 := by
  have hbase : twoReaders.HasBase "queue" := fun i => by
    match i with
    | 0 => rfl
    | 1 => rfl
  have hidle : ∀ job ∈ twoReaders.jobs, job.task.isFinished = true := nofun
  have hlisted : keys .fine "queue" twoReaders.folder =
      .ok ["queue.5-eeeeee", "queue.6-ffffff"] := rfl
  have hfifth : Holds twoReaders.folder "queue.5-eeeeee" "fifth" := rfl
  have hsixth : Holds twoReaders.folder "queue.6-ffffff" "sixth" := rfl
  have hreadable : ∀ key ∈ ["queue.5-eeeeee", "queue.6-ffffff"],
      ∃ payload, Holds twoReaders.folder key payload := by
    simpa using And.intro ⟨_, hfifth⟩ ⟨_, hsixth⟩
  have hpasses : ∀ event ∈ crossedPasses, event.isOfPasses = true := by
    simp [crossedPasses, Event.isOfPasses]
  obtain ⟨hentries, hreports⟩ :=
    passes_confluent hbase hidle hlisted hreadable hpasses isFinished_crossedPasses
  have htaken : Taken (twoReaders.notes crossedPasses) "queue.5-eeeeee" := by
    rw [notes_crossedPasses]
    decide
  have hspared : ¬Taken (twoReaders.notes crossedPasses) "queue.6-ffffff" := by
    rw [notes_crossedPasses]
    decide
  obtain ⟨hgone, hstored⟩ := hentries _ (by simp) "5-eeeeee" _ (by decide) hfifth
  obtain ⟨hkept, holder⟩ := hentries _ (by simp) "6-ffffff" _ (by decide) hsixth
  rw [if_pos htaken] at hgone hstored
  rw [if_neg hspared] at hkept holder
  have hended : (twoReaders.run crossedPasses).task? 1 = some (.passed ⟨0, 1, 1⟩) := rfl
  obtain ⟨-, -, -, -, -, -, -, -, -, hskipped, -⟩ := hreports 1 _ (by decide) hended
  exact ⟨hbase, hidle, hlisted, hreadable, hpasses, isFinished_crossedPasses, hgone, hstored,
    hkept, holder, hended, hskipped.symm⟩

end World

end Scorekeeper.Save
