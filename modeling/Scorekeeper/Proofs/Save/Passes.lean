import Scorekeeper.Proofs.Save.Copies

/-!
# Passes side by side

Several sessions may go through one queue at the same time.  What a pass finds out about
an entry that it has listed is put down in a note: the entry was gone when the pass came
to read it, or the store took the payload, or it refused it.  This file says what a step
of a pass does to the folder, to the store and to the pass itself, and proves that a pass
settles each key that it has listed by one note and counts its notes.
-/

namespace Scorekeeper.Save

open Queue Remote Files

/-- What a pass finds out about an entry. -/
inductive Finding where
  /-- There was nothing to read any more. -/
  | gone
  /-- The store took the payload. -/
  | taken
  /-- The store did not take the payload. -/
  | refused
  deriving DecidableEq

namespace Report

def add (report : Report) : Finding → Report
  | .gone => report.addSkipped
  | .taken => report.addUploaded
  | .refused => report.addFailed

def total (report : Report) : Nat :=
  report.uploaded + report.skipped + report.failed

theorem foldl_add (report : Report) (findings : List Finding) :
    findings.foldl add report =
      { uploaded := report.uploaded + findings.count .taken
        skipped := report.skipped + findings.count .gone
        failed := report.failed + findings.count .refused } := by
  induction findings generalizing report with
  | nil => rfl
  | cons finding findings ih =>
      rw [List.foldl_cons, ih]
      cases finding <;> simp [add, addSkipped, addUploaded, addFailed] <;> omega

theorem total_foldl_add (report : Report) (findings : List Finding) :
    (findings.foldl add report).total = report.total + findings.length := by
  induction findings generalizing report with
  | nil => rfl
  | cons finding findings ih =>
      rw [List.foldl_cons, ih, List.length_cons]
      cases finding <;> simp only [add, addSkipped, addUploaded, addFailed, total] <;> omega

end Report

/-- What the pass of a job finds out about the entry under a key. -/
structure Note where
  job : Nat
  key : String
  finding : Finding
  deriving DecidableEq

/-- The store took the payload that some pass had read under the key. -/
def Taken (notes : List Note) (key : String) : Prop :=
  ∃ note ∈ notes, note.key = key ∧ note.finding = .taken

instance (notes : List Note) (key : String) : Decidable (Taken notes key) :=
  inferInstanceAs (Decidable (∃ note ∈ notes, note.key = key ∧ note.finding = .taken))

theorem taken_append_iff {notes : List Note} {note : Option Note} {key : String} :
    Taken (notes ++ note.toList) key ↔
      Taken notes key ∨ ∃ job, note = some ⟨job, key, .taken⟩ := by
  constructor
  · rintro ⟨found, hmem, hkey, hfinding⟩
    obtain hmem | hmem := List.mem_append.mp hmem
    · exact .inl ⟨found, hmem, hkey, hfinding⟩
    · refine .inr ⟨found.job, ?_⟩
      rw [Option.mem_toList.mp hmem, ← hkey, ← hfinding]
  · rintro (⟨found, hmem, hnote⟩ | ⟨job, rfl⟩)
    · exact ⟨found, List.mem_append_left _ hmem, hnote⟩
    · exact ⟨_, List.mem_append_right _ List.mem_cons_self, rfl, rfl⟩

namespace Task

/-- The keys that a pass has listed and not settled. -/
def pending : Task → List String
  | .reading key _ pass | .resending key _ _ pass => key :: pass.rest
  | .dropping _ _ pass _ => pass.rest
  | _ => []

/-- What a pass has counted so far.  An entry counts as uploaded from the answer of the
store on. -/
def report : Task → Report
  | .reading _ _ pass | .resending _ _ _ pass => pass.report
  | .dropping _ _ pass _ => pass.report.addUploaded
  | .passed report => report
  | _ => .zero

/-- The entry that a pass is about to remove. -/
def dropped? : Task → Option String
  | .dropping key _ _ _ => some key
  | _ => none

theorem dropped?_of_isFinished {task : Task} (hended : task.isFinished = true) :
    task.dropped? = none := by
  cases task <;> first | rfl | cases hended

/-- Where a pass stands that has just settled a key and has others left. -/
def onward (base : String) (report : Report) : List String → Task
  | [] => .passed report
  | key :: rest => .reading key ((suffixOf base key).getD "") ⟨rest, report⟩

@[simp]
theorem pending_onward (base : String) (report : Report) (keys : List String) :
    (onward base report keys).pending = keys := by
  cases keys <;> rfl

@[simp]
theorem report_onward (base : String) (found : Report) (keys : List String) :
    (onward base found keys).report = found := by
  cases keys <;> rfl

@[simp]
theorem dropped?_onward (base : String) (report : Report) (keys : List String) :
    (onward base report keys).dropped? = none := by
  cases keys <;> rfl

theorem onward_ne_listing (base : String) (report : Report) (keys : List String) :
    onward base report keys ≠ .listing := by
  cases keys <;> exact nofun

/-- What a job learns from the answer of the store. -/
def noteOfAnswer (job : Nat) (accepted : Bool) : Task → Option Note
  | .resending key _ _ _ => some ⟨job, key, if accepted then .taken else .refused⟩
  | _ => none

/-- What a job learns from a look at the folder. -/
def noteOfRead (job : Nat) (folder : Folder) : Task → Option Note
  | .reading key _ _ =>
    if (folder.get? (entryName key)).isNone then some ⟨job, key, .gone⟩ else none
  | _ => none

end Task

namespace Event

variable {n : Nat}

/-- Whether an event belongs to passes, the clock or the timers alone, and its call of
the file system goes well. -/
def isOfPasses : Event n → Bool
  | .save _ _ | .resume _ | .call _ _ => false
  | .file _ luck => decide (luck = .fine)
  | _ => true

end Event

/-- The entries of a queue at some time, each of them readable. -/
structure Stock (base : String) (folder : Folder) (listed : List String) : Prop where
  keys : keys .fine base folder = .ok listed
  readable : ∀ key ∈ listed, ∃ payload, Holds folder key payload

/-- A folder that has lost files and is otherwise as it was. -/
structure Remains (origin folder : Folder) : Prop where
  isOpen : folder ≠ .blocked
  names : ∀ name, folder.get? name = origin.get? name ∨ folder.get? name = none

section Stock

variable {base key payload : String} {origin folder : Folder} {listed : List String}

theorem Stock.suffixOf_of_mem (hstock : Stock base origin listed) (hmem : key ∈ listed) :
    ∃ suffix, suffixOf base key = some suffix :=
  exists_suffix_of_mem_keys hstock.keys hmem

theorem Stock.remains (hstock : Stock base origin listed) : Remains origin origin where
  isOpen := by
    rintro rfl
    cases hstock.keys
  names _ := .inl rfl

/-- A listing made later shows no keys but those that were there. -/
theorem Stock.subset_of_keys (hstock : Stock base origin listed)
    (hremains : Remains origin folder) {found : List String}
    (hfound : Queue.keys .fine base folder = .ok found) : ∀ key ∈ found, key ∈ listed := by
  intro key hmem
  obtain ⟨hentry, hsuffix⟩ := (mem_keys_iff hfound).mp hmem
  refine (mem_keys_iff hstock.keys).mpr ⟨?_, hsuffix⟩
  obtain hsame | hgone := hremains.names (entryName key)
  · rwa [hsame] at hentry
  · rw [hgone] at hentry
    cases hentry

theorem Remains.exists_keys (hremains : Remains origin folder) (base : String) :
    ∃ found, Queue.keys .fine base folder = .ok found := by
  cases folder with
  | absent => exact ⟨[], rfl⟩
  | blocked => exact absurd rfl hremains.isOpen
  | present entries => exact ⟨_, rfl⟩

/-- An entry that held a payload at first holds it still or is gone. -/
theorem Remains.holds_or_gone (hremains : Remains origin folder)
    (hholds : Holds origin key payload) :
    Holds folder key payload ∨ folder.get? (entryName key) = none := by
  obtain ⟨hreadable, hentry⟩ := holds_iff.mp hholds
  obtain hsame | hgone := hremains.names (entryName key)
  · exact .inl (holds_iff.mpr ⟨hreadable, hsame.trans hentry⟩)
  · exact .inr hgone

end Stock

/-- A pass that has to do with entries of a stock only, and with their payloads. -/
def Task.IsAbout (base : String) (origin : Folder) (listed : List String) : Task → Prop
  | .listing | .saved _ _ | .passed _ | .resumed _ => True
  | .reading key suffix pass =>
      key ∈ listed ∧ suffixOf base key = some suffix ∧ ∀ other ∈ pass.rest, other ∈ listed
  | .resending key suffix payload pass =>
      key ∈ listed ∧ suffixOf base key = some suffix ∧ Holds origin key payload ∧
        ∀ other ∈ pass.rest, other ∈ listed
  | .dropping key payload pass stage =>
      key ∈ listed ∧ Holds origin key payload ∧ (∀ answer, stage ≠ .done answer) ∧
        ∀ other ∈ pass.rest, other ∈ listed
  | _ => False

theorem Task.isAbout_of_isFinished {task : Task} (hended : task.isFinished = true)
    (base : String) (origin : Folder) (listed : List String) :
    task.IsAbout base origin listed := by
  cases task <;> first | exact trivial | cases hended

theorem Stock.isAbout_onward {base : String} {origin : Folder} {listed : List String}
    (hstock : Stock base origin listed) (report : Report) {keys : List String}
    (hkeys : ∀ key ∈ keys, key ∈ listed) :
    (Task.onward base report keys).IsAbout base origin listed := by
  cases keys with
  | nil => exact trivial
  | cons key rest =>
      have hmem := hkeys key List.mem_cons_self
      obtain ⟨suffix, hsuffix⟩ := hstock.suffixOf_of_mem hmem
      refine ⟨hmem, ?_, fun other hother => hkeys other (List.mem_cons_of_mem _ hother)⟩
      rw [hsuffix]
      rfl

/-- A step of the pass of a job over a folder and the documents of the store, what the
job learns by it, and what it leaves. -/
inductive PassStep (base : String) (job : Nat) (folder : Folder)
    (documents : List (String × String)) :
    Task → Option Note → Folder → List (String × String) → Task → Prop where
  | list {found : List String} (keys : keys .fine base folder = .ok found) :
      PassStep base job folder documents .listing none folder documents
        (.onward base .zero found)
  | read {key suffix payload : String} {pass : Pass} (holds : Holds folder key payload) :
      PassStep base job folder documents (.reading key suffix pass) none folder documents
        (.resending key suffix payload pass)
  | miss {key suffix : String} {pass : Pass}
      (gone : folder.get? (entryName key) = none) :
      PassStep base job folder documents (.reading key suffix pass)
        (some ⟨job, key, .gone⟩) folder documents
        (.onward base pass.report.addSkipped pass.rest)
  | take {key suffix payload : String} {pass : Pass} :
      PassStep base job folder documents (.resending key suffix payload pass)
        (some ⟨job, key, .taken⟩) folder
        (putDocument (DocumentKey.scorecard suffix).path payload documents)
        (.dropping key payload pass .comparing)
  | refuse {key suffix payload : String} {pass : Pass} :
      PassStep base job folder documents (.resending key suffix payload pass)
        (some ⟨job, key, .refused⟩) folder documents
        (.onward base pass.report.addFailed pass.rest)
  | compare {key payload : String} {pass : Pass} (holds : Holds folder key payload) :
      PassStep base job folder documents (.dropping key payload pass .comparing) none
        folder documents (.dropping key payload pass .deleting)
  | leave {key payload : String} {pass : Pass} (other : ¬Holds folder key payload) :
      PassStep base job folder documents (.dropping key payload pass .comparing) none
        folder documents (.onward base pass.report.addUploaded pass.rest)
  | delete {key payload : String} {pass : Pass} {after : Folder}
      (isOpen : after ≠ .blocked)
      (removed : ∀ name, after.get? name =
        if name = entryName key then none else folder.get? name) :
      PassStep base job folder documents (.dropping key payload pass .deleting) none
        after documents (.onward base pass.report.addUploaded pass.rest)

namespace PassStep

variable {base : String} {job : Nat} {origin folder after : Folder}
  {documents later : List (String × String)} {task next : Task} {note : Option Note}
  {listed : List String}

/-- A pass that is under way settles its keys in order, one by each note, and counts
its notes. -/
theorem accounts (hstep : PassStep base job folder documents task note after later next)
    (hlisted : task ≠ .listing) :
    next ≠ .listing ∧ note.toList.map Note.key ++ next.pending = task.pending ∧
      (note.toList.map Note.finding).foldl Report.add task.report = next.report := by
  cases hstep with
  | list keys => exact absurd rfl hlisted
  | read holds => exact ⟨nofun, rfl, rfl⟩
  | take => exact ⟨nofun, rfl, rfl⟩
  | compare holds => exact ⟨nofun, rfl, rfl⟩
  | _ =>
      refine ⟨Task.onward_ne_listing _ _ _, ?_, ?_⟩
      · rw [Task.pending_onward]
        rfl
      · rw [Task.report_onward]
        rfl

theorem of_listing
    (hstep : PassStep base job folder documents .listing note after later next) :
    note = none ∧ ∃ found, keys .fine base folder = .ok found ∧
      next = .onward base .zero found := by
  cases hstep with
  | list keys => exact ⟨rfl, _, keys, rfl⟩

theorem job_eq (hstep : PassStep base job folder documents task note after later next) :
    ∀ found ∈ note, found.job = job := by
  cases hstep <;> simp

theorem isAbout (hstep : PassStep base job folder documents task note after later next)
    (hstock : Stock base origin listed) (hremains : Remains origin folder)
    (habout : task.IsAbout base origin listed) : next.IsAbout base origin listed := by
  cases hstep with
  | list keys => exact hstock.isAbout_onward _ (hstock.subset_of_keys hremains keys)
  | read holds =>
      obtain ⟨hmem, hsuffix, hrest⟩ := habout
      refine ⟨hmem, hsuffix, ?_, hrest⟩
      obtain ⟨payload, hpayload⟩ := hstock.readable _ hmem
      obtain hsame | hgone := hremains.holds_or_gone hpayload
      · rwa [holds_unique holds hsame]
      · rw [(holds_iff.mp holds).2] at hgone
        cases hgone
  | miss gone => exact hstock.isAbout_onward _ habout.2.2
  | take => exact ⟨habout.1, habout.2.2.1, nofun, habout.2.2.2⟩
  | refuse => exact hstock.isAbout_onward _ habout.2.2.2
  | compare holds => exact ⟨habout.1, habout.2.1, nofun, habout.2.2.2⟩
  | leave other => exact hstock.isAbout_onward _ habout.2.2.2
  | delete isOpen removed => exact hstock.isAbout_onward _ habout.2.2.2

/-- A step takes away at most the entry that its pass is about to remove. -/
theorem folder_cases
    (hstep : PassStep base job folder documents task note after later next) :
    after = folder ∨ after ≠ .blocked ∧ ∃ key, task.dropped? = some key ∧
      ∀ name, after.get? name = if name = entryName key then none else folder.get? name := by
  cases hstep with
  | delete isOpen removed => exact .inr ⟨isOpen, _, rfl, removed⟩
  | _ => exact .inl rfl

theorem remains (hstep : PassStep base job folder documents task note after later next)
    (hremains : Remains origin folder) : Remains origin after := by
  obtain rfl | ⟨hopen, key, -, hremoved⟩ := hstep.folder_cases
  · exact hremains
  · refine ⟨hopen, fun name => ?_⟩
    rw [hremoved name]
    split
    · exact .inr rfl
    · exact hremains.names name

/-- An entry that goes is one that its pass was about to remove. -/
theorem dropped_of_gone
    (hstep : PassStep base job folder documents task note after later next) {key : String}
    (hgone : after.get? (entryName key) = none) :
    folder.get? (entryName key) = none ∨ task.dropped? = some key := by
  obtain rfl | ⟨-, other, hdropped, hremoved⟩ := hstep.folder_cases
  · exact .inl hgone
  · rw [hremoved] at hgone
    split at hgone
    · next hname =>
      rw [entryName_injective hname]
      exact .inr hdropped
    · exact .inl hgone

theorem gone (hstep : PassStep base job folder documents task note after later next)
    {name : FileName} (hgone : folder.get? name = none) : after.get? name = none := by
  obtain rfl | ⟨-, other, -, hremoved⟩ := hstep.folder_cases
  · exact hgone
  · rw [hremoved, hgone, ite_self]

/-- A pass is about to remove an entry only after the store took its payload. -/
theorem taken_of_dropped
    (hstep : PassStep base job folder documents task note after later next) {key : String}
    (hdropped : next.dropped? = some key) :
    task.dropped? = some key ∨ note = some ⟨job, key, .taken⟩ := by
  cases hstep with
  | take =>
      cases hdropped
      exact .inr rfl
  | compare holds => exact .inl hdropped
  | read holds => cases hdropped
  | _ =>
      rw [Task.dropped?_onward] at hdropped
      cases hdropped

theorem dropped_of_taken
    (hstep : PassStep base job folder documents task note after later next) {key : String}
    (htaken : note = some ⟨job, key, .taken⟩) : next.dropped? = some key := by
  cases hstep with
  | take =>
      cases htaken
      rfl
  | _ => cases htaken

/-- A pass that is about to remove an entry stays so until the entry is gone. -/
theorem dropped_or_gone
    (hstep : PassStep base job folder documents task note after later next)
    (hremains : Remains origin folder) (habout : task.IsAbout base origin listed)
    {key : String} (hdropped : task.dropped? = some key) :
    next.dropped? = some key ∨ after.get? (entryName key) = none := by
  cases hstep with
  | compare holds => exact .inl hdropped
  | leave other =>
      cases hdropped
      exact .inr ((hremains.holds_or_gone habout.2.1).resolve_left other)
  | delete isOpen removed =>
      cases hdropped
      exact .inr ((removed _).trans (if_pos rfl))
  | _ => cases hdropped

/-- The store has taken the payload of an entry after a step if it had before or takes it
by this step. -/
theorem taken_iff (hstep : PassStep base job folder documents task note after later next)
    (notes : List Note) (key : String) :
    Taken (notes ++ note.toList) key ↔ Taken notes key ∨ note = some ⟨job, key, .taken⟩ := by
  rw [taken_append_iff]
  refine or_congr_right ⟨?_, fun hnote => ⟨job, hnote⟩⟩
  rintro ⟨other, hnote⟩
  obtain rfl := hstep.job_eq _ hnote
  exact hnote

/-- The document of an id becomes the payload of its entry when the store takes it, and
no other step changes it. -/
theorem lookup_later (hstep : PassStep base job folder documents task note after later next)
    (habout : task.IsAbout base origin listed) {key suffix payload : String}
    (hsuffix : suffixOf base key = some suffix) (hpayload : Holds origin key payload) :
    later.lookup (DocumentKey.scorecard suffix).path =
      if note = some ⟨job, key, .taken⟩ then some payload
      else documents.lookup (DocumentKey.scorecard suffix).path := by
  cases hstep with
  | @take other owner text pass =>
      obtain ⟨-, howner, htext, -⟩ := habout
      by_cases hkey : other = key
      · subst hkey
        rw [hsuffix] at howner
        cases howner
        rw [if_pos rfl, lookup_putDocument_self, holds_unique htext hpayload]
      · have hpath : (DocumentKey.scorecard suffix).path ≠
            (DocumentKey.scorecard owner).path := by
          intro heq
          rw [scorecard_path_injective heq] at hsuffix
          exact hkey ((suffixOf_eq_some_iff.mp howner).1.trans
            (suffixOf_eq_some_iff.mp hsuffix).1.symm)
        rw [if_neg (by simpa using hkey), lookup_putDocument_of_ne _ _ hpath]
  | _ => simp

end PassStep

namespace Session

variable {session : Session} {base : String} {origin folder : Folder} {listed : List String}

/-- A pass goes on with the first of keys that all belong to the queue. -/
theorem nextEntry_eq_onward (hbase : session.base = base) (now : Nat) (report : Report)
    {keys : List String} (hkeys : ∀ key ∈ keys, ∃ suffix, suffixOf base key = some suffix) :
    (session.nextEntry now report keys).2 = .onward base report keys := by
  cases keys with
  | nil => exact session.task_endPass now report
  | cons key rest =>
      obtain ⟨suffix, hsuffix⟩ := hkeys key List.mem_cons_self
      simp [nextEntry, Task.onward, hbase, hsuffix]

theorem nextEntry_of_stock (hbase : session.base = base) (hstock : Stock base origin listed)
    (now : Nat) (report : Report) {keys : List String} (hkeys : ∀ key ∈ keys, key ∈ listed) :
    (session.nextEntry now report keys).2 = .onward base report keys :=
  nextEntry_eq_onward hbase now report fun key hmem => hstock.suffixOf_of_mem (hkeys key hmem)

variable (now job : Nat) (documents : List (String × String))

/-- The answer of the store to a pass is a step of the pass. -/
theorem passStep_afterUpload (hbase : session.base = base) (hstock : Stock base origin listed)
    (stamp : Stamp) (result : Except StorageError Unit) {key suffix payload : String}
    {pass : Pass} (hrest : ∀ other ∈ pass.rest, other ∈ listed) :
    let task : Task := .resending key suffix payload pass
    PassStep base job folder documents task (task.noteOfAnswer job result.isOk) folder
      (if result.isOk then
        putDocument (DocumentKey.scorecard suffix).path payload documents
      else documents)
      (session.afterUpload now stamp result task).2 := by
  cases result with
  | ok _ => exact .take
  | error error =>
      simp only [afterUpload, nextEntry_of_stock hbase hstock now _ hrest]
      exact .refuse

theorem passStep_reading (hbase : session.base = base) (hstock : Stock base origin listed)
    (hremains : Remains origin folder) {key suffix : String} {pass : Pass}
    (habout : (Task.reading key suffix pass).IsAbout base origin listed) :
    let move := session.fileStep now .fine folder (.reading key suffix pass)
    PassStep base job folder documents (.reading key suffix pass)
      (Task.noteOfRead job folder (.reading key suffix pass)) move.1 documents move.2.2 := by
  obtain ⟨hmem, -, hrest⟩ := habout
  obtain ⟨payload, hpayload⟩ := hstock.readable key hmem
  obtain hholds | hgone := hremains.holds_or_gone hpayload
  · have hget : get .fine key folder = .ok (some payload) := hholds
    simp only [fileStep, afterReading, hget, Task.noteOfRead, (holds_iff.mp hholds).2]
    exact .read hholds
  · have hget := get_of_missing (holds_iff.mp hpayload).1 hremains.isOpen hgone
    simp only [fileStep, afterReading, hget, Task.noteOfRead, hgone,
      nextEntry_of_stock hbase hstock now _ hrest]
    exact .miss hgone

theorem passStep_dropping (hbase : session.base = base) (hstock : Stock base origin listed)
    (hremains : Remains origin folder) {key payload : String} {pass : Pass}
    {stage : Removal.Stage}
    (habout : (Task.dropping key payload pass stage).IsAbout base origin listed) :
    let move := session.fileStep now .fine folder (.dropping key payload pass stage)
    PassStep base job folder documents (.dropping key payload pass stage) none move.1
      documents move.2.2 := by
  obtain ⟨-, hpayload, hrunning, hrest⟩ := habout
  have hreadable := (holds_iff.mp hpayload).1
  have hfound := hremains.holds_or_gone hpayload
  cases stage with
  | comparing =>
      obtain hholds | hgone := hfound
      · have hget : get .fine key folder = .ok (some payload) := hholds
        simp only [fileStep, Removal.step, hget, if_true]
        exact .compare hholds
      · have hget := get_of_missing hreadable hremains.isOpen hgone
        have hother : ¬Holds folder key payload := fun hholds => by
          rw [Holds, hget] at hholds
          cases hholds
        simp only [fileStep, Removal.step, hget, reduceCtorEq, if_false, afterDropping,
          nextEntry_of_stock hbase hstock now _ hrest]
        exact .leave hother
  | deleting =>
      have hfile : folder.get? (entryName key) ≠ some .folder := by
        obtain hholds | hgone := hfound
        · simp [(holds_iff.mp hholds).2]
        · simp [hgone]
      simp only [fileStep, Removal.step, afterDropping,
        nextEntry_of_stock hbase hstock now _ hrest]
      exact .delete (remove_ne_blocked _ _ hremains.isOpen) (get?_remove_fine hreadable hfile)
  | done answer => exact absurd rfl (hrunning answer)

/-- A call of the file system that goes well is a step of a pass, unless the task waits
for no such call. -/
theorem passStep_fileStep (hbase : session.base = base) (hstock : Stock base origin listed)
    (hremains : Remains origin folder) {task : Task} (habout : task.IsAbout base origin listed) :
    let move := session.fileStep now .fine folder task
    let note := task.noteOfRead job folder
    (move = (folder, session, task) ∧ note = none) ∨
      PassStep base job folder documents task note move.1 documents move.2.2 := by
  cases task with
  | uploading snapshot => cases habout
  | clearing snapshot stage => cases habout
  | keeping snapshot stamp stage => cases habout
  | counting => cases habout
  | listing =>
      obtain ⟨found, hfound⟩ := hremains.exists_keys base
      simp only [fileStep, afterListing, hbase, hfound,
        nextEntry_of_stock hbase hstock now _ (hstock.subset_of_keys hremains hfound)]
      exact .inr (.list hfound)
  | reading key suffix pass =>
      exact .inr (passStep_reading now job documents hbase hstock hremains habout)
  | dropping key payload pass stage =>
      exact .inr (passStep_dropping now job documents hbase hstock hremains habout)
  | _ => exact .inl ⟨rfl, rfl⟩

end Session

end Scorekeeper.Save
