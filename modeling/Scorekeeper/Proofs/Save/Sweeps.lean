import Scorekeeper.Proofs.Queue.Atomicity
import Scorekeeper.Proofs.Save.Confluence
import Scorekeeper.Proofs.Save.Turns

/-!
# One pass on its own

A retry pass goes through the keys that it has listed, one after the other.  Nobody else
acts meanwhile, and what is to be removed can be removed; but the listing may fail, any
entry may be unreadable, and the store may refuse any upload.  How far the pass has come
is a position among the keys.  At every position the uploads are those of the keys before
it, and the folder lacks just the entries that the store has taken, so that a pass has
exactly one effect, which is read off at its end.
-/

namespace Scorekeeper.Save

open Queue Remote Files

variable {n : Nat}

/-- A pass that nobody interferes with: where and by whom it is begun, the luck of its listing
and of each reading, and what the store answers to each entry. -/
structure Sweep (n : Nat) where
  start : World n
  owner : Fin n
  list : Luck
  read : String → Luck
  answer : String → Except StorageError Unit

/-- How far a pass has come.  The keys in front are settled. -/
inductive Position where
  | listing
  /-- The keys could not be listed. -/
  | unlisted
  | between (settled pending : List String)
  | resending (settled : List String) (key payload : String) (rest : List String)
  | comparing (settled : List String) (key payload : String) (rest : List String)
  | deleting (settled : List String) (key payload : String) (rest : List String)

namespace Position

/-- The keys whose uploads have been answered, if they had one. -/
def sent : Position → List String
  | .listing | .unlisted => []
  | .between settled _ | .resending settled _ _ _ => settled
  | .comparing settled key _ _ | .deleting settled key _ _ => settled ++ [key]

/-- The keys whose entries have been removed, if they are to be. -/
def cleared : Position → List String
  | .listing | .unlisted => []
  | .between settled _ | .resending settled _ _ _ | .comparing settled _ _ _ |
    .deleting settled _ _ _ => settled

end Position

namespace Sweep

variable (sweep : Sweep n)

/-! ## What a pass is to do -/

def job : Nat :=
  sweep.start.jobs.length

/-- The session as it was before. -/
def before : Session :=
  sweep.start.sessions.get sweep.owner

/-- The session while the pass is under way. -/
def session : Session :=
  sweep.before.beginPass.1

def begun : World n :=
  sweep.start.step (.retry sweep.owner)

def listed : Except QueueError (List String) :=
  keys sweep.list sweep.before.base sweep.start.folder

/-- What the pass reads under a key, if that goes well. -/
def payload? (key : String) : Option String :=
  match get (sweep.read key) key sweep.start.folder with
  | .ok found => found
  | .error _ => none

/-- The upload that a key calls for, and the answer to it. -/
def upload? (key : String) : Option Upload :=
  (suffixOf sweep.before.base key).bind fun suffix =>
    (sweep.payload? key).map fun payload =>
      { path := "scorecard/" ++ suffix, payload, accepted := (sweep.answer key).isOk }

/-- Whether the store takes what is read under a key. -/
def isTaken (key : String) : Bool :=
  (sweep.payload? key).isSome && (sweep.answer key).isOk

/-- The names of the entries that go. -/
def goneNames (keys : List String) : List FileName :=
  (keys.filter sweep.isTaken).map entryName

/-- The count of a pass that has settled some keys. -/
def tally (keys : List String) : Report where
  uploaded := keys.countP sweep.isTaken
  skipped := 0
  failed := keys.countP fun key => !sweep.isTaken key

/-- The documents of the store after some uploads. -/
def storedAfter (documents : List (String × String)) (uploads : List Upload) :
    List (String × String) :=
  uploads.foldl
    (fun documents upload =>
      if upload.accepted then putDocument upload.path upload.payload documents else documents)
    documents

/-! ## Events of the pass -/

/-- The luck of the call that a task waits for. -/
def luck : Task → Luck
  | .listing => sweep.list
  | .reading key _ _ => sweep.read key
  | _ => .fine

/-- Which events may come next: calls of the pass itself, which go as they are to go. -/
def Allows (world : World n) : Event n → Prop
  | .file job luck => job = sweep.job ∧ ∀ task ∈ world.task? job, luck = sweep.luck task
  | .call job chances =>
      job = sweep.job ∧ chances.removal = .fine ∧
        ∀ task ∈ world.task? job, chances.look = sweep.luck task
  | .answer job result =>
      job = sweep.job ∧ ∀ key suffix payload pass,
        world.task? job = some (.resending key suffix payload pass) →
          result = sweep.answer key
  | .wait _ => True
  | _ => False

def IsRun : World n → List (Event n) → Prop
  | _, [] => True
  | world, event :: events => sweep.Allows world event ∧ IsRun (world.step event) events

/-! ## Positions -/

def task : Position → Task
  | .listing => .listing
  | .unlisted => .passed Report.zero.addFailed
  | .between settled pending => .onward sweep.before.base (sweep.tally settled) pending
  | .resending settled key payload rest =>
      .resending key ((suffixOf sweep.before.base key).getD "") payload
        ⟨rest, sweep.tally settled⟩
  | .comparing settled key payload rest =>
      .dropping key payload ⟨rest, sweep.tally settled⟩ .comparing
  | .deleting settled key payload rest =>
      .dropping key payload ⟨rest, sweep.tally settled⟩ .deleting

/-- The report of a pass that has ended. -/
def report? : Position → Option Report
  | .unlisted => some Report.zero.addFailed
  | .between settled [] => some (sweep.tally settled)
  | _ => none

/-- How many calls and answers are left at most. -/
def remaining : Position → Nat
  | .listing =>
    match sweep.listed with
    | .ok keys => 4 * keys.length + 1
    | .error _ => 1
  | .unlisted => 0
  | .between _ pending => 4 * pending.length
  | .resending _ _ _ rest => 4 * rest.length + 3
  | .comparing _ _ _ rest => 4 * rest.length + 2
  | .deleting _ _ _ rest => 4 * rest.length + 1

/-- A position lies among the keys that were listed, and a key is uploaded with what was read
under it, and removed when the store took that. -/
def IsAmong : Position → Prop
  | .listing => True
  | .unlisted => ∃ error, sweep.listed = .error error
  | .between settled pending => sweep.listed = .ok (settled ++ pending)
  | .resending settled key payload rest =>
      sweep.listed = .ok (settled ++ key :: rest) ∧ sweep.payload? key = some payload
  | .comparing settled key payload rest | .deleting settled key payload rest =>
      sweep.listed = .ok (settled ++ key :: rest) ∧ sweep.payload? key = some payload ∧
        (sweep.answer key).isOk = true

/-- The session of the pass.  What its end makes of it depends on the time. -/
def Mans (position : Position) (now : Nat) (session : Session) : Prop :=
  match sweep.report? position with
  | none => session = sweep.session
  | some report =>
    ∃ time, sweep.start.now ≤ time ∧ time ≤ now ∧
      session = (sweep.session.endPass time report).1

/-- The folder lacks the entries that the store has taken, and is otherwise as it was. -/
structure Lacks (keys : List String) (folder : Folder) : Prop where
  stands : Folder.Stands sweep.start.folder folder
  gone : ∀ name ∈ sweep.goneNames keys, folder.get? name = none
  kept : ∀ name ∉ sweep.goneNames keys, folder.get? name = sweep.start.folder.get? name
  untouched : keys.filter sweep.isTaken = [] → folder = sweep.start.folder

/-- The store was given the uploads of the keys up to a position, and nothing else. -/
def HasSent (position : Position) (world : World n) : Prop :=
  world.uploads = sweep.start.uploads ++ position.sent.filterMap sweep.upload? ∧
    world.documents = storedAfter sweep.start.documents (position.sent.filterMap sweep.upload?)

/-- The pass has come to a position, and has done what is to be done up to it. -/
structure IsAt (position : Position) (world : World n) : Prop where
  among : sweep.IsAmong position
  clock : sweep.start.now ≤ world.now
  task : world.jobs[sweep.job]? = some { session := sweep.owner, task := sweep.task position }
  session : sweep.Mans position world.now (world.sessions.get sweep.owner)
  folder : sweep.Lacks position.cleared world.folder
  sent : sweep.HasSent position world

variable {sweep}

/-! ## Counting -/

theorem tally_taken {settled : List String} {key : String} (htaken : sweep.isTaken key = true) :
    sweep.tally (settled ++ [key]) = (sweep.tally settled).addUploaded := by
  simp [tally, Report.addUploaded, List.countP_append, htaken]

theorem tally_kept {settled : List String} {key : String} (hkept : sweep.isTaken key = false) :
    sweep.tally (settled ++ [key]) = (sweep.tally settled).addFailed := by
  simp [tally, Report.addFailed, List.countP_append, hkept]

theorem goneNames_append_of_kept (settled : List String) {key : String}
    (hkept : sweep.isTaken key = false) :
    sweep.goneNames (settled ++ [key]) = sweep.goneNames settled := by
  simp [goneNames, hkept]

theorem mem_goneNames_iff {keys : List String} {key : String} :
    entryName key ∈ sweep.goneNames keys ↔ key ∈ keys ∧ sweep.isTaken key = true := by
  rw [goneNames, List.mem_map]
  constructor
  · rintro ⟨other, hmem, hname⟩
    rw [← entryName_injective hname]
    exact List.mem_filter.mp hmem
  · intro hmem
    exact ⟨key, List.mem_filter.mpr hmem, rfl⟩

/-! ## What was listed -/

section Listed

variable {listed : List String} {key payload : String}

theorem luck_of_listed (hlisted : sweep.listed = .ok listed) : sweep.list = .fine :=
  luck_of_keys hlisted

theorem mem_listed_iff (hlisted : sweep.listed = .ok listed) :
    key ∈ listed ↔ (sweep.start.folder.get? (entryName key)).isSome = true ∧
      ∃ suffix, suffix ≠ "" ∧ key = keyFor sweep.before.base suffix := by
  rw [Sweep.listed, luck_of_listed hlisted] at hlisted
  exact mem_keys_iff hlisted

theorem isAscending_listed (hlisted : sweep.listed = .ok listed) : IsAscending listed :=
  isAscending_keys hlisted

theorem exists_suffix (hlisted : sweep.listed = .ok listed) (hmem : key ∈ listed) :
    ∃ suffix, suffixOf sweep.before.base key = some suffix :=
  exists_suffix_of_mem_keys hlisted hmem

theorem not_isAbsent_folder (hlisted : sweep.listed = .ok listed) (hmem : key ∈ listed) :
    ¬sweep.start.folder.IsAbsent := by
  rintro ⟨head, habsent⟩
  obtain ⟨hentry, -⟩ := (mem_listed_iff hlisted).mp hmem
  rw [habsent] at hentry
  cases hentry

theorem get_of_payload? (hpayload : sweep.payload? key = some payload) :
    get (sweep.read key) key sweep.start.folder = .ok (some payload) := by
  rw [payload?] at hpayload
  split at hpayload
  · next found hget => rw [hget, hpayload]
  · cases hpayload

theorem holds_of_payload? (hpayload : sweep.payload? key = some payload) :
    Holds sweep.start.folder key payload :=
  holds_iff.mpr (get_eq_some_iff.mp (get_of_payload? hpayload)).2

/-- An entry that was listed and is not read is an error: it is there. -/
theorem exists_error_of_payload? (hlisted : sweep.listed = .ok listed) (hmem : key ∈ listed)
    (hpayload : sweep.payload? key = none) :
    ∃ error, get (sweep.read key) key sweep.start.folder = .error error := by
  rw [payload?] at hpayload
  split at hpayload
  · next found hget =>
    rw [hpayload] at hget
    obtain ⟨hentry, -⟩ := (mem_listed_iff hlisted).mp hmem
    rw [get?_of_get_none hget] at hentry
    cases hentry
  · next error hget => exact ⟨error, hget⟩

theorem isTaken_eq (hpayload : sweep.payload? key = some payload) :
    sweep.isTaken key = (sweep.answer key).isOk := by
  rw [isTaken, hpayload, Option.isSome_some, Bool.true_and]

theorem isTaken_of_unread (hpayload : sweep.payload? key = none) :
    sweep.isTaken key = false := by
  rw [isTaken, hpayload]
  rfl

theorem upload?_of_unread (hpayload : sweep.payload? key = none) :
    sweep.upload? key = none := by
  rw [upload?, hpayload]
  cases suffixOf sweep.before.base key <;> rfl

theorem upload?_of_payload? (hlisted : sweep.listed = .ok listed) (hmem : key ∈ listed)
    (hpayload : sweep.payload? key = some payload) :
    sweep.upload? key = some
      { path := (DocumentKey.scorecard ((suffixOf sweep.before.base key).getD "")).path, payload
        accepted := (sweep.answer key).isOk } := by
  obtain ⟨suffix, hsuffix⟩ := exists_suffix hlisted hmem
  rw [upload?, hpayload, hsuffix]
  rfl

/-- A key that has not been settled is not one of those before it. -/
theorem notMem_settled {settled rest : List String}
    (hlisted : sweep.listed = .ok (settled ++ key :: rest)) : key ∉ settled := by
  have hdistinct : (settled ++ key :: rest).Nodup := (isAscending_listed hlisted).imp And.right
  rw [List.nodup_middle, List.nodup_cons] at hdistinct
  exact fun hmem => hdistinct.1 (List.mem_append_left rest hmem)

end Listed

/-! ## The folder -/

namespace Lacks

variable {settled rest : List String} {key payload : String} {folder : Folder}

theorem refl : sweep.Lacks [] sweep.start.folder :=
  ⟨.refl _, nofun, fun _ _ => rfl, fun _ => rfl⟩

theorem get_eq (hlacks : sweep.Lacks settled folder)
    (hlisted : sweep.listed = .ok (settled ++ key :: rest)) (luck : Luck) :
    get luck key folder = get luck key sweep.start.folder := by
  have hmem : key ∈ settled ++ key :: rest := by simp
  apply get_congr hlacks.stands (not_isAbsent_folder hlisted hmem)
  apply hlacks.kept
  rw [mem_goneNames_iff]
  exact fun hgone => notMem_settled hlisted hgone.1

theorem append_of_kept (hlacks : sweep.Lacks settled folder)
    (hkept : sweep.isTaken key = false) : sweep.Lacks (settled ++ [key]) folder := by
  have hgone := goneNames_append_of_kept settled hkept
  refine ⟨hlacks.stands, ?_, ?_, ?_⟩
  · rw [hgone]
    exact hlacks.gone
  · rw [hgone]
    exact hlacks.kept
  · intro hnone
    apply hlacks.untouched
    rw [List.filter_append, List.append_eq_nil_iff] at hnone
    exact hnone.1

/-- Removing an entry whose payload the store has taken. -/
theorem append_of_taken (hlacks : sweep.Lacks settled folder)
    (hlisted : sweep.listed = .ok (settled ++ key :: rest))
    (hpayload : sweep.payload? key = some payload) (htaken : sweep.isTaken key = true) :
    sweep.Lacks (settled ++ [key]) (remove .fine key folder).2 := by
  have hholds : Holds folder key payload := by
    rw [Holds, hlacks.get_eq hlisted]
    exact holds_of_payload? hpayload
  obtain ⟨hreadable, hentry⟩ := holds_iff.mp hholds
  have hfile : folder.get? (entryName key) ≠ some .folder := by simp [hentry]
  have hremoved := get?_remove_fine hreadable hfile
  have hnames (name : FileName) : name ∈ sweep.goneNames (settled ++ [key]) ↔
      name ∈ sweep.goneNames settled ∨ name = entryName key := by
    simp [goneNames, htaken]
  refine ⟨hlacks.stands.trans (stands_remove .fine key folder), ?_, ?_, ?_⟩
  · intro name hname
    rw [hremoved name]
    split
    · rfl
    · next hne => exact hlacks.gone name (((hnames name).mp hname).resolve_right hne)
  · intro name hname
    rw [hnames, not_or] at hname
    rw [hremoved name, if_neg hname.2]
    exact hlacks.kept name hname.1
  · intro hnone
    simp [htaken] at hnone

end Lacks

/-! ## Moves of the pass -/

section Moves

variable {position after : Position} {settled pending rest : List String} {key payload : String}
  {world : World n}

theorem Mans.wait {now later : Nat} {session : Session}
    (hmans : sweep.Mans position now session) (hlater : now ≤ later) :
    sweep.Mans position later session := by
  rw [Mans] at hmans ⊢
  split
  · next hreport =>
    rw [hreport] at hmans
    exact hmans
  · next report hreport =>
    rw [hreport] at hmans
    obtain ⟨time, hstart, htime, hsession⟩ := hmans
    exact ⟨time, hstart, Nat.le_trans htime hlater, hsession⟩

/-- With the keys before them settled, a pass turns to the keys that are left, or it ends. -/
theorem nextEntry_eq (hamong : sweep.IsAmong (.between settled pending)) {now : Nat}
    (hclock : sweep.start.now ≤ now) :
    let move := sweep.session.nextEntry now (sweep.tally settled) pending
    move.2 = sweep.task (.between settled pending) ∧
      sweep.Mans (.between settled pending) now move.1 := by
  have hsuffixes (key : String) (hmem : key ∈ pending) :
      ∃ suffix, suffixOf sweep.before.base key = some suffix :=
    exists_suffix hamong (List.mem_append_right settled hmem)
  refine ⟨Session.nextEntry_eq_onward rfl _ _ hsuffixes, ?_⟩
  cases pending with
  | nil => exact ⟨now, hclock, Nat.le_refl now, rfl⟩
  | cons key rest =>
      obtain ⟨suffix, hsuffix⟩ := hsuffixes key List.mem_cons_self
      have hbase : sweep.session.base = sweep.before.base := rfl
      rw [Session.nextEntry, hbase, hsuffix]
      rfl

theorem isAt_proceed {move : Folder × Session × Task} (hamong : sweep.IsAmong after)
    (hclock : sweep.start.now ≤ world.now) (hjob : sweep.job < world.jobs.length)
    (htask : move.2.2 = sweep.task after) (hsession : sweep.Mans after world.now move.2.1)
    (hfolder : sweep.Lacks after.cleared move.1) (hsent : sweep.HasSent after world) :
    sweep.IsAt after (world.proceed sweep.job sweep.owner move) where
  among := hamong
  clock := hclock
  task := by
    rw [← htask]
    exact List.getElem?_set_self hjob
  session := by
    rw [World.proceed, World.get_setSession_self]
    exact hsession
  folder := hfolder
  sent := hsent

theorem IsAt.job_lt (hat : sweep.IsAt position world) : sweep.job < world.jobs.length :=
  (List.getElem?_eq_some_iff.mp hat.task).1

theorem IsAt.proceed (hat : sweep.IsAt position world) {move : Folder × Session × Task}
    (hamong : sweep.IsAmong after) (htask : move.2.2 = sweep.task after)
    (hsession : sweep.Mans after world.now move.2.1) (hfolder : sweep.Lacks after.cleared move.1)
    (hsent : after.sent.filterMap sweep.upload? = position.sent.filterMap sweep.upload?) :
    sweep.IsAt after (world.proceed sweep.job sweep.owner move) := by
  apply isAt_proceed hamong hat.clock hat.job_lt htask hsession hfolder
  rw [HasSent, hsent]
  exact hat.sent

theorem IsAt.list (hat : sweep.IsAt .listing world) :
    ∃ after, sweep.remaining after < sweep.remaining .listing ∧
      sweep.IsAt after (world.proceed sweep.job sweep.owner
        (sweep.session.fileStep world.now sweep.list world.folder .listing)) := by
  have hfolder : world.folder = sweep.start.folder := hat.folder.untouched rfl
  rw [Session.fileStep, hfolder, show sweep.session.base = sweep.before.base from rfl,
    ← Sweep.listed, remaining]
  cases hlisted : sweep.listed with
  | error error =>
      refine ⟨.unlisted, Nat.one_pos, hat.proceed ⟨error, hlisted⟩ ?_ ?_ .refl rfl⟩
      · exact Session.task_endPass _ _ _
      · exact ⟨world.now, hat.clock, Nat.le_refl _, rfl⟩
  | ok keys =>
      have hamong : sweep.IsAmong (.between [] keys) := hlisted
      obtain ⟨htask, hsession⟩ := nextEntry_eq hamong hat.clock
      refine ⟨.between [] keys, Nat.lt_succ_self _, hat.proceed hamong ?_ ?_ .refl rfl⟩
      · exact htask
      · exact hsession

/-- An entry is read, or it cannot be read and is left for another pass. -/
theorem IsAt.read (hat : sweep.IsAt (.between settled (key :: rest)) world) :
    ∃ after, sweep.remaining after < 4 * rest.length + 4 ∧
      sweep.IsAt after (world.proceed sweep.job sweep.owner
        (sweep.session.fileStep world.now (sweep.read key) world.folder
          (sweep.task (.between settled (key :: rest))))) := by
  have hlisted : sweep.listed = .ok (settled ++ key :: rest) := hat.among
  have hmem : key ∈ settled ++ key :: rest := by simp
  simp only [Sweep.task, Task.onward, Session.fileStep, hat.folder.get_eq hlisted]
  cases hpayload : sweep.payload? key with
  | some payload =>
      rw [get_of_payload? hpayload]
      refine ⟨.resending settled key payload rest, Nat.lt_succ_self _,
        hat.proceed ⟨hlisted, hpayload⟩ rfl rfl hat.folder rfl⟩
  | none =>
      obtain ⟨error, hget⟩ := exists_error_of_payload? hlisted hmem hpayload
      have hkept := isTaken_of_unread hpayload
      have hamong : sweep.IsAmong (.between (settled ++ [key]) rest) := by
        simpa [IsAmong] using hlisted
      obtain ⟨htask, hsession⟩ := nextEntry_eq hamong hat.clock
      rw [tally_kept hkept] at htask hsession
      rw [hget]
      refine ⟨.between (settled ++ [key]) rest, by simp [remaining],
        hat.proceed hamong htask hsession (hat.folder.append_of_kept hkept) ?_⟩
      simp [Position.sent, upload?_of_unread hpayload]

/-- An entry that the store has taken is removed. -/
theorem IsAt.clear (hat : sweep.IsAt position world)
    (hlisted : sweep.listed = .ok (settled ++ key :: rest))
    (hpayload : sweep.payload? key = some payload) (haccepted : (sweep.answer key).isOk = true)
    (hcleared : position.cleared = settled) (hsent : position.sent = settled ++ [key]) :
    sweep.IsAt (.between (settled ++ [key]) rest)
      (world.proceed sweep.job sweep.owner ((remove .fine key world.folder).2,
        sweep.session.afterDropping world.now ⟨rest, sweep.tally settled⟩)) := by
  have htaken : sweep.isTaken key = true := (isTaken_eq hpayload).trans haccepted
  have hamong : sweep.IsAmong (.between (settled ++ [key]) rest) := by
    simpa [IsAmong] using hlisted
  obtain ⟨htask, hsession⟩ := nextEntry_eq hamong hat.clock
  rw [tally_taken htaken] at htask hsession
  have hfolder := hat.folder
  rw [hcleared] at hfolder
  refine hat.proceed hamong htask hsession ?_ ?_
  · exact hfolder.append_of_taken hlisted hpayload htaken
  · rw [hsent]
    rfl

theorem IsAt.compare (hat : sweep.IsAt (.comparing settled key payload rest) world) :
    sweep.IsAt (.deleting settled key payload rest)
      (world.proceed sweep.job sweep.owner
        (sweep.session.fileStep world.now .fine world.folder
          (sweep.task (.comparing settled key payload rest)))) := by
  obtain ⟨hlisted, hpayload, -⟩ := hat.among
  have hholds : get .fine key world.folder = .ok (some payload) := by
    rw [hat.folder.get_eq hlisted]
    exact holds_of_payload? hpayload
  simp only [Sweep.task, Session.fileStep, Removal.step, hholds, if_true]
  exact hat.proceed hat.among rfl rfl hat.folder rfl

theorem HasSent.record (hsent : sweep.HasSent (.resending settled key payload rest) world)
    {upload : Upload} (hupload : sweep.upload? key = some upload)
    (hafter : after.sent = settled ++ [key]) :
    sweep.HasSent after (world.record upload.path upload.payload upload.accepted) := by
  obtain ⟨huploads, hdocuments⟩ := hsent
  have hsame : after.sent.filterMap sweep.upload? =
      settled.filterMap sweep.upload? ++ [upload] := by
    simp [hafter, hupload]
  rw [HasSent, hsame]
  constructor
  · rw [World.record, huploads, List.append_assoc]
    rfl
  · rw [World.record, hdocuments, storedAfter, storedAfter, List.foldl_append]
    rfl

theorem IsAt.session_eq (hat : sweep.IsAt position world)
    (hunfinished : sweep.report? position = none) :
    world.sessions.get sweep.owner = sweep.session := by
  have hmans := hat.session
  rw [Mans, hunfinished] at hmans
  exact hmans

theorem IsAt.serial (hat : sweep.IsAt position world) (serial : UInt64) :
    sweep.IsAt position { world with serial } :=
  { hat with }

/-- The store has answered the upload of an entry. -/
theorem IsAt.answered (hat : sweep.IsAt (.resending settled key payload rest) world) :
    ∃ after, sweep.remaining after < 4 * rest.length + 3 ∧
      sweep.IsAt after (world.step (.answer sweep.job (sweep.answer key))) := by
  obtain ⟨hlisted, hpayload⟩ := hat.among
  have hupload := upload?_of_payload? hlisted (by simp) hpayload
  have hsent := hat.sent
  simp only [World.step, World.answer, hat.task, Sweep.task, Task.upload?, hat.session_eq rfl]
  cases hanswer : sweep.answer key with
  | ok accepted =>
      have haccepted : (sweep.answer key).isOk = true := by rw [hanswer]; rfl
      rw [hanswer] at hupload
      refine ⟨.comparing settled key payload rest, Nat.lt_succ_self _, IsAt.serial ?_ _⟩
      exact isAt_proceed ⟨hlisted, hpayload, haccepted⟩ hat.clock hat.job_lt rfl rfl hat.folder
        (hsent.record hupload rfl)
  | error error =>
      have hkept : sweep.isTaken key = false := by
        rw [isTaken_eq hpayload, hanswer]
        rfl
      have hamong : sweep.IsAmong (.between (settled ++ [key]) rest) := by
        simpa [IsAmong] using hlisted
      obtain ⟨htask, hmans⟩ := nextEntry_eq hamong hat.clock
      rw [tally_kept hkept] at htask hmans
      rw [hanswer] at hupload
      refine ⟨.between (settled ++ [key]) rest, by simp [remaining], IsAt.serial ?_ _⟩
      exact isAt_proceed hamong hat.clock hat.job_lt htask hmans (hat.folder.append_of_kept hkept)
        (hsent.record hupload rfl)

/-! ## Events of the pass -/

/-- The event that the pass waits for. -/
def nextEvent? (sweep : Sweep n) : Position → Option (Event n)
  | .unlisted | .between _ [] => none
  | .resending _ key _ _ => some (.answer sweep.job (sweep.answer key))
  | position => some (.file sweep.job (sweep.luck (sweep.task position)))

theorem IsAt.task?_eq (hat : sweep.IsAt position world) :
    world.task? sweep.job = some (sweep.task position) := by
  rw [World.task?, hat.task]
  rfl

theorem IsAt.step_file (hat : sweep.IsAt position world) (luck : Luck) :
    world.step (.file sweep.job luck) =
      world.proceed sweep.job sweep.owner
        ((world.sessions.get sweep.owner).fileStep world.now luck world.folder
          (sweep.task position)) := by
  simp only [World.step, hat.task]

theorem IsAt.progress (hat : sweep.IsAt position world) {event : Event n}
    (hnext : sweep.nextEvent? position = some event) :
    sweep.Allows world event ∧ ∃ after, sweep.remaining after < sweep.remaining position ∧
      sweep.IsAt after (world.step event) := by
  have hfile : sweep.Allows world (.file sweep.job (sweep.luck (sweep.task position))) := by
    refine ⟨rfl, fun task htask => ?_⟩
    rw [hat.task?_eq] at htask
    rw [Option.mem_some_iff.mp htask]
  cases position with
  | unlisted => cases hnext
  | listing =>
      cases hnext
      refine ⟨hfile, ?_⟩
      rw [hat.step_file, hat.session_eq rfl]
      exact hat.list
  | between settled pending =>
      cases pending with
      | nil => cases hnext
      | cons key rest =>
          cases hnext
          refine ⟨hfile, ?_⟩
          rw [hat.step_file, hat.session_eq rfl]
          exact hat.read
  | resending settled key payload rest =>
      cases hnext
      refine ⟨⟨rfl, ?_⟩, hat.answered⟩
      intro other suffix text pass htask
      rw [hat.task?_eq] at htask
      cases htask
      rfl
  | comparing settled key payload rest =>
      cases hnext
      refine ⟨hfile, .deleting settled key payload rest, Nat.lt_succ_self _, ?_⟩
      rw [hat.step_file, hat.session_eq rfl]
      exact hat.compare
  | deleting settled key payload rest =>
      cases hnext
      obtain ⟨hlisted, hpayload, haccepted⟩ := hat.among
      refine ⟨hfile, .between (settled ++ [key]) rest, Nat.lt_succ_self _, ?_⟩
      rw [hat.step_file, hat.session_eq rfl]
      exact hat.clear hlisted hpayload haccepted rfl rfl

theorem IsAt.wait (hat : sweep.IsAt position world) (duration : Nat) :
    sweep.IsAt position (world.step (.wait duration)) :=
  { hat with
    clock := Nat.le_add_right_of_le hat.clock
    session := hat.session.wait (Nat.le_add_right _ _) }

theorem IsAt.exists_file (hat : sweep.IsAt position world) :
    ∃ after, sweep.IsAt after
      (world.step (.file sweep.job (sweep.luck (sweep.task position)))) := by
  have hprogress (hnext : sweep.nextEvent? position =
      some (.file sweep.job (sweep.luck (sweep.task position)))) :
      ∃ after, sweep.IsAt after
        (world.step (.file sweep.job (sweep.luck (sweep.task position)))) := by
    obtain ⟨-, after, -, hafter⟩ := hat.progress hnext
    exact ⟨after, hafter⟩
  have hstill (hmove : (world.sessions.get sweep.owner).fileStep world.now
      (sweep.luck (sweep.task position)) world.folder (sweep.task position) =
        (world.folder, world.sessions.get sweep.owner, sweep.task position)) :
      ∃ after, sweep.IsAt after
        (world.step (.file sweep.job (sweep.luck (sweep.task position)))) := by
    rw [hat.step_file, hmove, World.proceed_self hat.task]
    exact ⟨position, hat⟩
  cases position with
  | unlisted => exact hstill rfl
  | resending settled key payload rest => exact hstill rfl
  | between settled pending =>
      cases pending with
      | nil => exact hstill rfl
      | cons key rest => exact hprogress rfl
  | _ => exact hprogress rfl

theorem IsAt.exists_call (hat : sweep.IsAt position world) {chances : Session.Chances}
    (hremoval : chances.removal = .fine) (hlook : chances.look = sweep.luck (sweep.task position)) :
    ∃ after, sweep.IsAt after (world.step (.call sweep.job chances)) := by
  have hfile (hsame : ∀ session : Session, session.callStep world.now chances world.folder
      (sweep.task position) = session.fileStep world.now (sweep.luck (sweep.task position))
        world.folder (sweep.task position)) :
      ∃ after, sweep.IsAt after (world.step (.call sweep.job chances)) := by
    rw [World.step_call hat.task, hsame, ← hat.step_file]
    exact hat.exists_file
  have hstill (hmove : (world.sessions.get sweep.owner).callStep world.now chances world.folder
      (sweep.task position) =
        (world.folder, world.sessions.get sweep.owner, sweep.task position)) :
      ∃ after, sweep.IsAt after (world.step (.call sweep.job chances)) := by
    rw [World.step_call hat.task, hmove, World.proceed_self hat.task]
    exact ⟨position, hat⟩
  cases position with
  | unlisted => exact hstill rfl
  | resending settled key payload rest => exact hstill rfl
  | deleting settled key payload rest => exact hstill rfl
  | listing => exact hfile fun session => by rw [← hlook]; rfl
  | between settled pending =>
      cases pending with
      | nil => exact hstill rfl
      | cons key rest => exact hfile fun session => by rw [← hlook]; rfl
  | comparing settled key payload rest =>
      obtain ⟨hlisted, hpayload, haccepted⟩ := hat.among
      have hholds : get .fine key world.folder = .ok (some payload) := by
        rw [hat.folder.get_eq hlisted]
        exact holds_of_payload? hpayload
      have hrun : ({ key, payload } : Removal).run .fine world.folder =
          remove .fine key world.folder := by
        simp only [Removal.run, Removal.step, Removal.Chances.fine, hholds, if_true]
      refine ⟨.between (settled ++ [key]) rest, ?_⟩
      rw [World.step_call hat.task, hat.session_eq rfl]
      simp only [Sweep.task, Session.callStep, hremoval, hrun]
      exact hat.clear hlisted hpayload haccepted rfl rfl

theorem IsAt.exists_answer (hat : sweep.IsAt position world) {result : Except StorageError Unit}
    (hresult : ∀ key suffix payload pass,
      world.task? sweep.job = some (.resending key suffix payload pass) →
        result = sweep.answer key) :
    ∃ after, sweep.IsAt after (world.step (.answer sweep.job result)) := by
  have hstill (hupload : (sweep.task position).upload? = none) :
      ∃ after, sweep.IsAt after (world.step (.answer sweep.job result)) := by
    refine ⟨position, ?_⟩
    simp only [World.step, World.answer, hat.task, hupload]
    exact hat
  cases position with
  | resending settled key payload rest =>
      rw [hresult _ _ _ _ hat.task?_eq]
      obtain ⟨after, -, hafter⟩ := hat.answered
      exact ⟨after, hafter⟩
  | between settled pending =>
      cases pending with
      | nil => exact hstill rfl
      | cons key rest => exact hstill rfl
  | _ => exact hstill rfl

/-- Whatever event may come next, the pass stays at its position or comes to a later one. -/
theorem IsAt.step (hat : sweep.IsAt position world) {event : Event n}
    (hallows : sweep.Allows world event) :
    ∃ after, sweep.IsAt after (world.step event) := by
  cases event with
  | wait duration => exact ⟨position, hat.wait duration⟩
  | file job luck =>
      obtain ⟨rfl, hluck⟩ := hallows
      rw [hluck _ hat.task?_eq]
      exact hat.exists_file
  | call job chances =>
      obtain ⟨rfl, hremoval, hlook⟩ := hallows
      exact hat.exists_call hremoval (hlook _ hat.task?_eq)
  | answer job result =>
      obtain ⟨rfl, hresult⟩ := hallows
      exact hat.exists_answer hresult
  | _ => cases hallows

theorem IsAt.run (hat : sweep.IsAt position world) {events : List (Event n)}
    (hrun : sweep.IsRun world events) : ∃ after, sweep.IsAt after (world.run events) := by
  induction events generalizing position world with
  | nil => exact ⟨position, hat⟩
  | cons event events ih =>
      obtain ⟨hallows, hrest⟩ := hrun
      obtain ⟨after, hafter⟩ := hat.step hallows
      exact ih hafter hrest

theorem isAt_begun (sweep : Sweep n) : sweep.IsAt .listing sweep.begun where
  among := trivial
  clock := Nat.le_refl _
  task := List.getElem?_concat_length
  session := World.get_setSession_self _ _ _
  folder := .refl
  sent := ⟨(List.append_nil _).symm, rfl⟩

/-- The pass can come to its end, from wherever it is. -/
theorem IsAt.exists_end (hat : sweep.IsAt position world) :
    ∃ events after, sweep.IsRun world events ∧ sweep.IsAt after (world.run events) ∧
      sweep.nextEvent? after = none := by
  induction hleft : sweep.remaining position using Nat.strongRecOn
    generalizing position world with
  | ind left ih =>
      subst hleft
      cases hnext : sweep.nextEvent? position with
      | none => exact ⟨[], position, trivial, hat, hnext⟩
      | some event =>
          obtain ⟨hallows, after, hless, hafter⟩ := hat.progress hnext
          obtain ⟨events, last, hrun, hlast, hend⟩ := ih _ hless hafter rfl
          exact ⟨event :: events, last, ⟨hallows, hrun⟩, hlast, hend⟩

end Moves

end Sweep

end Scorekeeper.Save
