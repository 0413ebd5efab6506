import Mathlib.Logic.Function.Iterate
import Scorekeeper.Proofs.Queue.Names

/-!
# What the calls of a queue do to its entries

Every call of the queue is described by what can be found in the folder after it.
A put that succeeds writes one entry and touches no other; one that fails, at
whatever step, leaves every entry as it was.  A removal takes away at most the
entry it is about, and only if it found the expected payload there.
-/

namespace Scorekeeper.Files.Folder

variable (folder : Folder) (luck : Luck) {name other : FileName}

theorem resolve_eq_ok_iff {folder : Folder} {entries : Entries} :
    folder.resolve name = .ok entries ↔
      folder = .present entries ∧ isImpossible name = false ∧
        name.size ≤ nameLimit := by
  unfold resolve
  split
  · next himpossible => simp [himpossible]
  · next hpossible =>
    have hfalse : isImpossible name = false := by simpa using hpossible
    cases folder with
    | absent => simp
    | blocked => simp
    | present found =>
        by_cases hlong : nameLimit < name.size
        · simp [hlong]
        · simp [hlong, hfalse, Nat.not_lt.mp hlong]

/-- Where there is no folder, no name that a file can have is found. -/
theorem resolve_absent (head : PathHead) (hpossible : isImpossible name = false)
    (hshort : name.size ≤ nameLimit) : (absent head).resolve name = .error .notFound := by
  have hfits : ¬pathLimit ≤ head.size + name.size := by
    have := head.fits
    omega
  simp [resolve, hpossible, hfits]

/-- Once a folder is made where nothing was, a name that was not found can be looked up, unless it
is too long. -/
theorem resolve_absent_cases (head : PathHead) (entries : Entries) (name : FileName) :
    (absent head).resolve name = .error .other ∧
        (present entries).resolve name = .error .other ∨
      (absent head).resolve name = .error .notFound ∧
        (present entries).resolve name =
          if nameLimit < name.size then .error .other else .ok entries := by
  by_cases himpossible : isImpossible name = true
  · simp [resolve, himpossible]
  · by_cases hpath : pathLimit ≤ head.size + name.size
    · have hlong : nameLimit < name.size := by
        have := head.fits
        omega
      simp [resolve, himpossible, hpath, hlong]
    · simp [resolve, himpossible, hpath]

@[simp]
theorem get?_makeFolder (name : FileName) :
    (folder.makeFolder luck).2.get? name = folder.get? name := by
  cases folder <;> cases luck <;> rfl

theorem get?_writeFile_of_ne (content : ByteArray) (hne : other ≠ name) :
    (folder.writeFile luck name content).2.get? other = folder.get? other := by
  rw [writeFile]
  split
  · rfl
  · next entries hresolve =>
    obtain ⟨rfl, -, -⟩ := resolve_eq_ok_iff.mp hresolve
    split
    · rfl
    · cases luck <;> simp [get?, Entries.get?_put, hne]

theorem get?_writeFile_of_ok (name : FileName) (content : ByteArray)
    (hok : (folder.writeFile luck name content).1 = .ok ()) :
    (folder.writeFile luck name content).2.get? name = some (.file content) := by
  rw [writeFile] at hok ⊢
  split at hok
  · cases hok
  · next entries hresolve =>
    split at hok
    · cases hok
    · cases luck with
      | fine => simp [get?, Entries.get?_put]
      | fails => cases hok
      | stops written => cases hok

/-- A renaming that succeeds moves the file; one that fails does nothing. -/
theorem rename_cases (source target : FileName) :
    ((folder.rename luck source target).1 = .ok () ∧
        target.size ≤ nameLimit ∧ isImpossible target = false ∧
        (folder.rename luck source target).2.get? target = folder.get? source ∧
        (∀ other, other ≠ source → other ≠ target →
          (folder.rename luck source target).2.get? other = folder.get? other)) ∨
      ∃ error, folder.rename luck source target = (.error error, folder) := by
  rw [rename]
  split
  · exact .inr ⟨_, rfl⟩
  · split
    · exact .inr ⟨_, rfl⟩
    · exact .inr ⟨_, rfl⟩
    · next entries found hsource htarget =>
      obtain ⟨rfl, -, -⟩ := resolve_eq_ok_iff.mp hsource
      obtain ⟨-, hpossible, hshort⟩ := resolve_eq_ok_iff.mp htarget
      split
      · exact .inr ⟨_, rfl⟩
      · exact .inr ⟨_, rfl⟩
      · next node hnode _ =>
        refine .inl ⟨rfl, hshort, hpossible, ?_, fun other hs ht => ?_⟩
        · simp [get?, Entries.get?_put, hnode]
        · simp [get?, Entries.get?_put, Entries.get?_erase, hs, ht]

/-- A deletion that succeeds takes the file away; one that fails does nothing. -/
theorem deleteFile_cases (name : FileName) :
    ((folder.deleteFile luck name).1 = .ok () ∧
        ∀ other, (folder.deleteFile luck name).2.get? other =
          if other = name then none else folder.get? other) ∨
      ∃ error, folder.deleteFile luck name = (.error error, folder) := by
  rw [deleteFile]
  split
  · exact .inr ⟨_, rfl⟩
  · split
    · exact .inr ⟨_, rfl⟩
    · next entries hresolve =>
      obtain ⟨rfl, -, -⟩ := resolve_eq_ok_iff.mp hresolve
      split
      · exact .inr ⟨_, rfl⟩
      · exact .inr ⟨_, rfl⟩
      · exact .inl ⟨rfl, fun other => Entries.get?_erase entries name other⟩

end Scorekeeper.Files.Folder

namespace Scorekeeper.Queue

open Files

variable {folder start : Folder} {key payload : String} {luck : Luck}

/-- Whether the entry of a key can be looked up in a folder that is there. -/
def IsReadable (key : String) : Prop :=
  isSafeKey key.toList = true ∧ Folder.isImpossible (entryName key) = false ∧
    (entryName key).size ≤ nameLimit

theorem IsReadable.resolve (hreadable : IsReadable key) (entries : Entries) :
    Folder.resolve (.present entries) (entryName key) = .ok entries :=
  Folder.resolve_eq_ok_iff.mpr ⟨rfl, hreadable.2⟩

theorem IsReadable.resolve_absent (hreadable : IsReadable key) (head : PathHead) :
    Folder.resolve (.absent head) (entryName key) = .error .notFound :=
  Folder.resolve_absent head hreadable.2.1 hreadable.2.2

/-- The entry of a key holds a payload: reading it gives that payload. -/
def Holds (folder : Folder) (key payload : String) : Prop :=
  get .fine key folder = .ok (some payload)

theorem get_eq_some_iff :
    get luck key folder = .ok (some payload) ↔
      luck = .fine ∧ IsReadable key ∧
        folder.get? (entryName key) = some (.file payload.toByteArray) := by
  constructor
  · intro h
    rw [get] at h
    split at h
    · next hsafe =>
      split at h
      · next text hread =>
        cases h
        rw [Folder.readText] at hread
        split at hread
        · cases hread
        · next hluck =>
          split at hread
          · cases hread
          · next entries hresolve =>
            obtain ⟨rfl, hpossible, hshort⟩ := Folder.resolve_eq_ok_iff.mp hresolve
            split at hread
            · cases hread
            · cases hread
            · next content hcontent =>
              split at hread
              · next text htext =>
                cases hread
                rw [fromUTF8?_eq_some_iff.mp htext] at hcontent
                exact ⟨Decidable.not_not.mp hluck, ⟨hsafe, hpossible, hshort⟩, hcontent⟩
              · cases hread
      · cases h
      · cases h
    · cases h
  · rintro ⟨rfl, hreadable, hcontent⟩
    cases folder with
    | absent => cases hcontent
    | blocked => cases hcontent
    | present entries =>
        have hentry : entries.get? (entryName key) =
            some (.file payload.toByteArray) := hcontent
        have htext := fromUTF8?_eq_some_iff.mpr (rfl : payload.toByteArray = _)
        simp [get, hreadable.1, Folder.readText, hreadable.resolve, hentry, htext]

theorem holds_iff :
    Holds folder key payload ↔
      IsReadable key ∧
        folder.get? (entryName key) = some (.file payload.toByteArray) := by
  simp [Holds, get_eq_some_iff]

theorem holds_unique {other : String} (hholds : Holds folder key payload)
    (hother : Holds folder key other) : payload = other := by
  have heq := hholds.symm.trans hother
  simpa using heq

namespace Put

variable {put : Put} {stage : Stage}

/-- What the next step of a put does to the folder, whatever the put makes of its answer. -/
theorem folder_step (put : Put) (luck : Luck) (stage : Stage) (folder : Folder) :
    (put.step luck stage folder).2 =
      match stage with
      | .making => (folder.makeFolder luck).2
      | .writing => (folder.writeFile luck (temporaryName put.key put.stamp)
          put.payload.toByteArray).2
      | .renaming => (folder.rename luck (temporaryName put.key put.stamp)
          (entryName put.key)).2
      | .discarding => (folder.deleteFile luck (temporaryName put.key put.stamp)).2
      | .done _ => folder := by
  cases stage with
  | discarding | done answer => rfl
  | _ =>
      simp only [Put.step]
      split
      all_goals
        next hfolder =>
        rw [hfolder]

/-- What a put has done to the folder when it has come to a stage: it has written
its entry once it has answered with the key, and it has touched nothing else but
its temporary file. -/
structure Progress (put : Put) (start : Folder) (stage : Stage) (folder : Folder) :
    Prop where
  others : ∀ name, name ≠ entryName put.key →
    name ≠ temporaryName put.key put.stamp → folder.get? name = start.get? name
  written : ∀ key, stage = .done (.ok key) →
    key = put.key ∧ Holds folder put.key put.payload
  unwritten : (∀ key, stage ≠ .done (.ok key)) →
    folder.get? (entryName put.key) = start.get? (entryName put.key)
  temporary : stage = .renaming →
    folder.get? (temporaryName put.key put.stamp) =
      some (.file put.payload.toByteArray)
  safe : (∃ answer, stage = .done answer) ∨ isSafeKey put.key.toList = true

theorem progress_init (put : Put) (start : Folder) :
    put.Progress start put.init start := by
  rw [init]
  split
  · next hsafe =>
    exact ⟨fun _ _ _ => rfl, by simp, fun _ => rfl, by simp, .inr hsafe⟩
  · exact ⟨fun _ _ _ => rfl, by simp, fun _ => rfl, by simp, .inl ⟨_, rfl⟩⟩

/-- A step that leaves all names but the temporary one alone keeps what a put that has not
written its entry has done so far. -/
theorem Progress.of_drafting (hprogress : put.Progress start stage folder)
    (hbefore : ∀ key, stage ≠ .done (.ok key)) {next : Stage} {after : Folder}
    (hget : ∀ name, name ≠ temporaryName put.key put.stamp →
      after.get? name = folder.get? name)
    (hafter : ∀ key, next ≠ .done (.ok key))
    (htemporary : next = .renaming →
      after.get? (temporaryName put.key put.stamp) = some (.file put.payload.toByteArray))
    (hsafe : (∃ answer, next = .done answer) ∨ isSafeKey put.key.toList = true) :
    put.Progress start next after where
  others name hentry htemp := (hget name htemp).trans (hprogress.others name hentry htemp)
  written key hdone := absurd hdone (hafter key)
  unwritten _ := by
    rw [hget _ (entryName_ne_temporaryName put.key put.key put.stamp)]
    exact hprogress.unwritten hbefore
  temporary := htemporary
  safe := hsafe

theorem Progress.isSafeKey (hprogress : put.Progress start stage folder)
    (hrunning : ∀ answer, stage ≠ .done answer) : isSafeKey put.key.toList = true :=
  hprogress.safe.resolve_left fun ⟨answer, hdone⟩ => hrunning answer hdone

theorem Progress.step_making (hprogress : put.Progress start .making folder) (luck : Luck) :
    put.Progress start (put.step luck .making folder).1 (put.step luck .making folder).2 := by
  have hsafe := hprogress.isSafeKey (by simp)
  have hget := Folder.get?_makeFolder folder luck
  simp only [Put.step]
  split
  all_goals
    next hmake =>
    rw [hmake] at hget
    exact hprogress.of_drafting (by simp) (fun name _ => hget name) (by simp) (by simp)
      (.inr hsafe)

theorem Progress.step_writing (hprogress : put.Progress start .writing folder) (luck : Luck) :
    put.Progress start (put.step luck .writing folder).1 (put.step luck .writing folder).2 := by
  have hsafe := hprogress.isSafeKey (by simp)
  have hget (name : FileName) (hname : name ≠ temporaryName put.key put.stamp) :=
    Folder.get?_writeFile_of_ne folder luck put.payload.toByteArray hname
  have hfile := Folder.get?_writeFile_of_ok folder luck
    (temporaryName put.key put.stamp) put.payload.toByteArray
  simp only [Put.step]
  split
  · next after hwrite =>
    rw [hwrite] at hfile
    simp only [hwrite] at hget
    exact hprogress.of_drafting (by simp) hget (by simp) (fun _ => hfile rfl) (.inr hsafe)
  · next error after hwrite =>
    simp only [hwrite] at hget
    exact hprogress.of_drafting (by simp) hget (by simp) (by simp) (.inl ⟨_, rfl⟩)

theorem Progress.step_renaming (hprogress : put.Progress start .renaming folder)
    (luck : Luck) :
    put.Progress start (put.step luck .renaming folder).1
      (put.step luck .renaming folder).2 := by
  have hsafe := hprogress.isSafeKey (by simp)
  have hfile := hprogress.temporary rfl
  simp only [Put.step]
  rcases Folder.rename_cases folder luck
      (temporaryName put.key put.stamp) (entryName put.key) with
    ⟨hok, hshort, hpossible, htarget, hrest⟩ | ⟨error, herror⟩
  · split
    · next hrename =>
      rw [hrename] at htarget hrest
      refine ⟨fun name hn ht => (hrest name ht hn).trans (hprogress.others name hn ht),
        ?_, by simp, by simp, .inr hsafe⟩
      intro key hkey
      cases hkey
      exact ⟨rfl, holds_iff.mpr ⟨⟨hsafe, hpossible, hshort⟩, htarget.trans hfile⟩⟩
    · next hrename =>
      rw [hrename] at hok
      cases hok
  · rw [herror]
    exact hprogress.of_drafting (by simp) (fun _ _ => rfl) (by simp) (by simp) (.inr hsafe)

theorem Progress.step_discarding (hprogress : put.Progress start .discarding folder)
    (luck : Luck) :
    put.Progress start (put.step luck .discarding folder).1
      (put.step luck .discarding folder).2 := by
  have hget (name : FileName) (hname : name ≠ temporaryName put.key put.stamp) :
      (folder.deleteFile luck (temporaryName put.key put.stamp)).2.get? name =
        folder.get? name := by
    rcases Folder.deleteFile_cases folder luck
        (temporaryName put.key put.stamp) with ⟨-, hdelete⟩ | ⟨error, herror⟩
    · rw [hdelete name, if_neg hname]
    · rw [herror]
  exact hprogress.of_drafting (by simp) hget (by simp [Put.step]) (by simp [Put.step])
    (.inl ⟨_, rfl⟩)

theorem Progress.step (hprogress : put.Progress start stage folder) (luck : Luck) :
    put.Progress start (put.step luck stage folder).1 (put.step luck stage folder).2 := by
  cases stage with
  | making => exact hprogress.step_making luck
  | writing => exact hprogress.step_writing luck
  | «renaming» => exact hprogress.step_renaming luck
  | discarding => exact hprogress.step_discarding luck
  | done answer => exact hprogress

/-- What a put needs to be sure of between two of its steps: once it is to rename
its temporary file, its payload is there. -/
structure IsDrafted (put : Put) (stage : Stage) (folder : Folder) : Prop where
  safe : isSafeKey put.key.toList = true
  temporary : stage = .renaming →
    folder.get? (temporaryName put.key put.stamp) =
      some (.file put.payload.toByteArray)
  running : ∀ answer, stage ≠ .done answer

/-- One step of a put writes its entry, and the put is over then, or it leaves all
entries as they are. -/
theorem step_cases (hdrafted : put.IsDrafted stage folder) (luck : Luck) :
    let after := put.step luck stage folder
    (after.1 = .done (.ok put.key) ∧ Holds after.2 put.key put.payload ∧
        ∀ name, name ≠ entryName put.key →
          name ≠ temporaryName put.key put.stamp →
          after.2.get? name = folder.get? name) ∨
      ((∃ error, after.1 = .done (.error error)) ∨ put.IsDrafted after.1 after.2) ∧
        ∀ name, name ≠ temporaryName put.key put.stamp →
          after.2.get? name = folder.get? name := by
  intro after
  have hbefore : put.Progress folder stage folder :=
    ⟨fun _ _ _ => rfl, fun key hdone => absurd hdone (hdrafted.running _),
      fun _ => rfl, hdrafted.temporary, .inr hdrafted.safe⟩
  have hprogress : put.Progress folder after.1 after.2 := hbefore.step luck
  have hothers (hunwritten : ∀ key, after.1 ≠ .done (.ok key)) (name : FileName)
      (hname : name ≠ temporaryName put.key put.stamp) :
      after.2.get? name = folder.get? name := by
    by_cases hentry : name = entryName put.key
    · rw [hentry]
      exact hprogress.unwritten hunwritten
    · exact hprogress.others name hentry hname
  by_cases hdone : ∃ answer, after.1 = .done answer
  · obtain ⟨answer | key, hanswer⟩ := hdone
    · refine .inr ⟨.inl ⟨answer, hanswer⟩, hothers fun key => ?_⟩
      rw [hanswer]
      exact nofun
    · obtain ⟨rfl, hholds⟩ := hprogress.written key hanswer
      exact .inl ⟨hanswer, hholds, hprogress.others⟩
  · have hrunning (answer : Except QueueError String) : after.1 ≠ .done answer :=
      fun hanswer => hdone ⟨answer, hanswer⟩
    refine .inr ⟨.inr ⟨hdrafted.safe, hprogress.temporary, hrunning⟩, hothers ?_⟩
    exact fun key => hrunning _

/-- How many steps a put has behind it at least. -/
def Stage.rank : Stage → Nat
  | .making => 0
  | .writing => 1
  | .renaming => 2
  | .discarding => 3
  | .done _ => 4

theorem rank_step (put : Put) (luck : Luck) (stage : Stage) (folder : Folder) :
    min 4 (stage.rank + 1) ≤ (put.step luck stage folder).1.rank := by
  cases stage <;> simp only [Put.step] <;> (try split) <;> simp [Stage.rank]

/-- Where a put has come to after so many of its steps, nobody else acting meanwhile. -/
def stateAfter (put : Put) (chances : Chances) (folder : Folder) (n : Nat) : Stage × Folder :=
  (put.stepAt chances)^[n] (put.init, folder)

theorem stateAfter_succ (put : Put) (chances : Chances) (folder : Folder) (n : Nat) :
    put.stateAfter chances folder (n + 1) =
      put.stepAt chances (put.stateAfter chances folder n) :=
  Function.iterate_succ_apply' _ n _

/-- A put takes four steps at most. -/
theorem run_eq_stateAfter (put : Put) (chances : Chances) (folder : Folder) :
    put.run chances folder =
      (put.answer (put.stateAfter chances folder 4).1, (put.stateAfter chances folder 4).2) := by
  have hstart : put.stateAfter chances folder 0 = (put.init, folder) := rfl
  simp only [stateAfter_succ, hstart, run]

theorem progress_stateAfter (put : Put) (chances : Chances) (folder : Folder) (n : Nat) :
    put.Progress folder (put.stateAfter chances folder n).1
      (put.stateAfter chances folder n).2 := by
  induction n with
  | zero => exact progress_init put folder
  | succ n ih =>
      rw [stateAfter_succ]
      exact ih.step _

theorem rank_stateAfter (put : Put) (chances : Chances) (folder : Folder) (n : Nat) :
    min 4 n ≤ (put.stateAfter chances folder n).1.rank := by
  induction n with
  | zero => exact Nat.zero_le _
  | succ n ih =>
      have hstep := put.rank_step (chances.at (put.stateAfter chances folder n).1)
        (put.stateAfter chances folder n).1 (put.stateAfter chances folder n).2
      rw [stateAfter_succ, stepAt]
      omega

theorem exists_done_of_rank (hrank : 4 ≤ stage.rank) : ∃ answer, stage = .done answer := by
  cases stage with
  | done answer => exact ⟨answer, rfl⟩
  | _ => simp [Stage.rank] at hrank

/-- A whole put writes its entry and answers with the key, or fails and leaves
every entry as it was.  Only its temporary file may be left over. -/
theorem run_cases (put : Put) (chances : Chances) (folder : Folder) :
    ((put.run chances folder).1 = .ok put.key ∧
        Holds (put.run chances folder).2 put.key put.payload ∧
        ∀ name, name ≠ entryName put.key →
          name ≠ temporaryName put.key put.stamp →
          (put.run chances folder).2.get? name = folder.get? name) ∨
      ∃ error, (put.run chances folder).1 = .error error ∧
        ∀ name, name ≠ temporaryName put.key put.stamp →
          (put.run chances folder).2.get? name = folder.get? name := by
  have hprogress := put.progress_stateAfter chances folder 4
  obtain ⟨answer, hdone⟩ := exists_done_of_rank (put.rank_stateAfter chances folder 4)
  rw [hdone] at hprogress
  rw [run_eq_stateAfter, hdone]
  cases answer with
  | ok key =>
      obtain ⟨rfl, hholds⟩ := hprogress.written key rfl
      exact .inl ⟨rfl, hholds, hprogress.others⟩
  | error error =>
      refine .inr ⟨error, rfl, fun name ht => ?_⟩
      by_cases hentry : name = entryName put.key
      · rw [hentry]
        exact hprogress.unwritten (by simp)
      · exact hprogress.others name hentry ht

end Put

theorem folder_remove (luck : Luck) (key : String) (folder : Folder) :
    (remove luck key folder).2 =
      if isSafeKey key.toList then (folder.deleteFile luck (entryName key)).2 else folder := by
  rw [remove]
  split
  · split
    all_goals
      next hfile =>
      rw [hfile]
  · rfl

/-- Removing an entry takes it away or leaves the folder as it was. -/
theorem remove_cases (luck : Luck) (key : String) (folder : Folder) :
    ((remove luck key folder).1 ≠ .ok true ∧ (remove luck key folder).2 = folder) ∨
      (remove luck key folder).1 = .ok true ∧
        ∀ name, (remove luck key folder).2.get? name =
          if name = entryName key then none else folder.get? name := by
  rw [remove]
  split
  · rcases Folder.deleteFile_cases folder luck (entryName key) with ⟨hok, hdelete⟩ | ⟨error, herror⟩
    · right
      split
      · next hfile =>
        rw [hfile] at hdelete
        exact ⟨rfl, hdelete⟩
      · next hfile =>
        rw [hfile] at hok
        cases hok
      · next hfile =>
        rw [hfile] at hok
        cases hok
    · left
      rw [herror]
      cases error <;> simp
  · exact .inl ⟨by simp, rfl⟩

/-- A deletion that something hinders leaves the folder as it was. -/
theorem folder_remove_of_ne (hluck : luck ≠ .fine) (key : String) (folder : Folder) :
    (remove luck key folder).2 = folder := by
  rw [folder_remove, Folder.deleteFile, if_pos hluck, ite_self]

/-- An entry that can be looked up and is not there is read as missing. -/
theorem get_of_missing (hreadable : IsReadable key) (hopen : folder ≠ .blocked)
    (hmissing : folder.get? (entryName key) = none) : get .fine key folder = .ok none := by
  cases folder with
  | absent head => simp [get, hreadable.1, Folder.readText, hreadable.resolve_absent]
  | blocked => exact absurd rfl hopen
  | present entries =>
      have hentry : entries.get? (entryName key) = none := hmissing
      simp [get, hreadable.1, Folder.readText, hreadable.resolve, hentry]

/-- A deletion with nothing in its way leaves no entry behind. -/
theorem get?_remove_fine (hreadable : IsReadable key)
    (hfile : folder.get? (entryName key) ≠ some .folder) (name : FileName) :
    (remove .fine key folder).2.get? name =
      if name = entryName key then none else folder.get? name := by
  rcases remove_cases .fine key folder with ⟨hanswer, hkept⟩ | ⟨-, hremoved⟩
  · have hmissing : folder.get? (entryName key) = none := by
      cases folder with
      | absent => rfl
      | blocked => rfl
      | present entries =>
          cases hentry : entries.get? (entryName key) with
          | none => exact hentry
          | some node =>
              cases node with
              | folder => exact absurd hentry hfile
              | file content =>
                  simp [remove, hreadable.1, Folder.deleteFile, hreadable.resolve,
                    hentry] at hanswer
    rw [hkept]
    split
    · next hname => rw [hname, hmissing]
    · rfl
  · exact hremoved name

theorem isReadable_of_removed (hremoved : (remove luck key folder).1 = .ok true) :
    IsReadable key ∧ folder ≠ .blocked := by
  rw [remove] at hremoved
  split at hremoved
  · next hsafe =>
    cases hresolve : folder.resolve (entryName key) with
    | ok entries =>
        obtain ⟨rfl, hname⟩ := Folder.resolve_eq_ok_iff.mp hresolve
        exact ⟨⟨hsafe, hname⟩, nofun⟩
    | error error =>
        by_cases hluck : luck = .fine
        · cases error <;> simp [Folder.deleteFile, hluck, hresolve] at hremoved
        · simp [Folder.deleteFile, hluck] at hremoved
  · cases hremoved

theorem remove_ne_blocked (luck : Luck) (key : String) (hopen : folder ≠ .blocked) :
    (remove luck key folder).2 ≠ .blocked := by
  have hdelete : (folder.deleteFile luck (entryName key)).2 ≠ .blocked := by
    unfold Folder.deleteFile
    split
    · exact hopen
    · split
      · exact hopen
      · split
        · exact hopen
        · exact hopen
        · exact nofun
  rw [folder_remove]
  split
  · exact hdelete
  · exact hopen

theorem get_of_removed (hremoved : (remove luck key folder).1 = .ok true) :
    get .fine key (remove luck key folder).2 = .ok none := by
  obtain ⟨hreadable, hopen⟩ := isReadable_of_removed hremoved
  rcases remove_cases luck key folder with ⟨hkept, -⟩ | ⟨-, hget⟩
  · exact absurd hremoved hkept
  · exact get_of_missing hreadable (remove_ne_blocked luck key hopen)
      ((hget _).trans (if_pos rfl))

namespace Removal

theorem step_comparing (removal : Removal) (luck : Luck) (folder : Folder) :
    (∃ answer, answer ≠ .ok true ∧
        removal.step luck .comparing folder = (.done answer, folder)) ∨
      luck = .fine ∧ Holds folder removal.key removal.payload ∧
        removal.step luck .comparing folder = (.deleting, folder) := by
  cases hget : get luck removal.key folder with
  | error error => exact .inl ⟨.error error, by simp, by simp [step, hget]⟩
  | ok current =>
      by_cases hcurrent : current = some removal.payload
      · right
        rw [hcurrent] at hget
        obtain ⟨hluck, hentry⟩ := get_eq_some_iff.mp hget
        exact ⟨hluck, holds_iff.mpr hentry, by simp [step, hget]⟩
      · exact .inl ⟨.ok false, by simp, by simp [step, hget, hcurrent]⟩

/-- One step of a removal leaves the folder as it was, or it takes away the
entry. -/
theorem step_cases (removal : Removal) (luck : Luck) (stage : Stage)
    (folder : Folder) :
    (removal.step luck stage folder).2 = folder ∨
      ∀ name, (removal.step luck stage folder).2.get? name =
        if name = entryName removal.key then none else folder.get? name := by
  cases stage with
  | comparing =>
      left
      rcases removal.step_comparing luck folder with ⟨answer, -, hstep⟩ | ⟨-, -, hstep⟩
      · rw [hstep]
      · rw [hstep]
  | deleting =>
      rcases remove_cases luck removal.key folder with ⟨-, hkept⟩ | ⟨-, hremoved⟩
      · exact .inl hkept
      · exact .inr hremoved
  | done answer => exact .inl rfl

/-- A whole removal leaves the folder as it was, or it takes away the entry, in
which it found the expected payload. -/
theorem run_cases (removal : Removal) (chances : Chances) (folder : Folder) :
    ((removal.run chances folder).1 ≠ .ok true ∧
        (removal.run chances folder).2 = folder) ∨
      (removal.run chances folder).1 = .ok true ∧
        Holds folder removal.key removal.payload ∧
        ∀ name, (removal.run chances folder).2.get? name =
          if name = entryName removal.key then none else folder.get? name := by
  rw [run]
  rcases removal.step_comparing chances.compare folder with
    ⟨answer, hanswer, hstep⟩ | ⟨-, hholds, hstep⟩
  · rw [hstep]
    exact .inl ⟨hanswer, rfl⟩
  · rw [hstep]
    rcases remove_cases chances.delete removal.key folder with
      hkept | ⟨hremoved, hdelete⟩
    · exact .inl hkept
    · exact .inr ⟨hremoved, hholds, hdelete⟩

/-- A text that stands in an entry is gone after a deletion exactly if that is the entry it
deletes, and nothing hinders it. -/
theorem gone_remove_iff (hholds : Holds folder key payload) (luck : Luck) (other : String) :
    (remove luck other folder).2.get? (entryName key) = none ↔ other = key ∧ luck = .fine := by
  obtain ⟨hreadable, hentry⟩ := holds_iff.mp hholds
  by_cases hluck : luck = .fine
  · subst hluck
    rw [and_iff_left rfl]
    constructor
    · intro hgone
      obtain ⟨-, hkept⟩ | ⟨-, hremoved⟩ := remove_cases .fine other folder
      · rw [hkept, hentry] at hgone
        cases hgone
      · rw [hremoved] at hgone
        split at hgone
        · next hname => exact (entryName_injective hname).symm
        · rw [hentry] at hgone
          cases hgone
    · rintro rfl
      have hfile : folder.get? (entryName other) ≠ some .folder := by
        rw [hentry]
        nofun
      exact (get?_remove_fine hreadable hfile _).trans (if_pos rfl)
  · rw [folder_remove_of_ne hluck, hentry]
    exact iff_of_false nofun fun h => hluck h.2

/-- One step of a removal takes a text away exactly if it deletes the entry. -/
theorem gone_step_iff (hholds : Holds folder key payload) (removal : Removal) (luck : Luck)
    (stage : Stage) :
    (removal.step luck stage folder).2.get? (entryName key) = none ↔
      removal.key = key ∧ stage = .deleting ∧ luck = .fine := by
  have hentry := (holds_iff.mp hholds).2
  cases stage with
  | comparing =>
      have hkept : (removal.step luck .comparing folder).2 = folder := by
        obtain ⟨answer, -, hstep⟩ | ⟨-, -, hstep⟩ := removal.step_comparing luck folder
        · rw [hstep]
        · rw [hstep]
      rw [hkept, hentry]
      exact iff_of_false nofun nofun
  | deleting =>
      rw [and_iff_right rfl]
      exact gone_remove_iff hholds luck removal.key
  | done answer =>
      change folder.get? (entryName key) = none ↔ _
      rw [hentry]
      exact iff_of_false nofun nofun

/-- A whole removal takes a text away exactly if it is the one that the removal looks for. -/
theorem gone_run_iff (hholds : Holds folder key payload) (removal : Removal)
    (chances : Chances) :
    (removal.run chances folder).2.get? (entryName key) = none ↔
      removal = ⟨key, payload⟩ ∧ chances = .fine := by
  have hentry := (holds_iff.mp hholds).2
  obtain ⟨compare, delete⟩ := chances
  have hchances : Chances.mk compare delete = .fine ↔ compare = .fine ∧ delete = .fine := by
    rw [Chances.fine, Chances.mk.injEq]
  have hremoval : removal = ⟨key, payload⟩ ↔ removal.key = key ∧ removal.payload = payload := by
    cases removal
    rw [Removal.mk.injEq]
  rw [run, hchances, hremoval]
  dsimp only
  obtain ⟨answer, -, hstep⟩ | ⟨hcompare, hfound, hstep⟩ := removal.step_comparing compare folder
  · rw [hstep, hentry]
    refine iff_of_false nofun ?_
    -- the comparison would have succeeded
    rintro ⟨⟨rfl, rfl⟩, rfl, -⟩
    have hget : get .fine removal.key folder = .ok (some removal.payload) := hholds
    simp [step, hget] at hstep
  · rw [hstep, gone_remove_iff hholds delete removal.key]
    constructor
    · rintro ⟨rfl, hdelete⟩
      exact ⟨⟨rfl, holds_unique hfound hholds⟩, hcompare, hdelete⟩
    · rintro ⟨⟨hkey, -⟩, -, hdelete⟩
      exact ⟨hkey, hdelete⟩

end Removal

end Scorekeeper.Queue
