import Scorekeeper.Proofs.Queue.Atomicity

/-!
# What a failed put leaves behind

A put that fails has changed nothing but its temporary file, if it came so far as to make
one.  When the renaming fails the temporary file is deleted.  When the writing fails nobody
deletes it: a write that breaks off, as on a full disk, leaves the part that was written
under the temporary name.  No other failure leaves anything behind.
-/

namespace Scorekeeper.Files.Folder

variable {folder : Folder} {name : FileName} {content : ByteArray}

/-- A file of this name can be made, or written over. -/
def Accepts (folder : Folder) (name : FileName) : Prop :=
  ∃ entries, folder.resolve name = .ok entries ∧ entries.get? name ≠ some .folder

/-- A file of this name can be found, with this content. -/
def HasFile (folder : Folder) (name : FileName) (content : ByteArray) : Prop :=
  ∃ entries, folder.resolve name = .ok entries ∧ entries.get? name = some (.file content)

/-- A write that breaks off leaves what it has written. -/
theorem writeFile_stops (haccepts : folder.Accepts name) (content : ByteArray)
    (written : Nat) :
    (folder.writeFile (.stops written) name content).1 = .error .other ∧
      (folder.writeFile (.stops written) name content).2.get? name =
        some (.file (content.extract 0 written)) := by
  obtain ⟨entries, hresolve, hnode⟩ := haccepts
  rw [writeFile, hresolve]
  dsimp only
  split
  · next hfolder => exact absurd hfolder hnode
  · exact ⟨rfl, by simp [get?, Entries.get?_put]⟩

/-- A write that does not break off makes its file, or it does nothing. -/
theorem writeFile_cases {luck : Luck} (content : ByteArray)
    (hwhole : ∀ written, luck = .stops written → ¬folder.Accepts name) :
    ((folder.writeFile luck name content).1 = .ok () ∧
        (folder.writeFile luck name content).2.HasFile name content) ∨
      ∃ error, folder.writeFile luck name content = (.error error, folder) := by
  rw [writeFile]
  split
  · exact .inr ⟨_, rfl⟩
  · next entries hresolve =>
    split
    · exact .inr ⟨_, rfl⟩
    · next hnode =>
      have haccepts : folder.Accepts name := ⟨entries, hresolve, hnode⟩
      obtain ⟨-, hname⟩ := resolve_eq_ok_iff.mp hresolve
      cases luck with
      | fine =>
          refine .inl ⟨rfl, entries.put name (.file content), ?_, ?_⟩
          · exact resolve_eq_ok_iff.mpr ⟨rfl, hname⟩
          · rw [Entries.get?_put, if_pos rfl]
      | fails => exact .inr ⟨_, rfl⟩
      | stops written => exact absurd haccepts (hwhole written rfl)

theorem HasFile.get?_deleteFile (hfile : folder.HasFile name content) :
    (folder.deleteFile .fine name).2.get? name = none := by
  obtain ⟨entries, hresolve, hnode⟩ := hfile
  simp [deleteFile, hresolve, hnode, get?, Entries.get?_erase]

end Scorekeeper.Files.Folder

namespace Scorekeeper.Queue.Put

open Files

variable {put : Put} {chances : Chances} {start folder : Folder} {stage : Stage}

/-- The folder holds the files that it held before the put, and none under the temporary name
of the put. -/
structure LeavesNothing (put : Put) (before after : Folder) : Prop where
  files : ∀ name, after.get? name = before.get? name
  temporary : after.get? (temporaryName put.key put.stamp) = none

/-- The promise: a put that fails leaves nothing behind, if only files can be deleted and
nobody else has used its temporary name. -/
def CleansUp (put : Put) : Prop :=
  ∀ (chances : Chances) (folder : Folder) (error : QueueError), chances.discard = .fine →
    folder.get? (temporaryName put.key put.stamp) = none →
      (put.run chances folder).1 = .error error →
        put.LeavesNothing folder (put.run chances folder).2

/-- The put makes its temporary file, and the write ends after so many bytes. -/
def BreaksOff (put : Put) (chances : Chances) (folder : Folder) (written : Nat) : Prop :=
  chances.write = .stops written ∧
    ∃ n made, put.stateAfter chances folder n = (.writing, made) ∧
      made.Accepts (temporaryName put.key put.stamp)

/-! ## A write that breaks off -/

theorem run_of_breaksOff {written : Nat} (hbreaks : put.BreaksOff chances folder written) :
    (put.run chances folder).1 = .error (.io (.temporary put.key put.stamp)) ∧
      (put.run chances folder).2.get? (temporaryName put.key put.stamp) =
        some (.file (put.payload.toByteArray.extract 0 written)) := by
  obtain ⟨hwrite, n, made, hstate, haccepts⟩ := hbreaks
  obtain ⟨herror, hpart⟩ :=
    Folder.writeFile_stops haccepts put.payload.toByteArray written
  have hnext : put.stateAfter chances folder (n + 1) =
      put.step (.stops written) .writing made := by
    rw [stateAfter_succ, hstate, stepAt, Chances.at, hwrite]
  simp only [step] at hnext
  split at hnext
  · next hwritten =>
    rw [hwritten] at herror
    cases herror
  · next after hwritten =>
    rw [hwritten] at hpart
    rw [run_of_done (congrArg Prod.fst hnext), hnext]
    exact ⟨rfl, hpart⟩

/-! ## Every other failure -/

/-- What there is under the temporary name at each stage of a put whose write does not break
off.  It is the file of the put from the write to the renaming, or to the deletion. -/
def IsTidy (put : Put) (start : Folder) : Stage → Folder → Prop
  | .making, folder | .writing, folder =>
      folder.get? (temporaryName put.key put.stamp) =
        start.get? (temporaryName put.key put.stamp)
  | .renaming, folder | .discarding, folder =>
      folder.HasFile (temporaryName put.key put.stamp) put.payload.toByteArray
  | .done (.error _), folder =>
      folder.get? (temporaryName put.key put.stamp) = none ∨
        folder.get? (temporaryName put.key put.stamp) =
          start.get? (temporaryName put.key put.stamp)
  | .done (.ok _), _ => True

theorem isTidy_init (put : Put) (start : Folder) : put.IsTidy start put.init start := by
  rw [init]
  split
  · rfl
  · exact .inr rfl

theorem IsTidy.step {luck : Luck} (htidy : put.IsTidy start stage folder)
    (hwhole : stage = .writing → ∀ written, luck = .stops written →
      ¬folder.Accepts (temporaryName put.key put.stamp))
    (hdiscard : stage = .discarding → luck = .fine) :
    put.IsTidy start (put.step luck stage folder).1 (put.step luck stage folder).2 := by
  cases stage with
  | making =>
      have hget := Folder.get?_makeFolder folder luck (temporaryName put.key put.stamp)
      simp only [Put.step]
      split
      · next hmake =>
        rw [hmake] at hget
        exact hget.trans htidy
      · next hmake =>
        rw [hmake] at hget
        exact .inr (hget.trans htidy)
  | writing =>
      obtain ⟨hok, hfile⟩ | ⟨error, herror⟩ :=
        Folder.writeFile_cases put.payload.toByteArray (hwhole rfl)
      · simp only [Put.step]
        split
        · next hwrite =>
          rw [hwrite] at hfile
          exact hfile
        · next hwrite =>
          rw [hwrite] at hok
          cases hok
      · simp only [Put.step, herror]
        exact .inr htidy
  | «renaming» =>
      obtain ⟨hok, -⟩ | ⟨error, herror⟩ := Folder.rename_cases folder luck
        (temporaryName put.key put.stamp) (entryName put.key)
      · simp only [Put.step]
        split
        · trivial
        · next hrename =>
          rw [hrename] at hok
          cases hok
      · simp only [Put.step, herror]
        exact htidy
  | discarding =>
      rw [hdiscard rfl]
      exact .inl htidy.get?_deleteFile
  | done answer => exact htidy

theorem isTidy_stateAfter (hdiscard : chances.discard = .fine)
    (hwhole : ∀ written, ¬put.BreaksOff chances folder written) (n : Nat) :
    put.IsTidy folder (put.stateAfter chances folder n).1
      (put.stateAfter chances folder n).2 := by
  induction n with
  | zero => exact put.isTidy_init folder
  | succ n ih =>
      rw [stateAfter_succ]
      apply ih.step
      · intro hstage written hluck haccepts
        rw [hstage] at hluck
        exact hwhole written ⟨hluck, n, _, Prod.ext hstage rfl, haccepts⟩
      · intro hstage
        rw [hstage]
        exact hdiscard

theorem get?_run_of_error {error : QueueError} (hdiscard : chances.discard = .fine)
    (hwhole : ∀ written, ¬put.BreaksOff chances folder written)
    (hfailed : (put.run chances folder).1 = .error error) :
    (put.run chances folder).2.get? (temporaryName put.key put.stamp) = none ∨
      (put.run chances folder).2.get? (temporaryName put.key put.stamp) =
        folder.get? (temporaryName put.key put.stamp) := by
  have htidy := isTidy_stateAfter hdiscard hwhole 4
  obtain ⟨answer, hdone⟩ := exists_done_of_rank (put.rank_stateAfter chances folder 4)
  rw [run_of_done hdone] at hfailed ⊢
  cases hfailed
  rw [hdone] at htidy
  exact htidy

/-! ## All failures -/

/-- What a put that fails leaves behind: only its temporary file, and only if its write broke
off. -/
structure Leftovers (put : Put) (chances : Chances) (error : QueueError)
    (before after : Folder) : Prop where
  nothing_iff : put.LeavesNothing before after ↔
    before.get? (temporaryName put.key put.stamp) = none ∧
      ∀ written, ¬put.BreaksOff chances before written
  others : ∀ name, name ≠ temporaryName put.key put.stamp → after.get? name = before.get? name
  part : ∀ written, put.BreaksOff chances before written →
    error = .io (.temporary put.key put.stamp) ∧
      after.get? (temporaryName put.key put.stamp) =
        some (.file (put.payload.toByteArray.extract 0 written))
  whole : (∀ written, ¬put.BreaksOff chances before written) →
    after.get? (temporaryName put.key put.stamp) = none ∨
      after.get? (temporaryName put.key put.stamp) =
        before.get? (temporaryName put.key put.stamp)

theorem others_of_error {error : QueueError} (hfailed : (put.run chances folder).1 = .error error)
    (name : FileName) (hname : name ≠ temporaryName put.key put.stamp) :
    (put.run chances folder).2.get? name = folder.get? name := by
  obtain ⟨hok, -⟩ | ⟨-, -, hget⟩ := put.run_cases chances folder
  · rw [hok] at hfailed
    cases hfailed
  · exact hget name hname

/-- A put that fails leaves everything under other names as it was.  It leaves nothing behind,
unless its temporary name was in use before or its write broke off; a write that broke off
leaves the part that it wrote. -/
theorem leftovers_run (put : Put) {chances : Chances} (hdiscard : chances.discard = .fine)
    {folder : Folder} {error : QueueError}
    (hfailed : (put.run chances folder).1 = .error error) :
    put.Leftovers chances error folder (put.run chances folder).2 where
  nothing_iff := by
    constructor
    · intro hnothing
      refine ⟨(hnothing.files _).symm.trans hnothing.temporary, fun written hbreaks => ?_⟩
      have hpart := (run_of_breaksOff hbreaks).2
      rw [hnothing.temporary] at hpart
      cases hpart
    · rintro ⟨hfresh, hwhole⟩
      have hnone : (put.run chances folder).2.get? (temporaryName put.key put.stamp) = none := by
        obtain hnone | hsame := get?_run_of_error hdiscard hwhole hfailed
        · exact hnone
        · exact hsame.trans hfresh
      refine ⟨fun name => ?_, hnone⟩
      by_cases hname : name = temporaryName put.key put.stamp
      · rw [hname, hnone, hfresh]
      · exact others_of_error hfailed name hname
  others := others_of_error hfailed
  part written hbreaks := by
    obtain ⟨herror, hpart⟩ := run_of_breaksOff hbreaks
    rw [hfailed] at herror
    exact ⟨Except.error.inj herror, hpart⟩
  whole hwhole := get?_run_of_error hdiscard hwhole hfailed

/-- A put whose entry cannot be written: a folder has its name. -/
def hinderedPut : Put where
  key := "s.b"
  payload := "{}"
  stamp := ⟨1, 1⟩

def hinderingFolder : Folder :=
  .present (Entries.empty.put (entryName "s.b") .folder)

theorem breaksOff_cutPut : cutPut.BreaksOff cutChances storedFolder 1 :=
  ⟨rfl, 1, storedFolder, rfl, _, rfl, by decide⟩

/-- The put that is hindered takes its temporary file away again; the one that is cut leaves the
first letter of its payload. -/
theorem leftovers_hinderedPut :
    (hinderedPut.run .fine hinderingFolder).1 = .error (.io (.entry "s.b")) ∧
      hinderedPut.LeavesNothing hinderingFolder (hinderedPut.run .fine hinderingFolder).2 ∧
      (cutPut.run cutChances storedFolder).1 = .error (.io (.temporary "s.a" ⟨1, 0⟩)) ∧
        (cutPut.run cutChances storedFolder).2.get? (temporaryName "s.a" ⟨1, 0⟩) =
          some (.file "n".toByteArray) := by
  have hhindered : (hinderedPut.run .fine hinderingFolder).1 = .error (.io (.entry "s.b")) := by
    rfl
  have hcut : (cutPut.run cutChances storedFolder).1 =
      .error (.io (.temporary "s.a" ⟨1, 0⟩)) := by
    rfl
  have hnothing := (leftovers_run hinderedPut rfl hhindered).nothing_iff.mpr
    ⟨rfl, fun written hbreaks => nomatch hbreaks.1⟩
  have hpart := ((leftovers_run cutPut rfl hcut).part 1 breaksOff_cutPut).2
  exact ⟨hhindered, hnothing, hcut, hpart⟩

theorem not_cleansUp_cutPut : ¬cutPut.CleansUp := by
  intro hcleans
  have hnothing := hcleans cutChances storedFolder (.io (.temporary "s.a" ⟨1, 0⟩)) rfl rfl rfl
  have hpart := (run_of_breaksOff breaksOff_cutPut).2
  rw [hnothing.temporary] at hpart
  cases hpart

end Scorekeeper.Queue.Put
