import Scorekeeper.Proofs.Queue.Ordinary

/-!
# A put is seen as a whole or not at all

A put takes several steps, after any of which it may end and between any two of which
others may look at the folder.  Until the last step what they see is what there was before
the put, and from then on it is what a complete put leaves behind.  There is one exception.
Where there was no folder, the first put makes one; a key with a name that is too long for
any file was not found before that, and is an error of the file system from then on.
-/

namespace Scorekeeper.Files.Folder

variable {before middle after folder : Folder} {name : FileName}

/-- What stands in the place of the folder is of the same kind as before, unless a folder was
made where nothing was. -/
structure Stands (before after : Folder) : Prop where
  blocked : after = .blocked ↔ before = .blocked
  absent : ∀ head, after = .absent head → before = .absent head

theorem Stands.refl (folder : Folder) : Stands folder folder :=
  ⟨.rfl, fun _ => id⟩

theorem Stands.trans (hfirst : Stands before middle) (hsecond : Stands middle after) :
    Stands before after :=
  ⟨hsecond.blocked.trans hfirst.blocked, fun head => hfirst.absent head ∘ hsecond.absent head⟩

/-- A folder that was there is not gone. -/
theorem Stands.not_isAbsent (hstands : Stands before after) (hthere : ¬before.IsAbsent) :
    ¬after.IsAbsent :=
  mt (Exists.imp hstands.absent) hthere

theorem stands_present (old new : Entries) : Stands (.present old) (.present new) :=
  ⟨by simp, nofun⟩

theorem stands_makeFolder (luck : Luck) (folder : Folder) :
    Stands folder (folder.makeFolder luck).2 := by
  cases folder <;> cases luck <;> constructor <;> simp [makeFolder]

theorem stands_writeFile (luck : Luck) (name : FileName) (content : ByteArray)
    (folder : Folder) : Stands folder (folder.writeFile luck name content).2 := by
  rw [writeFile]
  split
  · exact .refl folder
  · next entries hresolve =>
    rw [(resolve_eq_ok_iff.mp hresolve).1]
    split
    · exact .refl _
    · cases luck
      · exact stands_present _ _
      · exact .refl _
      · exact stands_present _ _

theorem stands_rename (luck : Luck) (source target : FileName) (folder : Folder) :
    Stands folder (folder.rename luck source target).2 := by
  rw [Folder.rename]
  split
  · exact .refl folder
  · split
    · exact .refl folder
    · exact .refl folder
    · next hsource _ =>
      rw [(resolve_eq_ok_iff.mp hsource).1]
      split
      · exact .refl _
      · exact .refl _
      · exact stands_present _ _

theorem stands_deleteFile (luck : Luck) (name : FileName) (folder : Folder) :
    Stands folder (folder.deleteFile luck name).2 := by
  rw [deleteFile]
  split
  · exact .refl folder
  · split
    · exact .refl folder
    · next hresolve =>
      rw [(resolve_eq_ok_iff.mp hresolve).1]
      split
      · exact .refl _
      · exact .refl _
      · exact stands_present _ _

end Scorekeeper.Files.Folder

namespace Scorekeeper.Queue

open Files Text

variable {before after folder : Folder} {base key : String} {put : Put} {stage : Put.Stage}

theorem stands_remove (luck : Luck) (key : String) (folder : Folder) :
    Folder.Stands folder (remove luck key folder).2 := by
  rw [folder_remove]
  split
  · exact Folder.stands_deleteFile luck (entryName key) folder
  · exact .refl folder

/-! ## What is seen of a folder -/

/-- Everything that the calls of a queue tell about a folder is the same as before. -/
structure LooksAs (before after : Folder) : Prop where
  get : ∀ key, get .fine key after = get .fine key before
  keys : ∀ base, keys .fine base after = keys .fine base before
  size : ∀ base, size .fine base after = size .fine base before

/-- No file can have the name of the entry. -/
def IsOverlong (key : String) : Prop :=
  nameLimit < (entryName key).size

/-- A lookup answers as before; or a folder was made where nothing was, and the key, which is
overlong, is now an error. -/
def FindsAs (before after : Folder) (key : String) : Prop :=
  get .fine key after = get .fine key before ∨
    (before.IsAbsent ∧ IsOverlong key ∧ get .fine key before = .ok none ∧
      get .fine key after = .error (.io (.entry key)))

/-- Everything that the calls of a queue tell about a folder is the same as before, save for
overlong keys once the folder is there. -/
structure LooksAlike (before after : Folder) : Prop where
  get : ∀ key, FindsAs before after key
  keys : ∀ base, keys .fine base after = keys .fine base before
  size : ∀ base, size .fine base after = size .fine base before

theorem LooksAlike.refl (folder : Folder) : LooksAlike folder folder :=
  ⟨fun _ => .inl rfl, fun _ => rfl, fun _ => rfl⟩

/-- Lists in ascending order are the same if they have the same members. -/
theorem IsAscending.eq_of_mem_iff {left right : List String} (hleft : IsAscending left)
    (hright : IsAscending right) (hmem : ∀ text, text ∈ left ↔ text ∈ right) :
    left = right := by
  have hperm : left.Perm right :=
    (List.perm_ext_iff_of_nodup (hleft.imp And.right) (hright.imp And.right)).mpr hmem
  refine hperm.eq_of_pairwise (fun a b _ _ hab hba => ?_) (hleft.imp And.left)
    (hright.imp And.left)
  have hdata := Sorting.bytesLe_antisymm hab hba
  exact String.toByteArray_inj.mp (ByteArray.ext (Array.toList_inj.mp hdata))

/-- The listing depends on the entries of the queue only. -/
theorem keys_congr (hstands : Folder.Stands before after)
    (hentries : ∀ suffix, after.get? (entryName (keyFor base suffix)) =
      before.get? (entryName (keyFor base suffix))) :
    keys .fine base after = keys .fine base before := by
  by_cases hblocked : before = .blocked
  · rw [hblocked, hstands.blocked.mpr hblocked]
  · obtain ⟨old, hold⟩ := exists_keys base hblocked
    obtain ⟨new, hnew⟩ := exists_keys base (mt hstands.blocked.mp hblocked)
    have hsame : new = old := by
      apply (isAscending_keys hnew).eq_of_mem_iff (isAscending_keys hold)
      intro key
      rw [mem_keys_iff hnew, mem_keys_iff hold]
      refine and_congr_left ?_
      rintro ⟨suffix, -, rfl⟩
      rw [hentries]
    rw [hnew, hold, hsame]

/-- Two folders that have the same under the name of an entry give the same for its key. -/
theorem get_present_congr {old new : Entries}
    (hentry : new.get? (entryName key) = old.get? (entryName key)) :
    get .fine key (.present new) = get .fine key (.present old) := by
  have hread : Folder.readText .fine (entryName key) (.present new) =
      Folder.readText .fine (entryName key) (.present old) := by
    by_cases himpossible : Folder.isImpossible (entryName key) = true
    · simp [Folder.readText, Folder.resolve, himpossible]
    · by_cases hlong : nameLimit < (entryName key).size
      · simp [Folder.readText, Folder.resolve, himpossible, hlong]
      · simp [Folder.readText, Folder.resolve, himpossible, hlong, hentry]
  rw [get, get, hread]

/-- Making the folder changes what is told of overlong keys and of no others. -/
theorem findsAs_absent (head : PathHead) {entries : Entries}
    (hmissing : entries.get? (entryName key) = none) :
    FindsAs (.absent head) (.present entries) key := by
  by_cases hsafe : isSafeKey key.toList = true
  · obtain ⟨habsent, hpresent⟩ | ⟨habsent, hpresent⟩ :=
      Folder.resolve_absent_cases head entries (entryName key)
    · left
      simp [get, hsafe, Folder.readText, habsent, hpresent]
    · by_cases hlong : nameLimit < (entryName key).size
      · rw [if_pos hlong] at hpresent
        refine .inr ⟨⟨head, rfl⟩, hlong, ?_, ?_⟩
        · simp [get, hsafe, Folder.readText, habsent]
        · simp [get, hsafe, Folder.readText, hpresent]
      · rw [if_neg hlong] at hpresent
        left
        simp [get, hsafe, Folder.readText, habsent, hpresent, hmissing]
  · left
    simp [get, hsafe]

theorem findsAs_of_get? (hstands : Folder.Stands before after)
    (hentry : after.get? (entryName key) = before.get? (entryName key)) :
    FindsAs before after key := by
  cases before with
  | absent head =>
      cases after with
      | absent other =>
          rw [hstands.absent other rfl]
          exact .inl rfl
      | blocked => cases hstands.blocked.mp rfl
      | present entries => exact findsAs_absent head hentry
  | blocked =>
      rw [hstands.blocked.mpr rfl]
      exact .inl rfl
  | present old =>
      cases after with
      | absent head => cases hstands.absent head rfl
      | blocked => cases hstands.blocked.mp rfl
      | present new => exact .inl (get_present_congr hentry)

/-- A reading that goes well and finds nothing tells that there is no entry. -/
theorem get?_of_get_none (hget : get luck key folder = .ok none) :
    folder.get? (entryName key) = none := by
  rw [get] at hget
  split at hget
  · split at hget
    · cases hget
    · next hread =>
      rw [Folder.readText] at hread
      split at hread
      · cases hread
      · split at hread
        · next hresolve =>
          cases hread
          obtain ⟨head, rfl⟩ := Folder.isAbsent_of_resolve hresolve
          rfl
        · next entries hresolve =>
          rw [(Folder.resolve_eq_ok_iff.mp hresolve).1, Folder.get?]
          split at hread
          · next hentry => exact hentry
          · cases hread
          · split at hread <;> cases hread
    · cases hget
  · cases hget

/-- An entry of a folder that is there is read as before while it stays the same. -/
theorem get_congr {after : Folder} (hstands : Folder.Stands folder after)
    (hthere : ¬folder.IsAbsent)
    (hentry : after.get? (entryName key) = folder.get? (entryName key)) :
    get luck key after = get luck key folder := by
  by_cases hluck : luck = .fine
  · subst hluck
    obtain hsame | ⟨habsent, -⟩ := findsAs_of_get? hstands hentry
    · exact hsame
    · exact absurd habsent hthere
  · simp [get, Folder.readText, hluck]

/-- Where only temporary files have changed, everything looks as before. -/
theorem looksAlike_of_get? (hstands : Folder.Stands before after) {other : String}
    {stamp : Stamp}
    (hothers : ∀ name, name ≠ temporaryName other stamp → after.get? name = before.get? name) :
    LooksAlike before after := by
  have hentries (key : String) : after.get? (entryName key) = before.get? (entryName key) :=
    hothers _ (entryName_ne_temporaryName key other stamp)
  have hkeys (base : String) : keys .fine base after = keys .fine base before :=
    keys_congr hstands fun suffix => hentries (keyFor base suffix)
  exact ⟨fun key => findsAs_of_get? hstands (hentries key), hkeys, fun base => by
    rw [size, size, hkeys]⟩

/-- No temporary file is listed as a key of any queue. -/
theorem listedKey_temporaryName (base key : String) (stamp : Stamp) :
    listedKey base (temporaryName key stamp) = none := by
  rw [Option.eq_none_iff_forall_ne_some]
  intro found hlisted
  exact entryName_ne_temporaryName found key stamp (listedKey_eq_some_iff.mp hlisted).1.symm

namespace Put

/-! ## A put on its own -/

/-- After any of its steps, what is seen of the folder is what there was before the put or what
a complete put leaves behind, and after a failure it is what there was before. -/
def IsAtomic (alike : Folder → Folder → Prop) (put : Put) (chances : Chances)
    (folder : Folder) : Prop :=
  ∀ n, (alike folder (put.stateAfter chances folder n).2 ∨
      alike (put.run .fine folder).2 (put.stateAfter chances folder n).2) ∧
    ∀ error, (put.stateAfter chances folder n).1 = .done (.error error) →
      alike folder (put.stateAfter chances folder n).2

theorem stands_step (put : Put) (luck : Luck) (stage : Stage) (folder : Folder) :
    Folder.Stands folder (put.step luck stage folder).2 := by
  rw [folder_step]
  cases stage with
  | making => exact Folder.stands_makeFolder luck folder
  | writing => exact Folder.stands_writeFile luck _ _ folder
  | «renaming» => exact Folder.stands_rename luck _ _ folder
  | discarding => exact Folder.stands_deleteFile luck _ folder
  | done answer => exact .refl folder

theorem stands_stateAfter (put : Put) (chances : Chances) (folder : Folder) (n : Nat) :
    Folder.Stands folder (put.stateAfter chances folder n).2 := by
  induction n with
  | zero => exact .refl folder
  | succ n ih =>
      rw [stateAfter_succ]
      exact ih.trans (put.stands_step _ _ _)

/-- Until it has answered with the key, a put has changed nothing that can be seen. -/
theorem looksAlike_stateAfter (put : Put) (chances : Chances) (folder : Folder) (n : Nat)
    (hopen : ∀ key, (put.stateAfter chances folder n).1 ≠ .done (.ok key)) :
    LooksAlike folder (put.stateAfter chances folder n).2 := by
  have hprogress := put.progress_stateAfter chances folder n
  have hothers (name : FileName) (hname : name ≠ temporaryName put.key put.stamp) :
      (put.stateAfter chances folder n).2.get? name = folder.get? name := by
    by_cases hentry : name = entryName put.key
    · rw [hentry]
      exact hprogress.unwritten hopen
    · exact hprogress.others name hentry hname
  exact looksAlike_of_get? (put.stands_stateAfter chances folder n) hothers

/-- A step of the put has failed: it has answered with an error, or is about to. -/
def Stage.HasFailed : Stage → Prop
  | .discarding | .done (.error _) => True
  | _ => False

theorem Stage.HasFailed.step {put : Put} {stage : Stage} (hfailed : stage.HasFailed) (luck : Luck)
    (folder : Folder) : (put.step luck stage folder).1.HasFailed := by
  cases stage with
  | discarding => trivial
  | done answer => exact hfailed
  | _ => exact hfailed.elim

/-- A step that does not fail meets no failure of the file system. -/
theorem step_fine_or_hasFailed (put : Put) (luck : Luck) (stage : Stage) (folder : Folder) :
    put.step luck stage folder = put.step .fine stage folder ∨
      (put.step luck stage folder).1.HasFailed := by
  cases luck with
  | fine => exact .inl rfl
  | _ =>
      cases stage with
      | making =>
          right
          cases folder <;> simp [step, Folder.makeFolder, Stage.HasFailed]
      | writing =>
          right
          simp only [step]
          split
          · next hwrite =>
            exfalso
            unfold Folder.writeFile at hwrite
            split at hwrite
            · cases hwrite
            · split at hwrite <;> cases hwrite
          · trivial
      | «renaming» =>
          right
          simp [step, Folder.rename, Stage.HasFailed]
      | discarding => exact .inr trivial
      | done answer => exact .inl rfl

theorem at_fine (stage : Stage) : Chances.fine.at stage = .fine := by
  cases stage <;> rfl

theorem stateAfter_fine_or_hasFailed (put : Put) (chances : Chances) (folder : Folder)
    (n : Nat) : put.stateAfter chances folder n = put.stateAfter .fine folder n ∨
      (put.stateAfter chances folder n).1.HasFailed := by
  induction n with
  | zero => exact .inl rfl
  | succ n ih =>
      rw [stateAfter_succ, stateAfter_succ]
      obtain hsame | hfailed := ih
      · rw [hsame, stepAt, stepAt, at_fine]
        exact put.step_fine_or_hasFailed _ _ _
      · exact .inr (hfailed.step _ _)

/-- A put that has answered does nothing any more. -/
theorem stateAfter_of_done {put : Put} {chances : Chances} {n m : Nat}
    {answer : Except QueueError String}
    (hdone : (put.stateAfter chances folder n).1 = .done answer) (hle : n ≤ m) :
    put.stateAfter chances folder m = put.stateAfter chances folder n := by
  obtain ⟨more, rfl⟩ := Nat.exists_eq_add_of_le hle
  clear hle
  induction more with
  | zero => rfl
  | succ more ih =>
      rw [← Nat.add_assoc, stateAfter_succ, ih, stepAt, hdone]
      exact Prod.ext hdone.symm rfl

/-- The whole call gives the answer that the put has come to, and leaves the folder as it is
then. -/
theorem run_of_done {put : Put} {chances : Chances} {n : Nat}
    {answer : Except QueueError String}
    (hdone : (put.stateAfter chances folder n).1 = .done answer) :
    put.run chances folder = (answer, (put.stateAfter chances folder n).2) := by
  have hfour : put.stateAfter chances folder 4 = put.stateAfter chances folder n := by
    obtain hle | hle := Nat.le_total n 4
    · exact stateAfter_of_done hdone hle
    · obtain ⟨last, hlast⟩ := exists_done_of_rank (put.rank_stateAfter chances folder 4)
      exact (stateAfter_of_done hlast hle).symm
  rw [run_eq_stateAfter, hfour, hdone]
  rfl

/-- A put that has answered with the key has done all that a complete put does. -/
theorem eq_run_of_done {put : Put} {chances : Chances} {n : Nat} {key : String}
    (hdone : (put.stateAfter chances folder n).1 = .done (.ok key)) :
    (put.stateAfter chances folder n).2 = (put.run .fine folder).2 := by
  obtain hfine | hfailed := put.stateAfter_fine_or_hasFailed chances folder n
  · rw [hfine] at hdone ⊢
    rw [run_of_done hdone]
  · rw [hdone] at hfailed
    cases hfailed

theorem isAtomic_looksAlike (put : Put) (chances : Chances) (folder : Folder) :
    put.IsAtomic LooksAlike chances folder := by
  intro n
  refine ⟨?_, fun error herror => put.looksAlike_stateAfter chances folder n ?_⟩
  · by_cases hdone : ∃ key, (put.stateAfter chances folder n).1 = .done (.ok key)
    · obtain ⟨key, hkey⟩ := hdone
      rw [eq_run_of_done hkey]
      exact .inr (.refl _)
    · exact .inl (put.looksAlike_stateAfter chances folder n fun key hkey => hdone ⟨key, hkey⟩)
  · rw [herror]
    exact nofun

/-! ## A put among others -/

/-- Where a put may come to, and what the folder may be then, when others work on the folder
between its steps and leave its temporary file alone. -/
inductive Reaches (put : Put) : Stage → Folder → Prop
  | start (folder : Folder) : put.Reaches put.init folder
  | step {stage : Stage} {folder : Folder} (luck : Luck) (hreaches : put.Reaches stage folder) :
      put.Reaches (put.step luck stage folder).1 (put.step luck stage folder).2
  | others {stage : Stage} {folder after : Folder} (hreaches : put.Reaches stage folder)
      (hkept : after.get? (temporaryName put.key put.stamp) =
        folder.get? (temporaryName put.key put.stamp)) :
      put.Reaches stage after

/-- What a complete put leaves behind: its payload under its key, and all else as before. -/
structure Stores (put : Put) (before after : Folder) : Prop where
  entry : Holds after put.key put.payload
  others : ∀ key, key ≠ put.key → FindsAs before after key
  keys : ∀ base, ∃ old new, keys .fine base before = .ok old ∧ keys .fine base after = .ok new ∧
    ∀ key, key ∈ new ↔ key ∈ old ∨
      key = put.key ∧ ∃ suffix, suffix ≠ "" ∧ key = keyFor base suffix

/-- A step of a put cannot be seen, or it is the one that completes the put. -/
def IsSeamless (put : Put) (stage : Stage) (before : Folder) (state : Stage × Folder) : Prop :=
  LooksAlike before state.2 ∧ (∀ key, state.1 = .done (.ok key) → stage = .done (.ok key)) ∨
    state.1 = .done (.ok put.key) ∧ put.Stores before state.2

theorem Reaches.done_or_isDrafted {put : Put} {stage : Stage} {folder : Folder}
    (hreaches : put.Reaches stage folder) :
    (∃ answer, stage = .done answer) ∨ put.IsDrafted stage folder := by
  induction hreaches with
  | start folder =>
      rw [init]
      split
      · next hsafe =>
        refine .inr ⟨hsafe, ?_, ?_⟩
        · intro hrenaming
          cases hrenaming
        · intro answer hdone
          cases hdone
      · exact .inl ⟨_, rfl⟩
  | step luck hreaches ih =>
      obtain ⟨answer, rfl⟩ | hdrafted := ih
      · exact .inl ⟨answer, rfl⟩
      · obtain ⟨hdone, -⟩ | ⟨⟨error, herror⟩ | hnext, -⟩ := step_cases hdrafted luck
        · exact .inl ⟨_, hdone⟩
        · exact .inl ⟨_, herror⟩
        · exact .inr hnext
  | others hreaches hkept ih =>
      obtain hdone | hdrafted := ih
      · exact .inl hdone
      · exact .inr ⟨hdrafted.safe, fun hrenaming => hkept.trans (hdrafted.temporary hrenaming),
          hdrafted.running⟩

theorem stores_of_get? {put : Put} {before after : Folder}
    (hstands : Folder.Stands before after) (hholds : Holds after put.key put.payload)
    (hothers : ∀ name, name ≠ entryName put.key → name ≠ temporaryName put.key put.stamp →
      after.get? name = before.get? name) : put.Stores before after := by
  have hsame {key : String} (hkey : key ≠ put.key) :
      after.get? (entryName key) = before.get? (entryName key) :=
    hothers _ (fun heq => hkey (entryName_injective heq)) (entryName_ne_temporaryName _ _ _)
  have hentry := (holds_iff.mp hholds).2
  refine ⟨hholds, fun key hkey => findsAs_of_get? hstands (hsame hkey), fun base => ?_⟩
  have hafter : after ≠ .blocked := by
    rintro rfl
    cases hentry
  obtain ⟨new, hnew⟩ := exists_keys base hafter
  obtain ⟨old, hold⟩ := exists_keys base (mt hstands.blocked.mpr hafter)
  refine ⟨old, new, hold, hnew, fun key => ?_⟩
  rw [mem_keys_iff hnew, mem_keys_iff hold]
  by_cases hkey : key = put.key
  · rw [hkey, hentry]
    constructor
    · rintro ⟨-, hsuffix⟩
      exact .inr ⟨rfl, hsuffix⟩
    · rintro (⟨-, hsuffix⟩ | ⟨-, hsuffix⟩)
      · exact ⟨rfl, hsuffix⟩
      · exact ⟨rfl, hsuffix⟩
  · rw [hsame hkey]
    exact ⟨.inl, fun h => h.resolve_right fun hput => hkey hput.1⟩

/-- Whatever others do between the steps of a put, none of its steps shows half of it. -/
theorem Reaches.isSeamless {put : Put} {stage : Stage} {folder : Folder}
    (hreaches : put.Reaches stage folder) (luck : Luck) :
    put.IsSeamless stage folder (put.step luck stage folder) := by
  obtain ⟨answer, rfl⟩ | hdrafted := hreaches.done_or_isDrafted
  · exact .inl ⟨.refl folder, fun _ => id⟩
  · have hstands := put.stands_step luck stage folder
    obtain ⟨hdone, hholds, hothers⟩ | ⟨hopen, hothers⟩ := step_cases hdrafted luck
    · exact .inr ⟨hdone, stores_of_get? hstands hholds hothers⟩
    · refine .inl ⟨looksAlike_of_get? hstands hothers, fun key hkey => ?_⟩
      obtain ⟨error, herror⟩ | hnext := hopen
      · rw [herror] at hkey
        cases hkey
      · exact absurd hkey (hnext.running _)

/-- A put is atomic: on its own, whatever step it ends after, one sees what there was before or
what a complete put leaves behind, which is its payload under its key and all else as before;
among others, none of its steps can be seen but the one that completes it.  Never is a
temporary file listed as a key. -/
theorem isAtomic_always (put : Put) :
    (∀ chances folder, put.IsAtomic LooksAlike chances folder) ∧
      (∀ chances folder n key, (put.stateAfter chances folder n).1 = .done (.ok key) →
        (put.stateAfter chances folder n).2 = (put.run .fine folder).2 ∧
          put.Stores folder (put.stateAfter chances folder n).2) ∧
      (∀ stage folder, put.Reaches stage folder → ∀ luck,
        put.IsSeamless stage folder (put.step luck stage folder)) ∧
      ∀ base key stamp, listedKey base (temporaryName key stamp) = none := by
  refine ⟨put.isAtomic_looksAlike, fun chances folder n key hdone => ⟨eq_run_of_done hdone, ?_⟩,
    fun stage folder hreaches luck => hreaches.isSeamless luck, listedKey_temporaryName⟩
  have hprogress := put.progress_stateAfter chances folder n
  exact stores_of_get? (put.stands_stateAfter chances folder n)
    (hprogress.written key hdone).2 hprogress.others

/-- A put that writes over an entry and breaks off in the middle of its file. -/
def cutPut : Put where
  key := "s.a"
  payload := "new"
  stamp := ⟨1, 0⟩

def cutChances : Chances :=
  { Chances.fine with write := .stops 1 }

def storedFolder : Folder :=
  .present (Entries.empty.put (entryName "s.a") (.file "old".toByteArray))

theorem isAtomic_cutPut :
    (cutPut.stateAfter cutChances storedFolder 2).1 =
        .done (.error (.io (.temporary "s.a" ⟨1, 0⟩))) ∧
      LooksAlike storedFolder (cutPut.stateAfter cutChances storedFolder 2).2 :=
  have hcut : (cutPut.stateAfter cutChances storedFolder 2).1 =
      .done (.error (.io (.temporary "s.a" ⟨1, 0⟩))) := by rfl
  ⟨hcut, ((isAtomic_always cutPut).1 cutChances storedFolder 2).2 _ hcut⟩

/-- A put with a name that is too long makes the folder and then fails, and every overlong key
that was not found before is an error after it. -/
theorem not_isAtomic_of_isOverlong {put : Put} (hsafe : isSafeKey put.key.toList = true)
    (hlong : nameLimit < (temporaryName put.key put.stamp).size) {key : String}
    (hkey : isSafeKey key.toList = true)
    (hpossible : Folder.isImpossible (entryName key) = false) (hoverlong : IsOverlong key)
    (head : PathHead) (hpath : head.size + (entryName key).size < pathLimit) :
    ¬put.IsAtomic LooksAs .fine (.absent head) := by
  intro hatomic
  have hresolve (entries : Entries) :
      Folder.resolve (.present entries) (temporaryName put.key put.stamp) = .error .other := by
    simp [Folder.resolve, hlong]
  have hstart : put.stateAfter .fine (.absent head) 0 = (.making, .absent head) := by
    rw [stateAfter, init, if_pos hsafe]
    rfl
  have hmade : put.stateAfter .fine (.absent head) 1 = (.writing, .present .empty) := by
    rw [stateAfter_succ, hstart]
    rfl
  have hfailed : put.stateAfter .fine (.absent head) 2 =
      (.done (.error (.io (.temporary put.key put.stamp))), .present .empty) := by
    rw [stateAfter_succ, hmade]
    simp [stepAt, step, Folder.writeFile, hresolve]
  have hlooks := ((hatomic 2).2 _ (congrArg Prod.fst hfailed)).get key
  rw [hfailed] at hlooks
  have hlimit : nameLimit < (entryName key).size := hoverlong
  have hfits : ¬pathLimit ≤ head.size + (entryName key).size := Nat.not_le.mpr hpath
  simp [get, hkey, Folder.readText, Folder.resolve, hpossible, hlimit, hfits] at hlooks

/-- A text of so many letters. -/
def letters (n : Nat) : String :=
  .ofList (.replicate n 'x')

theorem utf8ByteSize_letters (n : Nat) : (letters n).utf8ByteSize = n := by
  have hall : ∀ c ∈ List.replicate n 'x', c.utf8Size = 1 := by
    intro c hmem
    rw [List.eq_of_mem_replicate hmem]
    rfl
  rw [letters, utf8ByteSize_ofList hall, List.length_replicate]

theorem notMem_letters (n : Nat) {mark : Char} (hmark : mark ≠ 'x') :
    mark ∉ (letters n).toList := by
  rw [letters, String.toList_ofList]
  exact fun hmem => hmark (List.eq_of_mem_replicate hmem)

theorem isSafeKey_letters (n : Nat) : isSafeKey (letters (n + 1)).toList = true := by
  have hpoint : '.' ∉ (letters (n + 1)).toList := notMem_letters _ (by decide)
  refine isSafeKey_iff.mpr ⟨?_, fun h => hpoint (List.mem_of_head? h),
    notMem_letters _ (by decide), notMem_letters _ (by decide),
    fun h => hpoint (h.subset List.mem_cons_self)⟩
  rw [letters, String.toList_ofList]
  exact List.cons_ne_nil _ _

theorem isPossible_letters (n : Nat) : Folder.isImpossible (entryName (letters n)) = false :=
  isPossible_entryName (notMem_letters n (by decide)) (notMem_letters n (by decide))

theorem size_entryName_letters (n : Nat) : (entryName (letters n)).size = n + 5 := by
  rw [entryName, String.size_toByteArray, utf8ByteSize_entryText, utf8ByteSize_letters]

/-- The entry of its key would need a name of 266 bytes. -/
def overlongPut : Put where
  key := keyFor "scorecard" (letters 251)
  payload := "p"
  stamp := ⟨1, 0⟩

theorem not_isAtomic_overlongPut : ¬overlongPut.IsAtomic LooksAs .fine .absent := by
  have hput : isSafeKey overlongPut.key.toList = true := by
    apply isSafeKey_keyFor (by decide)
    intro mark hmark
    simp only [List.mem_cons, List.not_mem_nil, or_false] at hmark
    obtain rfl | rfl | rfl := hmark <;> exact notMem_letters _ (by decide)
  have hname : nameLimit < (temporaryName overlongPut.key overlongPut.stamp).size := by
    have hkey : overlongPut.key.utf8ByteSize = 261 := by
      rw [overlongPut, keyFor, String.utf8ByteSize_append, utf8ByteSize_letters]
      rfl
    have hlimit : nameLimit = 255 := rfl
    rw [temporaryName, String.size_toByteArray, utf8ByteSize_temporaryText]
    omega
  have hoverlong : IsOverlong (letters 251) := by
    rw [IsOverlong, size_entryName_letters]
    decide
  have hpath : PathHead.temporary.size + (entryName (letters 251)).size < pathLimit := by
    rw [size_entryName_letters, PathHead.size_temporary]
    decide
  have hkey : isSafeKey (letters 251).toList = true := isSafeKey_letters 250
  exact not_isAtomic_of_isOverlong hput hname hkey (isPossible_letters 251) hoverlong .temporary
    hpath

end Put

end Scorekeeper.Queue
