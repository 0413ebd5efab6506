import Scorekeeper.Config
import Scorekeeper.Proofs.Queue.Atomicity

/-!
# Queues with different bases in one folder

The base of a queue holds no point, so that the first point of a key ends its base.  Hence
no file bears a name of two queues, whatever the suffixes are and also if one base begins
with the other.  This file says which names a queue owns, proves that its calls leave all
other names alone, and that they cannot tell two folders apart that have the same under
its own names.  They can tell whether there is a folder at all, but only by keys that are
too long for any file.
-/

namespace Scorekeeper.Queue

open Files Text

variable {alone together after folder : Folder} {base other key : String} {name : FileName}

/-! ## Names of a queue -/

/-- The file is an entry of the queue with this base, or a temporary file of its writers. -/
def Owns (base : String) (name : FileName) : Prop :=
  ∃ suffix, name = entryName (keyFor base suffix) ∨
    ∃ stamp, name = temporaryName (keyFor base suffix) stamp

theorem owns_entryName (base suffix : String) : Owns base (entryName (keyFor base suffix)) :=
  ⟨suffix, .inl rfl⟩

theorem owns_temporaryName (base suffix : String) (stamp : Stamp) :
    Owns base (temporaryName (keyFor base suffix) stamp) :=
  ⟨suffix, .inr ⟨stamp, rfl⟩⟩

/-- What comes before the first point of a text. -/
theorem eq_of_point_append {front back left right : List Char}
    (heq : front ++ '.' :: left = back ++ '.' :: right) (hfront : '.' ∉ front)
    (hback : '.' ∉ back) : front = back := by
  have hreversed := congrArg List.reverse heq
  simp only [List.reverse_append, List.reverse_cons] at hreversed
  exact List.reverse_inj.mp
    (eq_of_append_point hreversed (mt List.mem_reverse.mp hfront) (mt List.mem_reverse.mp hback))

theorem base_eq_of_keyFor_eq (hbase : isBaseKey base.toList = true)
    (hother : isBaseKey other.toList = true) {left right : String}
    (heq : keyFor base left = keyFor other right) : base = other := by
  have hlist := congrArg String.toList heq
  rw [toList_keyFor, toList_keyFor] at hlist
  exact String.toList_inj.mp (eq_of_point_append hlist
    (notMem_of_isBaseKey hbase (by decide)) (notMem_of_isBaseKey hother (by decide)))

theorem key_eq_of_temporaryName_eq {left right : String} {stamp stamp' : Stamp}
    (heq : temporaryName left stamp = temporaryName right stamp') : left = right := by
  obtain rfl := stamp_eq_of_temporaryName_eq heq
  have htext : temporaryText left stamp = temporaryText right stamp :=
    String.toByteArray_inj.mp heq
  simpa [temporaryText] using htext

/-- No file belongs to two queues. -/
theorem Owns.base_eq (hbase : isBaseKey base.toList = true)
    (hother : isBaseKey other.toList = true) (howns : Owns base name)
    (hshared : Owns other name) : base = other := by
  obtain ⟨left, rfl | ⟨stamp, rfl⟩⟩ := howns
  · obtain ⟨right, heq | ⟨stamp, heq⟩⟩ := hshared
    · exact base_eq_of_keyFor_eq hbase hother (entryName_injective heq)
    · exact absurd heq (entryName_ne_temporaryName _ _ _)
  · obtain ⟨right, heq | ⟨stamp, heq⟩⟩ := hshared
    · exact absurd heq.symm (entryName_ne_temporaryName _ _ _)
    · exact base_eq_of_keyFor_eq hbase hother (key_eq_of_temporaryName_eq heq)

/-! ## Calls leave the names of other queues alone -/

theorem Put.get?_step_of_not_owns (put : Put) (luck : Luck) (stage : Put.Stage)
    (folder : Folder) (hkey : ∃ suffix, put.key = keyFor base suffix)
    (hname : ¬Owns base name) :
    (put.step luck stage folder).2.get? name = folder.get? name := by
  obtain ⟨suffix, hkey⟩ := hkey
  have hentry : name ≠ entryName put.key := by
    rintro rfl
    exact hname (hkey ▸ owns_entryName base suffix)
  have htemporary : name ≠ temporaryName put.key put.stamp := by
    rintro rfl
    exact hname (hkey ▸ owns_temporaryName base suffix put.stamp)
  rw [folder_step]
  cases stage with
  | making => exact folder.get?_makeFolder luck name
  | writing => exact folder.get?_writeFile_of_ne luck _ htemporary
  | «renaming» =>
      obtain ⟨-, -, -, -, hget⟩ | ⟨error, herror⟩ := folder.rename_cases luck
        (temporaryName put.key put.stamp) (entryName put.key)
      · exact hget name htemporary hentry
      · simp only [herror]
  | discarding =>
      obtain ⟨-, hget⟩ | ⟨error, herror⟩ :=
        folder.deleteFile_cases luck (temporaryName put.key put.stamp)
      · exact (hget name).trans (if_neg htemporary)
      · simp only [herror]
  | done answer => rfl

theorem Removal.get?_step_of_not_owns (removal : Removal) (luck : Luck)
    (stage : Removal.Stage) (folder : Folder)
    (hkey : ∃ suffix, removal.key = keyFor base suffix) (hname : ¬Owns base name) :
    (removal.step luck stage folder).2.get? name = folder.get? name := by
  obtain ⟨suffix, hkey⟩ := hkey
  obtain hkept | hget := removal.step_cases luck stage folder
  · rw [hkept]
  · refine (hget name).trans (if_neg ?_)
    rintro rfl
    exact hname (hkey ▸ owns_entryName base suffix)

theorem get?_remove_of_not_owns (luck : Luck) (suffix : String) (folder : Folder)
    (hname : ¬Owns base name) :
    (remove luck (keyFor base suffix) folder).2.get? name = folder.get? name := by
  obtain ⟨-, hkept⟩ | ⟨-, hget⟩ := remove_cases luck (keyFor base suffix) folder
  · rw [hkept]
  · refine (hget name).trans (if_neg ?_)
    rintro rfl
    exact hname (owns_entryName base suffix)

theorem Removal.stands_step (removal : Removal) (luck : Luck) (stage : Removal.Stage)
    (folder : Folder) : Folder.Stands folder (removal.step luck stage folder).2 := by
  cases stage with
  | comparing =>
      obtain ⟨answer, -, hstep⟩ | ⟨-, -, hstep⟩ := removal.step_comparing luck folder
      · rw [hstep]
        exact .refl folder
      · rw [hstep]
        exact .refl folder
  | deleting => exact stands_remove luck removal.key folder
  | done answer => exact .refl folder

/-! ## Folders that a queue cannot tell apart -/

/-- The second folder has the same as the first under the names of the queue; where nothing
was in the place of the first there may be a folder by now. -/
structure Agrees (base : String) (alone together : Folder) : Prop where
  stands : Folder.Stands alone together
  owned : ∀ name, Owns base name → together.get? name = alone.get? name

/-- A call gives the same in both folders, and leaves folders that cannot be told apart. -/
structure Coincides {Answer : Type} (base : String) (left right : Answer × Folder) : Prop where
  answer : right.1 = left.1
  folders : Agrees base left.2 right.2

namespace Agrees

theorem refl (base : String) (folder : Folder) : Agrees base folder folder :=
  ⟨.refl folder, fun _ _ => rfl⟩

/-- Others may change what the queue does not own. -/
theorem trans (hagrees : Agrees base alone together) (hstands : Folder.Stands together after)
    (hframe : ∀ name, Owns base name → after.get? name = together.get? name) :
    Agrees base alone after :=
  ⟨hagrees.stands.trans hstands, fun name howns =>
    (hframe name howns).trans (hagrees.owned name howns)⟩

theorem keys_eq (hagrees : Agrees base alone together) (luck : Luck) :
    keys luck base together = keys luck base alone := by
  cases luck with
  | fine => exact keys_congr hagrees.stands fun suffix => hagrees.owned _ (owns_entryName _ _)
  | fails => cases alone <;> cases together <;> rfl
  | stops written => cases alone <;> cases together <;> rfl

theorem size_eq (hagrees : Agrees base alone together) (luck : Luck) :
    size luck base together = size luck base alone := by
  rw [size, size, hagrees.keys_eq]

theorem findsAs (hagrees : Agrees base alone together) (suffix : String) :
    FindsAs alone together (keyFor base suffix) :=
  findsAs_of_get? hagrees.stands (hagrees.owned _ (owns_entryName base suffix))

/-- Where something is in the place of the folder, the same kind of thing is there in both. -/
theorem cases (hagrees : Agrees base alone together) (hthere : ¬alone.IsAbsent) :
    (alone = .blocked ∧ together = .blocked) ∨
      ∃ old new, alone = .present old ∧ together = .present new ∧
        ∀ name, Owns base name → new.get? name = old.get? name := by
  cases alone with
  | absent head => exact absurd ⟨head, rfl⟩ hthere
  | blocked => exact .inl ⟨rfl, hagrees.stands.blocked.mpr rfl⟩
  | present old =>
      cases together with
      | absent head => cases hagrees.stands.absent head rfl
      | blocked => cases hagrees.stands.blocked.mp rfl
      | present new => exact .inr ⟨old, new, rfl, rfl, hagrees.owned⟩

theorem of_entries {old new : Entries}
    (hsame : ∀ name, Owns base name → new.get? name = old.get? name) :
    Agrees base (.present old) (.present new) :=
  ⟨Folder.stands_present old new, hsame⟩

theorem put {old new : Entries}
    (hsame : ∀ name, Owns base name → new.get? name = old.get? name) (name : FileName)
    (node : Node) : Agrees base (.present (old.put name node)) (.present (new.put name node)) := by
  apply of_entries
  intro other howns
  rw [Entries.get?_put, Entries.get?_put, hsame other howns]

theorem erase {old new : Entries}
    (hsame : ∀ name, Owns base name → new.get? name = old.get? name) (name : FileName) :
    Agrees base (.present (old.erase name)) (.present (new.erase name)) := by
  apply of_entries
  intro other howns
  rw [Entries.get?_erase, Entries.get?_erase, hsame other howns]

end Agrees

theorem Coincides.of_agrees {Answer : Type} (hagrees : Agrees base alone together)
    (answer : Answer) : Coincides base (answer, alone) (answer, together) :=
  ⟨rfl, hagrees⟩

theorem Coincides.exists_eq {Answer : Type} {left right : Answer × Folder}
    (hcoincides : Coincides base left right) :
    ∃ answer alone together, left = (answer, alone) ∧ right = (answer, together) ∧
      Agrees base alone together :=
  ⟨left.1, left.2, right.2, rfl, Prod.ext hcoincides.answer rfl, hcoincides.folders⟩

/-- Whether a name can be looked up in a folder that is there does not depend on what is in
it. -/
theorem resolve_present_cases (name : FileName) :
    (∃ error, ∀ entries, Folder.resolve (.present entries) name = .error error) ∨
      ∀ entries, Folder.resolve (.present entries) name = .ok entries := by
  by_cases himpossible : Folder.isImpossible name = true
  · exact .inl ⟨.other, fun entries => by simp [Folder.resolve, himpossible]⟩
  · by_cases hlong : nameLimit < name.size
    · exact .inl ⟨.other, fun entries => by simp [Folder.resolve, hlong]⟩
    · exact .inr fun entries => by simp [Folder.resolve, himpossible, hlong]

namespace Agrees

theorem makeFolder (hagrees : Agrees base alone together) (luck : Luck) :
    Coincides base (alone.makeFolder luck) (together.makeFolder luck) := by
  by_cases hthere : alone.IsAbsent
  · obtain ⟨head, rfl⟩ := hthere
    have hblocked : together ≠ .blocked := fun hblocked => by
      cases hagrees.stands.blocked.mp hblocked
    cases luck with
    | fine =>
        cases together with
        | absent other =>
            rw [hagrees.stands.absent other rfl]
            exact .of_agrees (.refl base _) _
        | blocked => exact absurd rfl hblocked
        | present entries => exact .of_agrees (.of_entries hagrees.owned) _
    | _ =>
        cases together with
        | blocked => exact absurd rfl hblocked
        | _ => exact .of_agrees hagrees _
  · obtain ⟨rfl, rfl⟩ | ⟨old, new, rfl, rfl, hsame⟩ := hagrees.cases hthere
    · exact ⟨rfl, .refl base _⟩
    · cases luck <;> exact .of_agrees hagrees _

theorem writeFile (hagrees : Agrees base alone together) (hthere : ¬alone.IsAbsent)
    (howns : Owns base name) (luck : Luck) (content : ByteArray) :
    Coincides base (alone.writeFile luck name content) (together.writeFile luck name content) := by
  obtain ⟨rfl, rfl⟩ | ⟨old, new, rfl, rfl, hsame⟩ := hagrees.cases hthere
  · exact ⟨rfl, .refl base _⟩
  · obtain ⟨error, herror⟩ | hfound := resolve_present_cases name
    · rw [Folder.writeFile, Folder.writeFile, herror, herror]
      exact .of_agrees hagrees _
    · simp only [Folder.writeFile, hfound, hsame name howns]
      split
      · exact .of_agrees hagrees _
      · cases luck with
        | fine => exact .of_agrees (put hsame name _) _
        | fails => exact .of_agrees hagrees _
        | stops written => exact .of_agrees (put hsame name _) _

theorem rename (hagrees : Agrees base alone together) (hthere : ¬alone.IsAbsent)
    {source target : FileName} (hsource : Owns base source) (htarget : Owns base target)
    (luck : Luck) :
    Coincides base (alone.rename luck source target) (together.rename luck source target) := by
  obtain ⟨rfl, rfl⟩ | ⟨old, new, rfl, rfl, hsame⟩ := hagrees.cases hthere
  · exact ⟨rfl, .refl base _⟩
  · rw [Folder.rename, Folder.rename]
    split
    · exact .of_agrees hagrees _
    · obtain ⟨error, herror⟩ | hfound := resolve_present_cases source
      · simp only [herror]
        exact .of_agrees hagrees _
      · obtain ⟨error, herror⟩ | hplace := resolve_present_cases target
        · simp only [hfound, herror]
          exact .of_agrees hagrees _
        · simp only [hfound, hplace, hsame source hsource, hsame target htarget]
          split
          · exact .of_agrees hagrees _
          · exact .of_agrees hagrees _
          · refine .of_agrees (put ?_ target _) _
            exact (erase hsame source).owned

theorem deleteFile (hagrees : Agrees base alone together) (hthere : ¬alone.IsAbsent)
    (howns : Owns base name) (luck : Luck) :
    Coincides base (alone.deleteFile luck name) (together.deleteFile luck name) := by
  obtain ⟨rfl, rfl⟩ | ⟨old, new, rfl, rfl, hsame⟩ := hagrees.cases hthere
  · exact ⟨rfl, .refl base _⟩
  · rw [Folder.deleteFile, Folder.deleteFile]
    split
    · exact .of_agrees hagrees _
    · obtain ⟨error, herror⟩ | hfound := resolve_present_cases name
      · simp only [herror]
        exact .of_agrees hagrees _
      · simp only [hfound, hsame name howns]
        split
        · exact .of_agrees hagrees _
        · exact .of_agrees hagrees _
        · exact .of_agrees (erase hsame name) _

end Agrees

/-! ## Calls that cannot tell two folders apart -/

/-- The put has made the folder and has not answered. -/
def Put.Stage.isUnderWay : Put.Stage → Bool
  | .writing | .renaming | .discarding => true
  | _ => false

/-- Where nothing is, and in a folder without the entry, a removal changes nothing, and it answers
the same unless the key is overlong. -/
theorem remove_absent_cases {key : String} (head : PathHead) {entries : Entries}
    (hmissing : entries.get? (entryName key) = none) (luck : Luck) :
    (∃ answer, remove luck key (.absent head) = (answer, .absent head) ∧
        remove luck key (.present entries) = (answer, .present entries)) ∨
      IsOverlong key ∧ remove luck key (.absent head) = (.ok false, .absent head) ∧
        remove luck key (.present entries) =
          (.error (.io (.entry key)), .present entries) := by
  by_cases hsafe : isSafeKey key.toList = true
  · by_cases hluck : luck = .fine
    · obtain ⟨habsent, hpresent⟩ | ⟨habsent, hpresent⟩ :=
        Folder.resolve_absent_cases head entries (entryName key)
      · left
        simp [remove, hsafe, Folder.deleteFile, hluck, habsent, hpresent]
      · by_cases hlong : nameLimit < (entryName key).size
        · rw [if_pos hlong] at hpresent
          refine .inr ⟨hlong, ?_, ?_⟩
          · simp [remove, hsafe, Folder.deleteFile, hluck, habsent]
          · simp [remove, hsafe, Folder.deleteFile, hluck, hpresent]
        · rw [if_neg hlong] at hpresent
          left
          simp [remove, hsafe, Folder.deleteFile, hluck, habsent, hpresent, hmissing]
    · left
      simp [remove, hsafe, Folder.deleteFile, hluck]
  · left
    simp [remove, hsafe]

namespace Agrees

theorem get_cases (hagrees : Agrees base alone together) (luck : Luck) (suffix : String) :
    let key := keyFor base suffix
    get luck key together = get luck key alone ∨
      alone.IsAbsent ∧ IsOverlong key ∧ get luck key alone = .ok none ∧
        get luck key together = .error (.io (.entry key)) := by
  cases luck with
  | fine => exact hagrees.findsAs suffix
  | _ => simp [get, Folder.readText]

/-- The first step of a put makes the folder, and from then on it is there. -/
theorem step_put (hagrees : Agrees base alone together) (put : Put) (stage : Put.Stage)
    (hkey : ∃ suffix, put.key = keyFor base suffix)
    (hthere : stage.isUnderWay = true → ¬alone.IsAbsent) (luck : Luck) :
    Coincides base (put.step luck stage alone) (put.step luck stage together) := by
  obtain ⟨suffix, hkey⟩ := hkey
  have hentry : Owns base (entryName put.key) := hkey ▸ owns_entryName base suffix
  have htemporary : Owns base (temporaryName put.key put.stamp) :=
    hkey ▸ owns_temporaryName base suffix put.stamp
  cases stage with
  | making =>
      obtain ⟨answer, _, _, hleft, hright, hfolders⟩ := (hagrees.makeFolder luck).exists_eq
      simp only [Put.step, hleft, hright]
      cases answer <;> exact .of_agrees hfolders _
  | writing =>
      obtain ⟨answer, _, _, hleft, hright, hfolders⟩ :=
        (hagrees.writeFile (hthere rfl) htemporary luck put.payload.toByteArray).exists_eq
      simp only [Put.step, hleft, hright]
      cases answer <;> exact .of_agrees hfolders _
  | «renaming» =>
      obtain ⟨answer, _, _, hleft, hright, hfolders⟩ :=
        (hagrees.rename (hthere rfl) htemporary hentry luck).exists_eq
      simp only [Put.step, hleft, hright]
      cases answer <;> exact .of_agrees hfolders _
  | discarding =>
      exact .of_agrees (hagrees.deleteFile (hthere rfl) htemporary luck).folders _
  | done answer => exact .of_agrees hagrees _

theorem remove_of_there (hagrees : Agrees base alone together) (hthere : ¬alone.IsAbsent)
    (luck : Luck) (suffix : String) :
    Coincides base (remove luck (keyFor base suffix) alone)
      (remove luck (keyFor base suffix) together) := by
  obtain ⟨answer, _, _, hleft, hright, hfolders⟩ :=
    (hagrees.deleteFile hthere (owns_entryName base suffix) luck).exists_eq
  rw [Queue.remove, Queue.remove]
  split
  · rw [hleft, hright]
    obtain (_ | _) | _ := answer <;> exact .of_agrees hfolders _
  · exact .of_agrees hagrees _

/-- Where there was no folder a removal finds nothing to delete; once there is one, it is an
error to ask for an overlong key. -/
theorem remove (hagrees : Agrees base alone together) (luck : Luck) (suffix : String) :
    let key := keyFor base suffix
    Coincides base (Queue.remove luck key alone) (Queue.remove luck key together) ∨
      alone.IsAbsent ∧ IsOverlong key ∧ Queue.remove luck key alone = (.ok false, alone) ∧
        Queue.remove luck key together = (.error (.io (.entry key)), together) := by
  intro key
  by_cases hthere : alone.IsAbsent
  · obtain ⟨head, rfl⟩ := hthere
    cases together with
    | absent other =>
        rw [hagrees.stands.absent other rfl]
        exact .inl ⟨rfl, .refl base _⟩
    | blocked => cases hagrees.stands.blocked.mp rfl
    | present entries =>
        have hmissing : entries.get? (entryName key) = none :=
          hagrees.owned _ (owns_entryName base suffix)
        obtain ⟨answer, hleft, hright⟩ | hoverlong := remove_absent_cases head hmissing luck
        · rw [hleft, hright]
          exact .inl (.of_agrees hagrees _)
        · exact .inr ⟨⟨head, rfl⟩, hoverlong⟩
  · exact .inl (hagrees.remove_of_there hthere luck suffix)

/-- Where there was no folder a removal finds no payload to compare; once there is one, it is
an error to ask for an overlong key. -/
theorem step_removal (hagrees : Agrees base alone together) (removal : Removal)
    (stage : Removal.Stage) (hkey : ∃ suffix, removal.key = keyFor base suffix)
    (hthere : stage = .deleting → ¬alone.IsAbsent) (luck : Luck) :
    Coincides base (removal.step luck stage alone) (removal.step luck stage together) ∨
      alone.IsAbsent ∧ IsOverlong removal.key ∧
        removal.step luck stage alone = (.done (.ok false), alone) ∧
        removal.step luck stage together =
          (.done (.error (.io (.entry removal.key))), together) := by
  obtain ⟨suffix, hkey⟩ := hkey
  cases stage with
  | comparing =>
      obtain hsame | ⟨habsent, hlong, hmissing, herror⟩ := hagrees.get_cases luck suffix
      · left
        rw [← hkey] at hsame
        simp only [Removal.step, hsame]
        split
        · exact .of_agrees hagrees _
        · split
          · exact .of_agrees hagrees _
          · exact .of_agrees hagrees _
      · right
        rw [← hkey] at hlong hmissing herror
        exact ⟨habsent, hlong, by simp [Removal.step, hmissing], by simp [Removal.step, herror]⟩
  | deleting =>
      left
      have hsame := hagrees.remove_of_there (hthere rfl) luck suffix
      rw [← hkey] at hsame
      exact ⟨congrArg Removal.Stage.done hsame.answer, hsame.folders⟩
  | done answer => exact .inl (.of_agrees hagrees _)

end Agrees

/-! ## Long keys -/

/-- A key of the queue with the usual base, of ten letters more than its suffix. -/
def longKey (n : Nat) : String :=
  keyFor "scorecard" (Put.letters n)

theorem notMem_longKey (n : Nat) {mark : Char} (hletter : mark ≠ 'x')
    (hbase : mark ∉ "scorecard.".toList) : mark ∉ (longKey n).toList := by
  have hhead : "scorecard.".toList = "scorecard".toList ++ ['.'] := rfl
  rw [longKey, toList_keyFor, List.append_cons, ← hhead, List.mem_append, not_or]
  exact ⟨hbase, Put.notMem_letters n hletter⟩

theorem utf8ByteSize_longKey (n : Nat) : (longKey n).utf8ByteSize = n + 10 := by
  have hbase : ("scorecard" ++ ".").utf8ByteSize = 10 := rfl
  rw [longKey, keyFor, String.utf8ByteSize_append, hbase, Put.utf8ByteSize_letters, Nat.add_comm]

theorem isSafeKey_longKey (n : Nat) : isSafeKey (longKey n).toList = true := by
  apply isSafeKey_keyFor (by decide)
  intro mark hmark
  simp only [List.mem_cons, List.not_mem_nil, or_false] at hmark
  obtain rfl | rfl | rfl := hmark <;> exact Put.notMem_letters n (by decide)

theorem isPossible_longKey (n : Nat) : Folder.isImpossible (entryName (longKey n)) = false :=
  isPossible_entryName (notMem_longKey n (by decide) (by decide))
    (notMem_longKey n (by decide) (by decide))

theorem size_entryName_longKey (n : Nat) : (entryName (longKey n)).size = n + 15 := by
  rw [entryName, String.size_toByteArray, utf8ByteSize_entryText, utf8ByteSize_longKey]

theorem get_longKey_absent {n : Nat} (head : PathHead) (hpath : head.size + n + 15 < pathLimit) :
    get .fine (longKey n) (.absent head) = .ok none := by
  have hshort : ¬pathLimit ≤ head.size + (entryName (longKey n)).size := by
    rw [size_entryName_longKey]
    omega
  simp [get, isSafeKey_longKey, Folder.readText, Folder.resolve, isPossible_longKey, hshort]

theorem get_longKey_present {n : Nat} (hlong : nameLimit < n + 15) (entries : Entries) :
    get .fine (longKey n) (.present entries) = .error (.io (.entry (longKey n))) := by
  have hsize : nameLimit < (entryName (longKey n)).size := by rwa [size_entryName_longKey]
  simp [get, isSafeKey_longKey, Folder.readText, Folder.resolve, hsize]

/-- A put fails if the name of its temporary file is too long. -/
theorem Put.run_of_long (put : Put) (hsafe : isSafeKey put.key.toList = true)
    (hlong : nameLimit < (temporaryName put.key put.stamp).size) (entries : Entries) :
    (put.run .fine (.present entries)).1 = .error (.io (.temporary put.key put.stamp)) := by
  have hresolve : Folder.resolve (.present entries) (temporaryName put.key put.stamp) =
      .error .other := by
    simp [Folder.resolve, hlong]
  simp only [Put.run, Put.stepAt, Put.init, if_pos hsafe, Put.Chances.at, Put.Chances.fine,
    Put.step, Folder.makeFolder, Folder.writeFile, hresolve, Put.answer]

end Scorekeeper.Queue
