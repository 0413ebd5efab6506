import Scorekeeper.Proofs.Queue.Calls

/-!
# Folders that only the calls of a queue have worked on

In such a folder there is nothing that could be in the way of a call, so that a call
which meets no failure of the file system answers.  The names must be such that files can
have them: a key of ordinary form and moderate length has such names, for its entry and
for its temporary files.
-/

namespace Scorekeeper.Files.Folder

variable {folder : Folder} {name : FileName}

/-- Nobody but the calls of a queue has been at work: nothing stands in the place of the
folder, and there are only files in it. -/
structure IsOrdinary (folder : Folder) : Prop where
  unblocked : folder ≠ .blocked
  files : ∀ name, folder.get? name ≠ some .folder

theorem isOrdinary_absent (head : PathHead) : IsOrdinary (.absent head) :=
  ⟨nofun, nofun⟩

/-- Writing a file into an ordinary folder, or taking one away, leaves it ordinary. -/
theorem IsOrdinary.of_get? {before : Folder} {entries : Entries} (hbefore : before.IsOrdinary)
    (hget : ∀ name, entries.get? name = none ∨ entries.get? name = before.get? name ∨
      ∃ content, entries.get? name = some (.file content)) :
    IsOrdinary (.present entries) where
  unblocked := nofun
  files name := by
    change entries.get? name ≠ some .folder
    obtain hnone | hsame | ⟨content, hfile⟩ := hget name
    · simp [hnone]
    · rw [hsame]
      exact hbefore.files name
    · simp [hfile]

theorem IsOrdinary.makeFolder (hordinary : folder.IsOrdinary) (luck : Luck) :
    (folder.makeFolder luck).2.IsOrdinary := by
  cases folder with
  | absent head =>
      cases luck with
      | fine => exact (isOrdinary_absent head).of_get? fun _ => .inl rfl
      | _ => exact hordinary
  | blocked => exact absurd rfl hordinary.unblocked
  | present entries => cases luck <;> exact hordinary

theorem IsOrdinary.writeFile (hordinary : folder.IsOrdinary) (luck : Luck) (name : FileName)
    (content : ByteArray) : (folder.writeFile luck name content).2.IsOrdinary := by
  have hput (entries : Entries) (hplace : folder = .present entries) (written : ByteArray) :
      IsOrdinary (.present (entries.put name (.file written))) := by
    apply hordinary.of_get?
    intro other
    rw [Entries.get?_put, hplace]
    split
    · exact .inr (.inr ⟨written, rfl⟩)
    · exact .inr (.inl rfl)
  rw [Folder.writeFile]
  split
  · exact hordinary
  · next entries hresolve =>
    have hplace := (resolve_eq_ok_iff.mp hresolve).1
    split
    · exact hordinary
    · cases luck with
      | fine => exact hput entries hplace _
      | fails => exact hordinary
      | stops written => exact hput entries hplace _

theorem IsOrdinary.rename (hordinary : folder.IsOrdinary) (luck : Luck)
    (source target : FileName) : (folder.rename luck source target).2.IsOrdinary := by
  rw [Folder.rename]
  split
  · exact hordinary
  · split
    · exact hordinary
    · exact hordinary
    · next entries found hsource htarget =>
      have hplace := (resolve_eq_ok_iff.mp hsource).1
      split
      · exact hordinary
      · exact hordinary
      · next node hnode _ =>
        have hfile := hordinary.files source
        rw [hplace, get?, hnode] at hfile
        apply hordinary.of_get?
        intro other
        rw [Entries.get?_put, Entries.get?_erase, hplace]
        split
        · cases node with
          | file content => exact .inr (.inr ⟨content, rfl⟩)
          | folder => exact absurd rfl hfile
        · split
          · exact .inl rfl
          · exact .inr (.inl rfl)

theorem IsOrdinary.deleteFile (hordinary : folder.IsOrdinary) (luck : Luck)
    (name : FileName) : (folder.deleteFile luck name).2.IsOrdinary := by
  rw [Folder.deleteFile]
  split
  · exact hordinary
  · split
    · exact hordinary
    · next entries hresolve =>
      have hplace := (resolve_eq_ok_iff.mp hresolve).1
      split
      · exact hordinary
      · exact hordinary
      · apply hordinary.of_get?
        intro other
        rw [Entries.get?_erase, hplace]
        split
        · exact .inl rfl
        · exact .inr (.inl rfl)

/-! ## Operations that meet no failure -/

theorem IsOrdinary.makeFolder_fine (hordinary : folder.IsOrdinary) :
    ∃ entries, folder.makeFolder .fine = (.ok (), .present entries) := by
  cases folder with
  | absent => exact ⟨.empty, rfl⟩
  | blocked => exact absurd rfl hordinary.unblocked
  | present entries => exact ⟨entries, rfl⟩

theorem writeFile_fine {entries : Entries} (hname : resolve (.present entries) name = .ok entries)
    (hfile : entries.get? name ≠ some .folder) (content : ByteArray) :
    writeFile .fine name content (.present entries) =
      (.ok (), .present (entries.put name (.file content))) := by
  rw [Folder.writeFile, hname]
  cases hentry : entries.get? name with
  | none => simp only [hentry]
  | some node =>
      cases node with
      | file old => simp only [hentry]
      | folder => exact absurd hentry hfile

theorem rename_fine {source target : FileName} {entries : Entries} {content : ByteArray}
    (hsource : resolve (.present entries) source = .ok entries)
    (htarget : resolve (.present entries) target = .ok entries)
    (hmoved : entries.get? source = some (.file content))
    (hfile : entries.get? target ≠ some .folder) :
    rename .fine source target (.present entries) =
      (.ok (), .present ((entries.erase source).put target (.file content))) := by
  rw [Folder.rename, if_neg (by simp), hsource, htarget]
  cases hentry : entries.get? target with
  | none => simp only [hmoved, hentry]
  | some node =>
      cases node with
      | file old => simp only [hmoved, hentry]
      | folder => exact absurd hentry hfile

/-! ## What a deletion answers -/

theorem isAbsent_of_resolve (hresolve : folder.resolve name = .error .notFound) :
    folder.IsAbsent := by
  unfold resolve at hresolve
  split at hresolve
  · cases hresolve
  · cases folder with
    | absent head => exact ⟨head, rfl⟩
    | blocked => cases hresolve
    | present entries =>
        simp only at hresolve
        split at hresolve <;> cases hresolve

theorem isSome_of_deleteFile {luck : Luck} (hdelete : (folder.deleteFile luck name).1 = .ok ()) :
    (folder.get? name).isSome = true := by
  rw [deleteFile] at hdelete
  split at hdelete
  · cases hdelete
  · split at hdelete
    · cases hdelete
    · next entries hresolve =>
      rw [(resolve_eq_ok_iff.mp hresolve).1, get?]
      cases hentry : entries.get? name with
      | none =>
          rw [hentry] at hdelete
          cases hdelete
      | some node => rfl

theorem get?_of_notFound {luck : Luck}
    (hdelete : (folder.deleteFile luck name).1 = .error .notFound) :
    folder.get? name = none := by
  rw [deleteFile] at hdelete
  split at hdelete
  · cases hdelete
  · split at hdelete
    · next error hresolve =>
      cases hdelete
      obtain ⟨head, rfl⟩ := isAbsent_of_resolve hresolve
      rfl
    · next entries hresolve =>
      rw [(resolve_eq_ok_iff.mp hresolve).1, get?]
      split at hdelete
      · next hentry => exact hentry
      · cases hdelete
      · cases hdelete

end Scorekeeper.Files.Folder

namespace Scorekeeper.Queue

open Files Text

variable {folder : Folder} {luck : Luck} {base key payload : String}

/-! ## Calls in an ordinary folder -/

theorem Put.isOrdinary_step (put : Put) (luck : Luck) (stage : Put.Stage)
    (hordinary : folder.IsOrdinary) : (put.step luck stage folder).2.IsOrdinary := by
  rw [folder_step]
  cases stage with
  | making => exact hordinary.makeFolder luck
  | writing => exact hordinary.writeFile luck _ _
  | «renaming» => exact hordinary.rename luck _ _
  | discarding => exact hordinary.deleteFile luck _
  | done answer => exact hordinary

theorem Put.isOrdinary_run (put : Put) (chances : Put.Chances)
    (hordinary : folder.IsOrdinary) : (put.run chances folder).2.IsOrdinary := by
  have hstep (state : Stage × Folder) (hstate : state.2.IsOrdinary) :
      (put.stepAt chances state).2.IsOrdinary :=
    put.isOrdinary_step _ _ hstate
  exact hstep _ (hstep _ (hstep _ (hstep (put.init, folder) hordinary)))

theorem isOrdinary_remove (luck : Luck) (key : String) (hordinary : folder.IsOrdinary) :
    (remove luck key folder).2.IsOrdinary := by
  rw [folder_remove]
  split
  · exact hordinary.deleteFile luck (entryName key)
  · exact hordinary

theorem Removal.isOrdinary_run (removal : Removal) (chances : Removal.Chances)
    (hordinary : folder.IsOrdinary) : (removal.run chances folder).2.IsOrdinary := by
  rw [Removal.run]
  obtain ⟨answer, -, hstep⟩ | ⟨-, -, hstep⟩ := removal.step_comparing chances.compare folder
  · rw [hstep]
    exact hordinary
  · rw [hstep]
    exact isOrdinary_remove chances.delete removal.key hordinary

/-- Only a call that meets no failure answers at all. -/
theorem luck_of_get_eq_ok {found : Option String} (hget : get luck key folder = .ok found) :
    luck = .fine := by
  by_contra hluck
  rw [get] at hget
  split at hget
  · rw [Folder.readText, if_pos hluck] at hget
    cases hget
  · cases hget

/-- A removal that answers tells whether there was an entry. -/
theorem remove_eq_ok {flag : Bool} (hremove : (remove luck key folder).1 = .ok flag) :
    flag = (folder.get? (entryName key)).isSome := by
  rw [remove] at hremove
  split at hremove
  · split at hremove
    · next hdelete =>
      cases hremove
      have hfile := Folder.isSome_of_deleteFile (congrArg Prod.fst hdelete)
      rw [hfile]
    · next hdelete =>
      cases hremove
      have hmissing := Folder.get?_of_notFound (congrArg Prod.fst hdelete)
      rw [hmissing, Option.isSome_none]
    · cases hremove
  · cases hremove

/-- A removal with a condition tells whether the entry held the expected payload. -/
theorem Removal.run_eq_ok {removal : Removal} {chances : Removal.Chances} {flag : Bool}
    (hrun : (removal.run chances folder).1 = .ok flag) :
    flag = true ↔ Holds folder removal.key removal.payload := by
  cases hget : get chances.compare removal.key folder with
  | error error =>
      simp only [Removal.run, Removal.step, hget] at hrun
      cases hrun
  | ok current =>
      have hholds : Holds folder removal.key removal.payload ↔
          current = some removal.payload := by
        rw [luck_of_get_eq_ok hget] at hget
        rw [Holds, hget, Except.ok.injEq]
      by_cases hcurrent : current = some removal.payload
      · simp only [Removal.run, Removal.step, hget, if_pos hcurrent] at hrun
        have hentry := remove_eq_ok hrun
        rw [(holds_iff.mp (hholds.mpr hcurrent)).2, Option.isSome_some] at hentry
        exact ⟨fun _ => hholds.mpr hcurrent, fun _ => hentry⟩
      · simp only [Removal.run, Removal.step, hget, if_neg hcurrent] at hrun
        cases hrun
        exact ⟨fun hflag => absurd hflag Bool.false_ne_true,
          fun hstored => absurd (hholds.mp hstored) hcurrent⟩

/-! ## Bytes of names -/

/-- A byte of the ASCII range stands for its own character only. -/
theorem toNat_of_mem_utf8EncodeChar {c : Char} {byte : UInt8}
    (hbyte : byte ∈ String.utf8EncodeChar c) (hlow : byte.toNat < 128) :
    c.toNat = byte.toNat := by
  have hhigh {n mark : Nat} (hmark : 128 ≤ mark) (hsum : n + mark < 256)
      (heq : byte = UInt8.ofNat (n + mark)) : False := by
    rw [heq, UInt8.toNat_ofNat'] at hlow
    omega
  unfold String.utf8EncodeChar at hbyte
  dsimp only at hbyte
  split at hbyte
  · next hsmall =>
    rw [List.mem_singleton.mp hbyte, UInt8.toNat_ofNat', Nat.mod_eq_of_lt (by omega)]
    rfl
  · exfalso
    split at hbyte
    · obtain heq | heq := List.mem_pair.mp hbyte
      · exact hhigh (by decide) (by omega) heq
      · exact hhigh (by decide) (by omega) heq
    · split at hbyte
      · simp only [List.mem_cons, List.not_mem_nil, or_false] at hbyte
        obtain heq | heq | heq := hbyte
        all_goals exact hhigh (by decide) (by omega) heq
      · simp only [List.mem_cons, List.not_mem_nil, or_false] at hbyte
        obtain heq | heq | heq | heq := hbyte
        all_goals exact hhigh (by decide) (by omega) heq

theorem mem_toList_of_mem_bytes {text : String} {byte : UInt8}
    (hbyte : byte ∈ text.toByteArray.data.toList) (hlow : byte.toNat < 128) :
    Char.ofNat byte.toNat ∈ text.toList := by
  rw [← String.utf8Encode_toList, List.utf8Encode, List.data_toByteArray] at hbyte
  obtain ⟨c, hc, hmem⟩ := List.mem_flatMap.mp hbyte
  rw [← toNat_of_mem_utf8EncodeChar hmem hlow, Char.ofNat_toNat]
  exact hc

/-- A text that is not short, with neither a zero character nor a slash in it, can be looked
for. -/
theorem isImpossible_toByteArray {text : String} (hlong : 2 < text.utf8ByteSize)
    (hzero : Char.ofNat 0 ∉ text.toList) (hslash : '/' ∉ text.toList) :
    Folder.isImpossible text.toByteArray = false := by
  have hbytes : ∀ byte ∈ text.toByteArray.data.toList, (byte == 0 || byte == 0x2F) = false := by
    intro byte hbyte
    by_contra hmark
    rw [Bool.not_eq_false, Bool.or_eq_true, beq_iff_eq, beq_iff_eq] at hmark
    obtain rfl | rfl := hmark
    · exact hzero (mem_toList_of_mem_bytes hbyte (by decide))
    · exact hslash (mem_toList_of_mem_bytes hbyte (by decide))
  have hpoints : ∀ other ∈ ["", ".", ".."], (text.toByteArray == other.toByteArray) = false := by
    intro other hother
    have hsmall : ∀ other ∈ ["", ".", ".."], other.utf8ByteSize ≤ 2 := by decide
    rw [Bool.eq_false_iff]
    intro hsame
    have hdata : text.toByteArray.data = other.toByteArray.data := eq_of_beq hsame
    rw [String.toByteArray_inj.mp (ByteArray.ext hdata)] at hlong
    exact absurd (hsmall other hother) (Nat.not_le.mpr hlong)
  rw [Folder.isImpossible, List.any_eq_false.mpr (by simpa using hbytes),
    List.any_eq_false.mpr (by simpa using hpoints)]
  rfl

/-! ## Calls that meet no failure -/

/-- A put whose names can be had, with no folder in the way of them, goes through. -/
theorem Put.run_fine (put : Put) {entries : Entries}
    (hmake : folder.makeFolder .fine = (.ok (), .present entries))
    (hreadable : IsReadable put.key)
    (htemporary : Folder.isImpossible (temporaryName put.key put.stamp) = false ∧
      (temporaryName put.key put.stamp).size ≤ nameLimit)
    (hdraft : entries.get? (temporaryName put.key put.stamp) ≠ some .folder)
    (hentry : entries.get? (entryName put.key) ≠ some .folder) :
    (put.run .fine folder).1 = .ok put.key := by
  have hname (entries : Entries) :
      Folder.resolve (.present entries) (temporaryName put.key put.stamp) = .ok entries :=
    Folder.resolve_eq_ok_iff.mpr ⟨rfl, htemporary⟩
  have hne := entryName_ne_temporaryName put.key put.key put.stamp
  have hwrite := Folder.writeFile_fine (hname entries) hdraft put.payload.toByteArray
  have hrename := Folder.rename_fine (hname _) (hreadable.resolve _)
    (by rw [Entries.get?_put, if_pos rfl])
    (by rwa [Entries.get?_put, if_neg hne] : (entries.put (temporaryName put.key put.stamp)
      (.file put.payload.toByteArray)).get? (entryName put.key) ≠ some .folder)
  simp only [Put.run, Put.stepAt, Put.init, if_pos hreadable.1, Put.Chances.at, Put.Chances.fine,
    Put.step, hmake, hwrite, hrename, Put.answer]

/-- A removal of an entry that can be looked up answers, if nothing but a file can stand in
its place. -/
theorem remove_fine (hreadable : IsReadable key) (hordinary : folder.IsOrdinary) :
    ∃ flag, (remove .fine key folder).1 = .ok flag := by
  cases folder with
  | absent head =>
      refine ⟨false, ?_⟩
      simp [remove, hreadable.1, Folder.deleteFile, hreadable.resolve_absent]
  | blocked => exact absurd rfl hordinary.unblocked
  | present entries =>
      have hfile : entries.get? (entryName key) ≠ some .folder := hordinary.files _
      cases hentry : entries.get? (entryName key) with
      | none =>
          refine ⟨false, ?_⟩
          simp [remove, hreadable.1, Folder.deleteFile, hreadable.resolve, hentry]
      | some node =>
          cases node with
          | folder => exact absurd hentry hfile
          | file content =>
              refine ⟨true, ?_⟩
              simp [remove, hreadable.1, Folder.deleteFile, hreadable.resolve, hentry]

/-! ## Sizes of names -/

theorem utf8ByteSize_entryText (key : String) :
    (entryText key).utf8ByteSize = key.utf8ByteSize + 5 :=
  String.utf8ByteSize_append

theorem utf8ByteSize_ofList {cs : List Char} (hall : ∀ c ∈ cs, c.utf8Size = 1) :
    (String.ofList cs).utf8ByteSize = cs.length := by
  rw [← String.size_toByteArray, String.toByteArray_ofList, List.utf8Encode,
    List.size_toByteArray]
  induction cs with
  | nil => rfl
  | cons c cs ih =>
      obtain ⟨hc, hcs⟩ := List.forall_mem_cons.mp hall
      rw [List.flatMap_cons, List.length_append, String.length_utf8EncodeChar, hc, ih hcs,
        List.length_cons, Nat.add_comm]

theorem utf8ByteSize_digits (n : Nat) :
    (String.ofList (digits n)).utf8ByteSize = (digits n).length := by
  apply utf8ByteSize_ofList
  intro c hmem
  have hdigit := Nat.isDigit_of_mem_toDigits (by decide) (by decide) hmem
  rw [Char.utf8Size_eq_one_iff]
  simp only [Char.isDigit, Bool.and_eq_true, decide_eq_true_eq] at hdigit
  exact UInt32.le_trans hdigit.2 (by decide)

theorem utf8ByteSize_temporaryText (key : String) (stamp : Stamp) :
    (temporaryText key stamp).utf8ByteSize =
      key.utf8ByteSize + 7 + (digits stamp.process.toNat).length +
        (digits stamp.serial.toNat).length := by
  have hpoint : ".".utf8ByteSize = 1 := rfl
  have hletters : ".tmp.".utf8ByteSize = 5 := rfl
  simp only [temporaryText, String.utf8ByteSize_append, utf8ByteSize_digits, hpoint, hletters]
  omega

/-- The entry of a key with neither a zero character nor a slash in it can be looked for. -/
theorem isPossible_entryName (hzero : Char.ofNat 0 ∉ key.toList) (hslash : '/' ∉ key.toList) :
    Folder.isImpossible (entryName key) = false := by
  have hsize := utf8ByteSize_entryText key
  have hletters : ".json".toList = ['.', 'j', 's', 'o', 'n'] := rfl
  apply isImpossible_toByteArray (by omega)
  · simpa [entryText, hletters] using hzero
  · simpa [entryText, hletters] using hslash

theorem isPossible_temporaryName {stamp : Stamp} (hzero : Char.ofNat 0 ∉ key.toList)
    (hslash : '/' ∉ key.toList) : Folder.isImpossible (temporaryName key stamp) = false := by
  have hsize := utf8ByteSize_temporaryText key stamp
  have hmark {c : Char} (hc : c.isDigit = false) (n : Nat) : c ∉ digits n := fun hmem => by
    rw [Nat.isDigit_of_mem_toDigits (by decide) (by decide) hmem] at hc
    cases hc
  have hpoint : ".".toList = ['.'] := rfl
  have hletters : ".tmp.".toList = ['.', 't', 'm', 'p', '.'] := rfl
  apply isImpossible_toByteArray (by omega)
  · simpa [temporaryText, hpoint, hletters, hmark (c := Char.ofNat 0) rfl] using hzero
  · simpa [temporaryText, hpoint, hletters, hmark (c := '/') rfl] using hslash

/-! ## Keys of ordinary form -/

/-- A key that stays in the folder, is not hidden, and leaves room in its names for what the
queue adds to them. -/
structure IsPlainKey (key : String) : Prop where
  nonempty : key ≠ ""
  short : key.utf8ByteSize ≤ 200
  shown : key.toList.head? ≠ some '.'
  slash : '/' ∉ key.toList
  backslash : '\\' ∉ key.toList
  points : ¬['.', '.'] <:+: key.toList
  zero : Char.ofNat 0 ∉ key.toList

theorem IsPlainKey.isSafeKey (hplain : IsPlainKey key) : isSafeKey key.toList = true :=
  isSafeKey_iff.mpr ⟨fun hnil => hplain.nonempty (String.toList_eq_nil_iff.mp hnil), hplain.shown,
    hplain.slash, hplain.backslash, hplain.points⟩

theorem IsPlainKey.isReadable (hplain : IsPlainKey key) : IsReadable key := by
  have hsize := utf8ByteSize_entryText key
  have hshort := hplain.short
  have hroom : (entryText key).utf8ByteSize ≤ nameLimit := by
    have : 205 ≤ nameLimit := by decide
    omega
  refine ⟨hplain.isSafeKey, isPossible_entryName hplain.zero hplain.slash, ?_⟩
  rw [entryName, String.size_toByteArray]
  exact hroom

/-- Whatever process writes it and whatever its number, the temporary file of a plain key has
a name that files can have. -/
theorem IsPlainKey.temporaryName (hplain : IsPlainKey key) (stamp : Stamp) :
    Folder.isImpossible (temporaryName key stamp) = false ∧
      (temporaryName key stamp).size ≤ nameLimit := by
  have hshort := hplain.short
  have hprocess : (digits stamp.process.toNat).length ≤ 10 :=
    (Nat.length_toDigits_le_iff (by decide) (by decide)).mpr
      (Nat.lt_trans stamp.process.toNat_lt (by decide))
  have hserial : (digits stamp.serial.toNat).length ≤ 20 :=
    (Nat.length_toDigits_le_iff (by decide) (by decide)).mpr
      (Nat.lt_trans stamp.serial.toNat_lt (by decide))
  have hsize := utf8ByteSize_temporaryText key stamp
  have hroom : (temporaryText key stamp).utf8ByteSize ≤ nameLimit := by
    have : 237 ≤ nameLimit := by decide
    omega
  refine ⟨isPossible_temporaryName hplain.zero hplain.slash, ?_⟩
  rw [Queue.temporaryName, String.size_toByteArray]
  exact hroom

end Scorekeeper.Queue
