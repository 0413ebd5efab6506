import Mathlib.Data.List.Nodup
import Scorekeeper.Queue.Entry

/-!
# Names in the queue folder

The entries of a queue and the temporary files of its writers share one folder.
This file proves that their names keep apart: a key has one file, an id has one
key, a temporary file bears neither the name of an entry nor that of a file with
another serial number.  The listing of a queue is then described by its entries
alone.
-/

namespace Scorekeeper.Queue

open Text Files

theorem toList_keyFor (base suffix : String) :
    (keyFor base suffix).toList = base.toList ++ '.' :: suffix.toList := by
  simp [keyFor]

/-- A safe key stays in the folder and is not hidden. -/
theorem isSafeKey_iff {cs : List Char} :
    isSafeKey cs = true ↔
      cs ≠ [] ∧ cs.head? ≠ some '.' ∧ '/' ∉ cs ∧ '\\' ∉ cs ∧ ¬['.', '.'] <:+: cs := by
  simp [isSafeKey, ← hasDoubleDot_eq_true_iff, and_assoc]

theorem notMem_of_isBaseKey {base : String} (hbase : isBaseKey base.toList = true) {mark : Char}
    (hmark : mark ∈ ['/', '\\', '.']) : mark ∉ base.toList := by
  intro hmem
  simp only [isBaseKey, Bool.and_eq_true, List.all_eq_true] at hbase
  have hgood := hbase.2 mark hmem
  simp only [List.mem_cons, List.not_mem_nil, or_false] at hmark
  obtain rfl | rfl | rfl := hmark <;> simp at hgood

/-- A base and a suffix that hold neither slashes nor points make a safe key. -/
theorem isSafeKey_keyFor {base suffix : String} (hbase : isBaseKey base.toList = true)
    (hsuffix : ∀ mark ∈ ['/', '\\', '.'], mark ∉ suffix.toList) :
    isSafeKey (keyFor base suffix).toList = true := by
  have hpoint : '.' ∉ base.toList := notMem_of_isBaseKey hbase (by decide)
  have hnonempty : base.toList ≠ [] := by
    intro hnil
    rw [hnil] at hbase
    cases hbase
  have hmark (mark : Char) (hbarred : mark ∈ ['/', '\\', '.']) (hne : mark ≠ '.') :
      mark ∉ base.toList ++ '.' :: suffix.toList := by
    rw [List.mem_append, List.mem_cons, not_or, not_or]
    exact ⟨notMem_of_isBaseKey hbase hbarred, hne, hsuffix mark hbarred⟩
  -- the point between base and suffix is the only one
  have hpoints : ¬['.', '.'] <:+: base.toList ++ '.' :: suffix.toList := by
    intro hinfix
    have hone : ('.' :: suffix.toList).count '.' = 1 := by
      rw [List.count_cons_self, List.count_eq_zero.mpr (hsuffix '.' (by decide))]
    have hcount := hinfix.sublist.count_le '.'
    rw [List.count_append, List.count_eq_zero.mpr hpoint, hone] at hcount
    exact absurd hcount (by decide)
  rw [toList_keyFor, isSafeKey_iff, List.head?_append_of_ne_nil _ hnonempty]
  exact ⟨List.append_ne_nil_of_left_ne_nil hnonempty _, fun h => hpoint (List.mem_of_head? h),
    hmark '/' (by decide) (by decide), hmark '\\' (by decide) (by decide), hpoints⟩

theorem keyFor_injective {base left right : String}
    (heq : keyFor base left = keyFor base right) : left = right := by
  simpa [keyFor] using heq

theorem entryName_injective {left right : String}
    (heq : entryName left = entryName right) : left = right := by
  have htext : entryText left = entryText right := String.toByteArray_inj.mp heq
  simpa [entryText] using htext

theorem suffixOf_eq_some_iff {base key suffix : String} :
    suffixOf base key = some suffix ↔
      key = keyFor base suffix ∧ suffix ≠ "" := by
  have hkey (rest : List Char) :
      key.toList = (base ++ ".").toList ++ rest ↔
        key = keyFor base (.ofList rest) := by
    rw [← String.toList_inj]
    simp [keyFor]
  rw [suffixOf]
  split
  · next hdrop =>
    have hempty := (hkey []).mp (dropHead_eq_some_iff.mp hdrop)
    constructor
    · intro h
      cases h
    · rintro ⟨hsuffix, hne⟩
      exact absurd (keyFor_injective (hsuffix.symm.trans hempty)) hne
  · next rest hne hdrop =>
    have hrest := (hkey rest).mp (dropHead_eq_some_iff.mp hdrop)
    constructor
    · intro h
      cases h
      refine ⟨hrest, fun hnil => hne ?_⟩
      simpa using congrArg String.toList hnil
    · rintro ⟨hsuffix, -⟩
      rw [keyFor_injective (hsuffix.symm.trans hrest)]
  · next hdrop =>
    constructor
    · intro h
      cases h
    · rintro ⟨hsuffix, -⟩
      have hlist := (hkey suffix.toList).mpr (by simpa using hsuffix)
      rw [dropHead_eq_some_iff.mpr hlist] at hdrop
      cases hdrop

/-- Bytes are read as a text exactly when they are the bytes of that text. -/
theorem fromUTF8?_eq_some_iff {bytes : ByteArray} {text : String} :
    String.fromUTF8? bytes = some text ↔ bytes = text.toByteArray := by
  constructor
  · intro h
    rw [String.fromUTF8?] at h
    split at h
    · cases h
      rfl
    · cases h
  · rintro rfl
    exact dif_pos text.isValidUTF8

theorem keyOfName_eq_some_iff {name : FileName} {key : String} :
    keyOfName name = some key ↔ name = entryName key := by
  have hentry (text : String) :
      dropTail ".json".toList text.toList = some key.toList ↔
        text = entryText key := by
    rw [dropTail_eq_some_iff, ← String.toList_inj]
    simp [entryText]
  have hkey (rest : List Char) : String.ofList rest = key ↔ rest = key.toList := by
    rw [← String.toList_inj, String.toList_ofList]
  simp only [keyOfName, Option.bind_eq_some_iff, Option.map_eq_some_iff, hkey,
    fromUTF8?_eq_some_iff]
  constructor
  · rintro ⟨text, rfl, rest, hdrop, rfl⟩
    rw [(hentry text).mp hdrop]
    rfl
  · rintro rfl
    exact ⟨entryText key, rfl, key.toList, (hentry _).mpr rfl, rfl⟩

theorem listedKey_eq_some_iff {base key : String} {name : FileName} :
    listedKey base name = some key ↔
      name = entryName key ∧ ∃ suffix, suffix ≠ "" ∧ key = keyFor base suffix := by
  simp only [listedKey, Option.filter_eq_some_iff, keyOfName_eq_some_iff,
    Option.isSome_iff_exists, suffixOf_eq_some_iff, and_comm]

theorem exists_keys {folder : Folder} (base : String) (hopen : folder ≠ .blocked) :
    ∃ listed, keys .fine base folder = .ok listed := by
  cases folder with
  | absent => exact ⟨[], rfl⟩
  | blocked => exact absurd rfl hopen
  | present entries => exact ⟨_, rfl⟩

/-- The listing of a queue holds a key exactly when the key has a suffix and
there is an entry under it. -/
theorem mem_keys_iff {base key : String} {folder : Folder} {listed : List String}
    (hlisted : keys .fine base folder = .ok listed) :
    key ∈ listed ↔
      (folder.get? (entryName key)).isSome ∧
        ∃ suffix, suffix ≠ "" ∧ key = keyFor base suffix := by
  cases folder with
  | absent =>
      cases hlisted
      simp [Folder.get?]
  | blocked => cases hlisted
  | present entries =>
      simp only [keys, Folder.listNames, Except.ok.injEq] at hlisted
      subst hlisted
      simp only [Sorting.mem_sort, List.mem_filterMap, listedKey_eq_some_iff,
        Entries.mem_names_iff, Folder.get?]
      constructor
      · rintro ⟨name, hname, rfl, hsuffix⟩
        exact ⟨hname, hsuffix⟩
      · rintro ⟨hname, hsuffix⟩
        exact ⟨entryName key, hname, rfl, hsuffix⟩

theorem luck_of_keys {base : String} {folder : Folder} {luck : Luck} {listed : List String}
    (hlisted : keys luck base folder = .ok listed) : luck = .fine := by
  cases luck <;> cases folder <;> first | rfl | cases hlisted

theorem exists_suffix_of_mem_keys {base key : String} {folder : Folder} {luck : Luck}
    {listed : List String} (hlisted : keys luck base folder = .ok listed)
    (hmem : key ∈ listed) : ∃ suffix, suffixOf base key = some suffix := by
  cases luck_of_keys hlisted
  obtain ⟨-, suffix, hne, hkey⟩ := (mem_keys_iff hlisted).mp hmem
  exact ⟨suffix, suffixOf_eq_some_iff.mpr ⟨hkey, hne⟩⟩

/-- Bytes in ascending order, no two texts the same. -/
def IsAscending (texts : List String) : Prop :=
  texts.Pairwise fun left right => Sorting.textLe left right = true ∧ left ≠ right

/-- The listing of a queue is in ascending order. -/
theorem isAscending_keys {luck : Luck} {base : String} {folder : Folder}
    {listed : List String} (hlisted : keys luck base folder = .ok listed) :
    IsAscending listed := by
  rw [keys] at hlisted
  split at hlisted
  · next names hnames =>
    cases hlisted
    have hdistinct : names.Nodup := by
      cases folder with
      | present entries =>
          cases luck <;> cases hnames
          exact entries.nodup
      | _ => cases luck <;> cases hnames
    have hkeys : (names.filterMap (listedKey base)).Nodup := by
      apply List.Nodup.filterMap _ hdistinct
      intro left right key hleft hright
      rw [(listedKey_eq_some_iff.mp hleft).1, (listedKey_eq_some_iff.mp hright).1]
    have htotal (a b : String) : Sorting.textLe a b = true ∨ Sorting.textLe b a = true :=
      Sorting.bytesLe_total _ _
    have hsorted := Sorting.pairwise_sort htotal (fun _ _ _ => Sorting.bytesLe_trans)
      (names.filterMap (listedKey base))
    exact hsorted.and ((Sorting.sort_perm _ _).nodup_iff.mpr hkeys)
  · cases hlisted
    exact .nil
  · cases hlisted

/-- An entry ends in a letter and a temporary file in a digit, so no key at all is kept under
the name of a temporary file. -/
theorem entryName_ne_temporaryName (key other : String) (stamp : Stamp) :
    entryName key ≠ temporaryName other stamp := by
  intro heq
  have htext : entryText key = temporaryText other stamp := String.toByteArray_inj.mp heq
  have hlast := congrArg (fun text : String => text.toList.getLast?) htext
  have hjson : ".json".toList.getLast? = some 'n' := rfl
  have hdigits : digits stamp.serial.toNat ≠ [] := Nat.toDigits_ne_nil
  simp only [entryText, temporaryText, String.toList_append, String.toList_ofList,
    List.getLast?_append, hjson, List.getLast?_eq_some_getLast hdigits, Option.some_or,
    Option.some.injEq] at hlast
  have hletter : 'n' ∈ digits stamp.serial.toNat := hlast ▸ List.getLast_mem hdigits
  exact absurd (Nat.isDigit_of_mem_toDigits (by decide) (by decide) hletter) (by decide)

theorem point_not_mem_digits (n : Nat) : '.' ∉ digits n := fun hmem =>
  absurd (Nat.isDigit_of_mem_toDigits (by decide) (by decide) hmem) (by decide)

/-- What follows the last point of a text. -/
theorem eq_of_append_point {front back left right : List Char}
    (heq : front ++ ['.'] ++ left = back ++ ['.'] ++ right) (hleft : '.' ∉ left)
    (hright : '.' ∉ right) : left = right := by
  have hsplit (part rest : List Char) (hpart : '.' ∉ part) :
      (rest ++ ['.'] ++ part).reverse.takeWhile (· != '.') = part.reverse := by
    have hall : ∀ c ∈ part.reverse, (c != '.') = true := by
      intro c hmem
      rw [bne_iff_ne]
      rintro rfl
      exact hpart (List.mem_reverse.mp hmem)
    simp [List.takeWhile_append_of_pos hall]
  have hparts := congrArg (fun cs => cs.reverse.takeWhile (· != '.')) heq
  simp only [hsplit _ _ hleft, hsplit _ _ hright, List.reverse_inj] at hparts
  exact hparts

/-- No two writers share a temporary file. -/
theorem stamp_eq_of_temporaryName_eq {left right : String} {stamp other : Stamp}
    (heq : temporaryName left stamp = temporaryName right other) : stamp = other := by
  have htext : temporaryText left stamp = temporaryText right other :=
    String.toByteArray_inj.mp heq
  have hlist := congrArg String.toList htext
  simp only [temporaryText, String.toList_append, String.toList_ofList] at hlist
  have hserial := eq_of_append_point hlist (point_not_mem_digits _) (point_not_mem_digits _)
  rw [hserial] at hlist
  have hmark : ".tmp.".toList = ['.', 't', 'm', 'p'] ++ ['.'] := rfl
  have hfront := List.append_cancel_right (List.append_cancel_right hlist)
  rw [hmark, ← List.append_assoc, ← List.append_assoc (_ ++ right.toList)] at hfront
  have hprocess := eq_of_append_point hfront (point_not_mem_digits _) (point_not_mem_digits _)
  cases stamp
  cases other
  rw [Stamp.mk.injEq]
  exact ⟨UInt32.toNat_inj.mp (digits_injective hprocess),
    UInt64.toNat_inj.mp (digits_injective hserial)⟩

end Scorekeeper.Queue
