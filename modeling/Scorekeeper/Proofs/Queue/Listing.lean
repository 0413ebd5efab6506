import Scorekeeper.Proofs.Queue.Calls

/-!
# Which files are entries

Four calls decide which names are those of entries: one writes an entry under a suffix, one
lists the keys, one reads the suffix off a key, and one reads the entry of a key.  The first and
the last refuse keys that might lead out of the folder, the other two ask for a suffix that is
not empty, and neither pair looks at what the other asks for.  So a payload can be put where it
is never listed, and a file that is listed need not be readable.  This file says when.
-/

namespace Scorekeeper.Files.Folder

/-- What a real folder is like whose files all hold texts. -/
structure IsLegible (folder : Folder) : Prop where
  unblocked : folder ≠ .blocked
  possible : ∀ name node, folder.get? name = some node →
    isImpossible name = false ∧ name.size ≤ nameLimit
  texts : ∀ name node, folder.get? name = some node →
    ∃ text : String, node = .file text.toByteArray

end Scorekeeper.Files.Folder

namespace Scorekeeper.Queue

open Files

variable {base suffix key : String} {folder : Folder}

/-! ## Keys that are refused -/

/-- A suffix for which a key is not refused. -/
structure IsTame (suffix : String) : Prop where
  start : suffix.toList.head? ≠ some '.'
  slash : '/' ∉ suffix.toList
  backslash : '\\' ∉ suffix.toList
  points : ¬['.', '.'] <:+: suffix.toList

/-- Two points in a row behind a text without points: they stand in what follows the first point,
or begin with it. -/
theorem points_infix_iff {front back : List Char} (hfront : '.' ∉ front) :
    ['.', '.'] <:+: front ++ '.' :: back ↔ back.head? = some '.' ∨ ['.', '.'] <:+: back := by
  induction front with
  | nil =>
      rw [List.nil_append, List.infix_cons_iff, List.cons_prefix_cons, and_iff_right rfl]
      cases back with
      | nil => simp
      | cons next back =>
          rw [List.cons_prefix_cons, and_iff_left List.nil_prefix, List.head?_cons,
            Option.some.injEq, eq_comm]
  | cons c front ih =>
      rw [List.mem_cons, not_or] at hfront
      rw [List.cons_append, List.infix_cons_iff, List.cons_prefix_cons, ← ih hfront.2]
      exact or_iff_right fun h => hfront.1 h.1

theorem isSafeKey_keyFor_iff (hbase : isBaseKey base.toList = true) :
    isSafeKey (keyFor base suffix).toList = true ↔ IsTame suffix := by
  have hpoint : '.' ∉ base.toList := notMem_of_isBaseKey hbase (by decide)
  have hslash : '/' ∉ base.toList := notMem_of_isBaseKey hbase (by decide)
  have hbackslash : '\\' ∉ base.toList := notMem_of_isBaseKey hbase (by decide)
  have hnonempty : base.toList ≠ [] := by
    intro hnil
    rw [hnil] at hbase
    cases hbase
  have hhead : (base.toList ++ '.' :: suffix.toList).head? ≠ some '.' := by
    rw [List.head?_append_of_ne_nil _ hnonempty]
    exact fun h => hpoint (List.mem_of_head? h)
  rw [toList_keyFor, isSafeKey_iff, points_infix_iff hpoint, not_or]
  simp only [List.mem_append, List.mem_cons, hslash, hbackslash, false_or]
  constructor
  · rintro ⟨-, -, hslash, hbackslash, hstart, hpoints⟩
    exact ⟨hstart, fun h => hslash (.inr h), fun h => hbackslash (.inr h), hpoints⟩
  · rintro ⟨hstart, hslash, hbackslash, hpoints⟩
    exact ⟨List.append_ne_nil_of_left_ne_nil hnonempty _, hhead,
      fun h => hslash (h.resolve_left (by decide)),
      fun h => hbackslash (h.resolve_left (by decide)), hstart, hpoints⟩

/-! ## What is put, listed and read -/

/-- A payload is listed once it has been put, unless its suffix is empty; and what is listed can be
read, unless its key is refused. -/
structure ListsEntries (base : String) : Prop where
  put : ∀ (suffix payload : String) (stamp : Stamp) (chances : Put.Chances) (before after : Folder)
    (key : String),
    (Put.mk (keyFor base suffix) payload stamp).run chances before = (.ok key, after) →
      (∃ listed, keys .fine base after = .ok listed ∧ (key ∈ listed ↔ suffix ≠ "")) ∧
        (suffixOf base key = some suffix ↔ suffix ≠ "") ∧ get .fine key after = .ok (some payload)
  listed : ∀ folder : Folder, folder.IsLegible →
    ∃ listed, keys .fine base folder = .ok listed ∧ size .fine base folder = .ok listed.length ∧
      ∀ key ∈ listed, ∃ suffix content, suffixOf base key = some suffix ∧
        folder.get? (entryName key) = some (.file content.toByteArray) ∧
        (get .fine key folder = .ok (some content) ↔ IsTame suffix) ∧
        (get .fine key folder = .error (.invalidKey key) ↔ ¬IsTame suffix)

/-- An entry that holds a payload is listed if its suffix is not empty. -/
theorem mem_keys_of_holds {payload : String} (hholds : Holds folder (keyFor base suffix) payload)
    {listed : List String} (hlisted : keys .fine base folder = .ok listed) :
    keyFor base suffix ∈ listed ↔ suffix ≠ "" := by
  have hfile := (holds_iff.mp hholds).2
  rw [mem_keys_iff hlisted, hfile]
  constructor
  · rintro ⟨-, other, hne, hkey⟩
    rwa [keyFor_injective hkey]
  · exact fun hne => ⟨rfl, suffix, hne, rfl⟩

/-- A file of a legible folder is read as the entry that it is, or refused for its key. -/
theorem get_of_isLegible (hlegible : folder.IsLegible) {content : String}
    (hfile : folder.get? (entryName key) = some (.file content.toByteArray)) :
    get .fine key folder =
      if isSafeKey key.toList then .ok (some content) else .error (.invalidKey key) := by
  by_cases hsafe : isSafeKey key.toList = true
  · have hreadable : IsReadable key := ⟨hsafe, hlegible.possible _ _ hfile⟩
    rw [if_pos hsafe]
    exact get_eq_some_iff.mpr ⟨rfl, hreadable, hfile⟩
  · rw [get, if_neg hsafe, if_neg hsafe]

theorem listsEntries (hbase : isBaseKey base.toList = true) : ListsEntries base where
  put := by
    intro suffix payload stamp chances before after key hrun
    obtain ⟨hanswer, hholds, -⟩ | ⟨error, hanswer, -⟩ :=
      (Put.mk (keyFor base suffix) payload stamp).run_cases chances before
    · rw [hrun] at hanswer hholds
      cases hanswer
      have hopen : after ≠ .blocked := by
        rintro rfl
        have hfile := (holds_iff.mp hholds).2
        cases hfile
      obtain ⟨listed, hlisted⟩ := exists_keys base hopen
      refine ⟨⟨listed, hlisted, mem_keys_of_holds hholds hlisted⟩, ?_, hholds⟩
      rw [suffixOf_eq_some_iff]
      exact and_iff_right rfl
    · rw [hrun] at hanswer
      cases hanswer
  listed := by
    intro folder hlegible
    obtain ⟨listed, hlisted⟩ := exists_keys base hlegible.unblocked
    refine ⟨listed, hlisted, by rw [size, hlisted]; rfl, ?_⟩
    intro key hmem
    obtain ⟨hfile, suffix, hne, rfl⟩ := (mem_keys_iff hlisted).mp hmem
    obtain ⟨node, hnode⟩ := Option.isSome_iff_exists.mp hfile
    obtain ⟨content, rfl⟩ := hlegible.texts _ _ hnode
    have hget := get_of_isLegible hlegible hnode
    have hsuffix : suffixOf base (keyFor base suffix) = some suffix :=
      suffixOf_eq_some_iff.mpr ⟨rfl, hne⟩
    by_cases htame : IsTame suffix
    · rw [if_pos ((isSafeKey_keyFor_iff hbase).mpr htame)] at hget
      rw [hget]
      exact ⟨suffix, content, hsuffix, hnode, iff_of_true rfl htame,
        iff_of_false nofun (not_not.mpr htame)⟩
    · rw [if_neg (mt (isSafeKey_keyFor_iff hbase).mp htame)] at hget
      rw [hget]
      exact ⟨suffix, content, hsuffix, hnode, iff_of_false nofun htame, iff_of_true rfl htame⟩

theorem listsEntries_scorecard :
    isBaseKey "scorecard".toList = true ∧ ListsEntries "scorecard" ∧ IsTame "a.b" ∧
      ¬IsTame "a..b" := by
  have hbase : isBaseKey "scorecard".toList = true := by decide
  refine ⟨hbase, listsEntries hbase, ?_, ?_⟩
  · rw [← isSafeKey_keyFor_iff hbase]
    decide
  · rw [← isSafeKey_keyFor_iff hbase]
    decide

/-! ## Odd names -/

/-- A folder with one file. -/
def oneFile (name content : String) : Folder :=
  .present (Entries.empty.put name.toByteArray (.file content.toByteArray))

theorem isLegible_oneFile {name : String} (content : String)
    (hname : Folder.isImpossible name.toByteArray = false ∧ name.toByteArray.size ≤ nameLimit) :
    (oneFile name content).IsLegible where
  unblocked := nofun
  possible := by
    intro other node hnode
    rw [oneFile, Folder.get?, Entries.get?_put] at hnode
    split at hnode
    · next hsame => rwa [hsame]
    · cases hnode
  texts := by
    intro other node hnode
    rw [oneFile, Folder.get?, Entries.get?_put] at hnode
    split at hnode
    · cases hnode
      exact ⟨content, rfl⟩
    · cases hnode

/-- What is put is listed, and what is listed can be read. -/
structure ListsAllEntries (base : String) : Prop where
  put : ∀ (suffix payload : String) (stamp : Stamp) (chances : Put.Chances) (before after : Folder)
    (key : String),
    (Put.mk (keyFor base suffix) payload stamp).run chances before = (.ok key, after) →
      (∃ listed, keys .fine base after = .ok listed ∧ key ∈ listed) ∧
        suffixOf base key = some suffix
  listed : ∀ (folder : Folder) (listed : List String), folder.IsLegible →
    keys .fine base folder = .ok listed →
      ∀ key ∈ listed, (∃ suffix, suffixOf base key = some suffix) ∧
        ∃ content, folder.get? (entryName key) = some (.file content.toByteArray) ∧
          get .fine key folder = .ok (some content)

def emptySuffix : Put where
  key := keyFor "scorecard" ""
  payload := "v"
  stamp := ⟨1, 0⟩

/-- The listing passes over a payload that was just put, and shows a key that is refused. -/
theorem not_listsAllEntries_oddNames :
    (emptySuffix.run .fine .absent).1 = .ok "scorecard." ∧
      keys .fine "scorecard" (emptySuffix.run .fine .absent).2 = .ok [] ∧
      suffixOf "scorecard" "scorecard." = none ∧
      (oneFile "scorecard.a..b.json" "x").IsLegible ∧
      keys .fine "scorecard" (oneFile "scorecard.a..b.json" "x") = .ok ["scorecard.a..b"] ∧
      get .fine "scorecard.a..b" (oneFile "scorecard.a..b.json" "x") =
        .error (.invalidKey "scorecard.a..b") ∧
      ¬ListsAllEntries "scorecard" := by
  have hlegible : (oneFile "scorecard.a..b.json" "x").IsLegible :=
    isLegible_oneFile "x" (by decide +kernel)
  have hkeys : keys .fine "scorecard" (oneFile "scorecard.a..b.json" "x") =
      .ok ["scorecard.a..b"] := by
    rfl
  have hget : get .fine "scorecard.a..b" (oneFile "scorecard.a..b.json" "x") =
      .error (.invalidKey "scorecard.a..b") := by
    rfl
  refine ⟨by rfl, by rfl, by decide, hlegible, hkeys, hget, fun hall => ?_⟩
  obtain ⟨-, content, -, hread⟩ :=
    hall.listed _ _ hlegible hkeys "scorecard.a..b" List.mem_cons_self
  rw [hget] at hread
  cases hread

end Scorekeeper.Queue
