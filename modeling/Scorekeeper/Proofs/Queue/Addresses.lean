import Scorekeeper.Config
import Scorekeeper.Proofs.Card.Ids
import Scorekeeper.Proofs.Queue.Ordinary
import Scorekeeper.Save.Session

/-!
# Addresses of cards

A card is queued under a key that is made of the base in the configuration and of its id,
and it is stored at a path that is made of its id.  The base is checked when the
configuration is read, the id when it is parsed or issued, the key when a file is asked for,
and the name of a file when the folder is listed.  This file proves that the four checks fit
together: whatever the configuration says, every id has an address that no call refuses and
that no other id has.
-/

namespace Scorekeeper

open Text Files

namespace ScorecardId

variable (id : ScorecardId)

theorem notMem_text {mark : Char} (hdash : mark ≠ '-') (hmark : isSuffixChar mark = false) :
    mark ∉ id.text.toList := by
  intro hmem
  obtain heq | hchar := (isForm_of_isId id.wellFormed).eq_dash_or_isSuffixChar hmem
  · exact hdash heq
  · rw [hmark] at hchar
    cases hchar

theorem toList_text_ne_nil : id.text.toList ≠ [] := by
  intro hnil
  have hform := id.wellFormed
  rw [hnil] at hform
  cases hform

end ScorecardId

namespace Queue

variable {base : String}

/-- The file of a safe key is in the folder itself. -/
theorem notMem_entryText {key : String} (hsafe : isSafeKey key.toList = true) {mark : Char}
    (hmark : mark ∈ ['/', '\\']) : mark ∉ (entryText key).toList := by
  obtain ⟨-, -, hslash, hbackslash, -⟩ := isSafeKey_iff.mp hsafe
  rw [entryText, String.toList_append, List.mem_append, not_or]
  obtain rfl | rfl := List.mem_pair.mp hmark
  · exact ⟨hslash, by decide⟩
  · exact ⟨hbackslash, by decide⟩

/-! ## Calls that are not refused -/

/-- A call is refused for its key. -/
def IsRefusal {α : Type} (answer : Except QueueError α) : Prop :=
  ∃ key, answer = .error (.invalidKey key)

/-- Where a put has come to after steps between which others may have worked on the folder. -/
def Put.after (put : Put) (moments : List (Luck × Folder)) : Put.Stage :=
  moments.foldl (fun stage moment => (put.step moment.1 stage moment.2).1) put.init

/-- Where a removal has come to after steps between which others may have worked on the
folder. -/
def Removal.after (removal : Removal) (moments : List (Luck × Folder)) : Removal.Stage :=
  moments.foldl (fun stage moment => (removal.step moment.1 stage moment.2).1) .comparing

theorem Put.not_isRefusal_step {put : Put} {stage : Put.Stage} (luck : Luck) (folder : Folder)
    (hstage : ∀ answer, stage = .done answer → ¬IsRefusal answer) :
    ∀ answer, (put.step luck stage folder).1 = .done answer → ¬IsRefusal answer := by
  cases stage with
  | done answer => exact hstage
  | _ =>
      simp only [Put.step]
      intro answer hanswer hrefusal
      obtain ⟨key, rfl⟩ := hrefusal
      try split at hanswer
      all_goals cases hanswer

theorem Put.not_isRefusal_after {put : Put} (hsafe : isSafeKey put.key.toList = true)
    (moments : List (Luck × Folder)) :
    ∀ answer, put.after moments = .done answer → ¬IsRefusal answer := by
  have hinit : ∀ answer, put.init = .done answer → ¬IsRefusal answer := by
    rw [Put.init, if_pos hsafe]
    intro answer hdone
    cases hdone
  unfold Put.after
  generalize put.init = stage at hinit
  induction moments generalizing stage with
  | nil => exact hinit
  | cons moment moments ih => exact ih _ (not_isRefusal_step moment.1 moment.2 hinit)

theorem not_isRefusal_get {key : String} (hsafe : isSafeKey key.toList = true) (luck : Luck)
    (folder : Folder) : ¬IsRefusal (get luck key folder) := by
  rintro ⟨bad, hget⟩
  rw [get, if_pos hsafe] at hget
  split at hget <;> cases hget

theorem not_isRefusal_remove {key : String} (hsafe : isSafeKey key.toList = true) (luck : Luck)
    (folder : Folder) : ¬IsRefusal (remove luck key folder).1 := by
  rintro ⟨bad, hremove⟩
  rw [remove, if_pos hsafe] at hremove
  split at hremove <;> cases hremove

theorem Removal.not_isRefusal_step {removal : Removal} {stage : Removal.Stage}
    (hsafe : isSafeKey removal.key.toList = true) (luck : Luck) (folder : Folder)
    (hstage : ∀ answer, stage = .done answer → ¬IsRefusal answer) :
    ∀ answer, (removal.step luck stage folder).1 = .done answer → ¬IsRefusal answer := by
  cases stage with
  | done answer => exact hstage
  | comparing =>
      intro answer hanswer hrefusal
      simp only [Removal.step] at hanswer
      split at hanswer
      · next error hget =>
        cases hanswer
        obtain ⟨key, hkey⟩ := hrefusal
        cases hkey
        exact not_isRefusal_get hsafe luck folder ⟨key, hget⟩
      · obtain ⟨key, rfl⟩ := hrefusal
        split at hanswer <;> cases hanswer
  | deleting =>
      intro answer hanswer
      cases hanswer
      exact not_isRefusal_remove hsafe luck folder

theorem Removal.not_isRefusal_after {removal : Removal}
    (hsafe : isSafeKey removal.key.toList = true) (moments : List (Luck × Folder)) :
    ∀ answer, removal.after moments = .done answer → ¬IsRefusal answer := by
  have hinit : ∀ answer, Removal.Stage.comparing = .done answer → ¬IsRefusal answer := nofun
  unfold Removal.after
  generalize Removal.Stage.comparing = stage at hinit
  induction moments generalizing stage with
  | nil => exact hinit
  | cons moment moments ih => exact ih _ (not_isRefusal_step hsafe moment.1 moment.2 hinit)

end Queue

/-! ## The address of a card -/

open Queue Remote Save

/-- An id has an address that is fit for use and that no other id has. -/
structure HasOwnAddress (base : String) (id : ScorecardId) : Prop where
  safe : isSafeKey (keyFor base id.text).toList = true
  suffix : suffixOf base (keyFor base id.text) = some id.text
  inFolder : ∀ mark ∈ ['/', '\\'], mark ∉ (entryText (keyFor base id.text)).toList
  listed : ∀ entries : Entries, (entries.get? (entryName (keyFor base id.text))).isSome →
    ∃ found, keys .fine base (.present entries) = .ok found ∧ keyFor base id.text ∈ found
  segments : split '/' (DocumentKey.scorecard id.text).path.toList =
    ["scorecard".toList, id.text.toList]
  nonempty : id.text ≠ ""
  apart : ∀ userspace,
    (DocumentKey.scorecard id.text).path ≠ (DocumentKey.courses userspace).path
  unshared : ∀ other : ScorecardId, other ≠ id →
    keyFor base other.text ≠ keyFor base id.text ∧
      entryName (keyFor base other.text) ≠ entryName (keyFor base id.text) ∧
      (DocumentKey.scorecard other.text).path ≠ (DocumentKey.scorecard id.text).path
  /-- No call that a save makes for the card is refused, whoever acts between its steps. -/
  accepted : ∀ (session : Session) (snapshot : Snapshot) (stamp : Stamp)
      (moments : List (Luck × Folder)), session.base = base → snapshot.id = id →
    (∀ answer, (session.putOf snapshot stamp).after moments = .done answer →
        ¬IsRefusal answer) ∧
      ∀ answer, (session.removalOf snapshot).after moments = .done answer → ¬IsRefusal answer

theorem toList_path (key : DocumentKey) :
    key.path.toList = key.kind.segment.toList ++ '/' :: key.id.toList := by
  simp [DocumentKey.path]

theorem notMem_segment (kind : DocumentKind) : '/' ∉ kind.segment.toList := by
  cases kind <;> decide

/-- The two parts of a path can be told from it. -/
theorem path_injective {left right : DocumentKey} (heq : left.path = right.path) :
    left = right := by
  have hlist := congrArg String.toList heq
  rw [toList_path, toList_path] at hlist
  have hkind : left.kind = right.kind := by
    have hparts := congrArg (split '/') hlist
    rw [split_append_cons (notMem_segment _), split_append_cons (notMem_segment _)] at hparts
    obtain ⟨hsegment, -⟩ := List.cons.inj hparts
    revert hsegment
    cases left.kind <;> cases right.kind <;> simp [DocumentKind.segment]
  rw [hkind] at hlist
  have hid : left.id = right.id :=
    String.toList_inj.mp (List.cons.inj (List.append_cancel_left hlist)).2
  cases left
  cases right
  cases hkind
  cases hid
  rfl

theorem hasOwnAddress {base : String} (hbase : isBaseKey base.toList = true)
    (id : ScorecardId) : HasOwnAddress base id := by
  have hsafe : isSafeKey (keyFor base id.text).toList = true := by
    apply isSafeKey_keyFor hbase
    intro mark hmark
    simp only [List.mem_cons, List.not_mem_nil, or_false] at hmark
    obtain rfl | rfl | rfl := hmark <;> exact id.notMem_text (by decide) rfl
  have hnonempty : id.text ≠ "" := fun hempty =>
    id.toList_text_ne_nil (String.toList_eq_nil_iff.mpr hempty)
  have hsuffix : suffixOf base (keyFor base id.text) = some id.text :=
    suffixOf_eq_some_iff.mpr ⟨rfl, hnonempty⟩
  refine
    { safe := hsafe
      suffix := hsuffix
      nonempty := hnonempty
      inFolder := fun mark hmark => ?_
      listed := fun entries hentry => ?_
      segments := ?_
      apart := fun userspace heq => ?_
      unshared := fun other hother => ⟨fun heq => ?_, fun heq => ?_, fun heq => ?_⟩
      accepted := ?_ }
  · exact notMem_entryText hsafe hmark
  · have hfound : keys .fine base (.present entries) = .ok _ := rfl
    exact ⟨_, hfound, (mem_keys_iff hfound).mpr ⟨hentry, id.text, hnonempty, rfl⟩⟩
  · have hslash : '/' ∉ id.text.toList := id.notMem_text (by decide) rfl
    rw [toList_path, split_append_cons (notMem_segment _)]
    exact congrArg (List.cons _) (split_of_not_mem hslash)
  · cases path_injective heq
  · exact hother (ScorecardId.text_injective (keyFor_injective heq))
  · exact hother (ScorecardId.text_injective (keyFor_injective (entryName_injective heq)))
  · exact hother (ScorecardId.text_injective (congrArg DocumentKey.id (path_injective heq)))
  · rintro session snapshot stamp moments rfl rfl
    have hput : isSafeKey (session.putOf snapshot stamp).key.toList = true := hsafe
    have hremoval : isSafeKey (session.removalOf snapshot).key.toList = true := hsafe
    exact ⟨Put.not_isRefusal_after hput moments, Removal.not_isRefusal_after hremoval moments⟩

/-- Whatever the configuration file says, if there is one, every card has an address of its
own. -/
theorem hasOwnAddress_ofFile (content : Option ByteArray) (id : ScorecardId) :
    HasOwnAddress (Config.ofFile content).baseKey id :=
  hasOwnAddress (Config.ofFile content).baseKey_ok id

end Scorekeeper
