import Scorekeeper.Proofs.Save.Turns

/-!
# The two copies of a card

A card may have a copy in the queue and one in the store, and whoever looks for the card
takes the one in the queue first.  While tasks come in turn, a pass uploads what stands
in the entry and removes the entry only afterwards, so it never changes which payload is
found.  This file proves that, and says which payload a save leaves to be found.
-/

namespace Scorekeeper.Save

open Queue Remote Files

variable {base : String}

theorem lookup_putDocument_self (path text : String) (documents : List (String × String)) :
    (putDocument path text documents).lookup path = some text := by
  induction documents with
  | nil => simp [putDocument]
  | cons document documents ih =>
      obtain ⟨other, old⟩ := document
      by_cases hpath : other = path
      · simp [putDocument, hpath]
      · have hne : (path == other) = false := beq_eq_false_iff_ne.mpr fun heq => hpath heq.symm
        rw [putDocument, if_neg hpath, List.lookup_cons, hne]
        exact ih

theorem lookup_putDocument_of_ne {path other : String} (text : String)
    (documents : List (String × String)) (hne : other ≠ path) :
    (putDocument path text documents).lookup other = documents.lookup other := by
  induction documents with
  | nil => simp [putDocument, hne]
  | cons document documents ih =>
      obtain ⟨first, old⟩ := document
      by_cases hpath : first = path
      · subst hpath
        have hother : (other == first) = false := beq_eq_false_iff_ne.mpr hne
        rw [putDocument, if_pos rfl, List.lookup_cons, List.lookup_cons, hother]
      · rw [putDocument, if_neg hpath, List.lookup_cons, List.lookup_cons, ih]

theorem scorecard_path_injective {left right : String}
    (heq : (DocumentKey.scorecard left).path = (DocumentKey.scorecard right).path) :
    left = right := by
  simpa [DocumentKey.path, DocumentKey.scorecard] using heq

/-- How the task under way goes together with the two copies: a save that clears its
entry has its payload in the store, a pass uploads what stands in the entry, and it
removes the entry when the store has the same. -/
def Task.Agrees (base : String) (folder : Folder) (documents : List (String × String)) :
    Task → Prop
  | .clearing snapshot _ =>
      documents.lookup (DocumentKey.scorecard snapshot.id.text).path =
        some snapshot.payload
  | .resending key suffix payload _ => key = keyFor base suffix ∧ Holds folder key payload
  | .dropping key payload _ _ => ∃ suffix, key = keyFor base suffix ∧
      Holds folder key payload ∧
        documents.lookup (DocumentKey.scorecard suffix).path = some payload
  | _ => True

/-- The payload that is found for a card: the one in its entry, or else the one in the
store. -/
def Finds (base : String) (folder : Folder) (documents : List (String × String))
    (id : ScorecardId) (payload : String) : Prop :=
  Holds folder (keyFor base id.text) payload ∨
    (∀ other, ¬Holds folder (keyFor base id.text) other) ∧
      documents.lookup (DocumentKey.scorecard id.text).path = some payload

section Finds

variable {folder after : Folder} {documents later : List (String × String)}
  {id : ScorecardId} {payload : String}

theorem Finds.of_entry (hfinds : Finds base folder documents id payload)
    (hsame : after.get? (entryName (keyFor base id.text)) =
      folder.get? (entryName (keyFor base id.text))) :
    Finds base after documents id payload := by
  have hiff (text : String) : Holds after (keyFor base id.text) text ↔
      Holds folder (keyFor base id.text) text := by
    rw [holds_iff, holds_iff, hsame]
  rw [Finds]
  simp only [hiff]
  exact hfinds

/-- An upload leaves what is found as it is, if it is one of another card or of what
stands in the entry. -/
theorem Finds.of_upload {suffix text : String}
    (hfinds : Finds base folder documents id payload)
    (hheld : suffix = id.text → Holds folder (keyFor base id.text) text) :
    Finds base folder
      (putDocument (DocumentKey.scorecard suffix).path text documents) id payload := by
  by_cases howner : suffix = id.text
  · have hholds := hheld howner
    obtain hfound | ⟨hnone, -⟩ := hfinds
    · exact .inl hfound
    · exact absurd hholds (hnone text)
  · have hpath : (DocumentKey.scorecard id.text).path ≠
        (DocumentKey.scorecard suffix).path := fun heq =>
      howner (scorecard_path_injective heq).symm
    obtain hfound | ⟨hnone, hstored⟩ := hfinds
    · exact .inl hfound
    · rw [← lookup_putDocument_of_ne text documents hpath] at hstored
      exact .inr ⟨hnone, hstored⟩

/-- Taking an entry away leaves what is found as it is, if the store has the same. -/
theorem Finds.of_removed {text : String} (hfinds : Finds base folder documents id payload)
    (hholds : Holds folder (keyFor base id.text) text)
    (hstored : documents.lookup (DocumentKey.scorecard id.text).path = some text)
    (hgone : after.get? (entryName (keyFor base id.text)) = none) :
    Finds base after documents id payload := by
  have hsame : text = payload := by
    obtain hfound | ⟨hnone, -⟩ := hfinds
    · exact holds_unique hholds hfound
    · exact absurd hholds (hnone text)
  subst hsame
  right
  constructor
  · intro other hother
    have hentry := (holds_iff.mp hother).2
    rw [hgone] at hentry
    cases hentry
  · exact hstored

/-- When the store has the payload of a card and an entry that holds the same is to be
removed, either that payload is found afterwards or another one that the entry held. -/
theorem exists_finds_of_removal {removal : Removal}
    (hkey : removal.key = keyFor base id.text)
    (hstored : documents.lookup (DocumentKey.scorecard id.text).path = some removal.payload)
    (chances : Removal.Chances) :
    ∃ found, Finds base (removal.run chances folder).2 documents id found ∧
      ((Holds folder (keyFor base id.text) found ∧ found ≠ removal.payload) ∨
        found = removal.payload ∧
          ∀ other, Holds folder (keyFor base id.text) other → other = removal.payload) := by
  obtain ⟨-, hkept⟩ | ⟨-, hholds, hget⟩ := removal.run_cases chances folder
  · rw [hkept]
    by_cases hheld : ∃ other, Holds folder (keyFor base id.text) other
    · obtain ⟨other, hother⟩ := hheld
      refine ⟨other, .inl hother, ?_⟩
      by_cases hsame : other = removal.payload
      · exact .inr ⟨hsame, fun text htext => (holds_unique htext hother).trans hsame⟩
      · exact .inl ⟨hother, hsame⟩
    · have hnone (other : String) : ¬Holds folder (keyFor base id.text) other :=
        fun hother => hheld ⟨other, hother⟩
      exact ⟨removal.payload, .inr ⟨hnone, hstored⟩,
        .inr ⟨rfl, fun other hother => absurd hother (hnone other)⟩⟩
  · rw [hkey] at hholds hget
    have hfinds : Finds base folder documents id removal.payload := .inl hholds
    have hgone := (hget (entryName (keyFor base id.text))).trans (if_pos rfl)
    exact ⟨removal.payload, hfinds.of_removed hholds hstored hgone,
      .inr ⟨rfl, fun other hother => holds_unique hother hholds⟩⟩

end Finds

namespace Session

variable {session : Session} {now : Nat} {folder : Folder} {task : Task}
  {documents : List (String × String)} {uploads : List Upload}

theorem agrees_nextEntry (after : Folder) (report : Report) (keys : List String) :
    (session.nextEntry now report keys).2.Agrees base after documents := by
  obtain hend | ⟨suffix, rest, -, hnext⟩ := session.nextEntry_cases now report keys
  · rw [hend, task_endPass]
    trivial
  · rw [hnext]
    trivial

theorem agrees_afterUpload (hagrees : task.Agrees base folder documents) (stamp : Stamp)
    (result : Except StorageError Unit) {key : DocumentKey} {payload : String}
    (hupload : task.upload? = some (key, payload)) :
    (session.afterUpload now stamp result task).2.Agrees base folder
      (if result.isOk then putDocument key.path payload documents else documents) := by
  cases task with
  | uploading snapshot =>
      cases hupload
      cases result with
      | ok _ => exact lookup_putDocument_self _ _ _
      | error error =>
          obtain ⟨-, hkeeping⟩ | hlost :=
            session.afterUpload_error_cases now stamp error snapshot
          · rw [hkeeping]
            trivial
          · rw [hlost]
            trivial
  | resending entry suffix text pass =>
      cases hupload
      cases result with
      | ok _ =>
          obtain ⟨hkey, hholds⟩ := hagrees
          exact ⟨suffix, hkey, hholds, lookup_putDocument_self _ _ _⟩
      | error error => exact agrees_nextEntry folder _ _
  | _ => cases hupload

theorem agrees_callStep (hsound : task.IsSound base uploads)
    (hagrees : task.Agrees base folder documents) (chances : Chances) :
    (session.callStep now chances folder task).2.2.Agrees base
      (session.callStep now chances folder task).1 documents := by
  cases task with
  | clearing snapshot stage =>
      obtain ⟨rfl, -⟩ := hsound
      simp only [callStep, afterClearing, task_endSave]
      trivial
  | keeping snapshot stamp stage =>
      obtain ⟨rfl, -⟩ := hsound
      simp only [callStep, afterKeeping]
      split
      all_goals
        rw [task_endSave]
        trivial
  | listing =>
      simp only [callStep, fileStep, afterListing]
      split
      · exact agrees_nextEntry _ _ _
      · rw [task_endPass]
        trivial
  | reading key suffix pass =>
      simp only [callStep, fileStep, afterReading]
      split
      · next hget =>
        exact ⟨hsound, holds_iff.mpr (get_eq_some_iff.mp hget).2⟩
      · exact agrees_nextEntry _ _ _
      · exact agrees_nextEntry _ _ _
  | dropping key payload pass stage =>
      obtain ⟨rfl, -⟩ := hsound
      exact agrees_nextEntry _ _ _
  | counting =>
      simp only [callStep, fileStep, afterCounting]
      split <;> trivial
  | _ => exact hagrees

variable {id : ScorecardId} {found : String}

/-- Unless the store takes the upload of a save of the card, an answer leaves what is
found as it is. -/
theorem finds_afterUpload (hagrees : task.Agrees base folder documents) (stamp : Stamp)
    (result : Except StorageError Unit) {key : DocumentKey} {payload : String}
    (hupload : task.upload? = some (key, payload))
    (hfinds : Finds base folder documents id found) :
    Finds base folder
        (if result.isOk then putDocument key.path payload documents else documents)
        id found ∨
      ∃ text stage, (session.afterUpload now stamp result task).2 =
        .clearing ⟨id, text⟩ stage := by
  cases result with
  | error error => exact .inl hfinds
  | ok _ =>
      cases task with
      | uploading snapshot =>
          cases hupload
          by_cases howner : snapshot.id = id
          · subst howner
            exact .inr ⟨snapshot.payload, .comparing, rfl⟩
          · left
            apply hfinds.of_upload
            intro htext
            exact absurd (ScorecardId.text_injective htext) howner
      | resending entry suffix text pass =>
          cases hupload
          obtain ⟨rfl, hholds⟩ := hagrees
          left
          apply hfinds.of_upload
          intro hsuffix
          rw [← hsuffix]
          exact hholds
      | _ => cases hupload

/-- Unless a save of the card ends well, a call of the queue leaves what is found as it
is. -/
theorem finds_callStep (hbase : session.base = base)
    (hsound : task.IsSound base uploads) (hagrees : task.Agrees base folder documents)
    (chances : Chances)
    (hnone : ∀ text outcome, outcome ≠ .notQueued →
      (session.callStep now chances folder task).2.2 ≠ .saved ⟨id, text⟩ outcome)
    (hfinds : Finds base folder documents id found) :
    Finds base (session.callStep now chances folder task).1 documents id found := by
  cases task with
  | clearing snapshot stage =>
      obtain ⟨rfl, -⟩ := hsound
      have hother : id.text ≠ snapshot.id.text := by
        intro howner
        obtain rfl := ScorecardId.text_injective howner
        exact hnone snapshot.payload .saved nofun (task_endSave _ _ _ _)
      have hkey : (session.removalOf snapshot).key = keyFor base snapshot.id.text :=
        congrArg (keyFor · _) hbase
      obtain hsame | ⟨howner, -⟩ :=
        entry_removal_cases hkey chances.removal folder id.text
      · exact hfinds.of_entry hsame
      · exact absurd howner hother
  | keeping snapshot stamp stage =>
      obtain ⟨rfl, -⟩ := hsound
      have htemporary := entryName_ne_temporaryName (keyFor base id.text)
        (keyFor base snapshot.id.text) stamp
      obtain ⟨hqueued, -, hothers⟩ | ⟨-, hothers⟩ :=
        callStep_keeping_cases session now hbase chances folder stamp
      · have hentry : entryName (keyFor base id.text) ≠
            entryName (keyFor base snapshot.id.text) := by
          intro heq
          obtain rfl := ScorecardId.text_injective
            (keyFor_injective (entryName_injective heq))
          exact hnone snapshot.payload .queued nofun (congrArg Prod.snd hqueued)
        exact hfinds.of_entry (hothers _ hentry htemporary)
      · exact hfinds.of_entry (hothers _ htemporary)
  | dropping key payload pass stage =>
      obtain ⟨rfl, -⟩ := hsound
      obtain ⟨suffix, rfl, hholds, hstored⟩ := hagrees
      have hkey : (Removal.mk (keyFor base suffix) payload).key = keyFor base suffix := rfl
      obtain hsame | ⟨howner, -, hgone⟩ :=
        entry_removal_cases hkey chances.removal folder id.text
      · exact hfinds.of_entry hsame
      · subst howner
        exact hfinds.of_removed hholds hstored hgone
  | _ => exact hfinds

end Session

namespace World

variable {world : World 1} {event : Event 1}

/-- What holds of the copies while tasks come in turn. -/
structure IsCoherent (base : String) (world : World 1) : Prop
    extends world.IsSerial base where
  agrees : world.current.Agrees base world.folder world.documents

theorem isCoherent_new (base : String) (interval : Nat) (process : UInt32)
    (folder : Folder) :
    (World.alone base interval process folder).IsCoherent base where
  toIsSerial := isSerial_new base interval process folder
  agrees := trivial

theorem IsCoherent.step (hcoherent : world.IsCoherent base)
    (hadmits : world.Admits event) : (world.step event).IsCoherent base := by
  obtain ⟨hstride, hserial⟩ := hcoherent.toIsSerial.step hadmits
  refine ⟨hserial, ?_⟩
  clear hserial
  have hsound := hcoherent.sound.current
  have hagrees := hcoherent.agrees
  generalize world.step event = after at hstride ⊢
  cases hstride with
  | quiet folder documents status armed current =>
      rw [current, folder, documents]
      exact hagrees
  | save ended folder documents session current =>
      rw [current]
      trivial
  | pass ended folder documents current =>
      rw [current]
      trivial
  | resume ended folder documents session current =>
      rw [current]
      trivial
  | answer upload folder documents session current =>
      rw [current, folder, documents]
      exact Session.agrees_afterUpload hagrees _ _ upload
  | call running folder documents session current =>
      rw [current, folder, documents]
      exact Session.agrees_callStep hsound hagrees _

theorem IsCoherent.run (hcoherent : world.IsCoherent base) {events : List (Event 1)}
    (hturn : world.InTurn events) : (world.run events).IsCoherent base :=
  hturn.invariant (fun _ _ hadmits hworld => hworld.step hadmits) hcoherent

/-- The payload is found for the card, or it is about to be put in the place of another
one by a save that the store has taken. -/
def Settles (base : String) (world : World 1) (id : ScorecardId) (payload : String) :
    Prop :=
  Finds base world.folder world.documents id payload ∨
    ∃ text stage, world.current = .clearing ⟨id, text⟩ stage

/-- What is found for a card stays the same until a save of it ends well. -/
theorem IsCoherent.settles_step (hcoherent : world.IsCoherent base)
    (hadmits : world.Admits event) {id : ScorecardId} {payload : String}
    (hnone : ∀ text outcome, outcome ≠ .notQueued →
      ¬world.Ends event (.saved ⟨id, text⟩ outcome))
    (hsettles : world.Settles base id payload) :
    (world.step event).Settles base id payload := by
  obtain ⟨hstride, -⟩ := stride_step hcoherent.orderly hadmits
  have hsound := hcoherent.sound.current
  have hagrees := hcoherent.agrees
  have hbase : world.session.base = base := hcoherent.sound.bases 0
  unfold Ends at hnone
  generalize world.step event = after at hstride hnone ⊢
  have hfound (hended : world.current.isFinished = true) :
      Finds base world.folder world.documents id payload := by
    obtain hfinds | ⟨text, stage, hclearing⟩ := hsettles
    · exact hfinds
    · rw [hclearing] at hended
      cases hended
  cases hstride with
  | quiet folder documents status armed current =>
      rw [Settles]
      rw [folder, documents, current]
      exact hsettles
  | save ended folder documents session current =>
      left
      rw [folder, documents]
      exact hfound ended
  | pass ended folder documents current =>
      left
      rw [folder, documents]
      exact hfound ended
  | resume ended folder documents session current =>
      left
      rw [folder, documents]
      exact hfound ended
  | answer upload folder documents session current =>
      rw [Settles]
      rw [folder, documents, current]
      obtain hfinds | ⟨text, stage, hclearing⟩ := hsettles
      · exact Session.finds_afterUpload hagrees _ _ upload hfinds
      · rw [hclearing] at upload
        cases upload
  | @call job chances after running folder documents session current =>
      have hcall (text : String) (outcome : Outcome) (haccepted : outcome ≠ .notQueued) :
          (world.session.callStep world.now chances world.folder world.current).2.2 ≠
            .saved ⟨id, text⟩ outcome := by
        intro hsaved
        exact hnone text outcome haccepted ⟨running, current.trans hsaved⟩
      left
      rw [folder, documents]
      obtain hfinds | ⟨text, stage, hclearing⟩ := hsettles
      · exact Session.finds_callStep hbase hsound hagrees chances hcall hfinds
      · rw [hclearing] at hsound hcall
        obtain ⟨rfl, -⟩ := hsound
        exact absurd (Session.task_endSave _ _ _ _) (hcall text .saved nofun)

theorem IsCoherent.settles_run (hcoherent : world.IsCoherent base) {id : ScorecardId}
    {payload : String} {events : List (Event 1)} (hturn : world.InTurn events)
    (hnone : ∀ before event after, events = before ++ event :: after →
      ∀ text outcome, outcome ≠ .notQueued →
        ¬(world.run before).Ends event (.saved ⟨id, text⟩ outcome))
    (hsettles : world.Settles base id payload) :
    (world.run events).Settles base id payload := by
  have hstep (world : World 1) (event : Event 1) (hadmits : world.Admits event)
      (hnone : ∀ text outcome, outcome ≠ .notQueued →
        ¬world.Ends event (.saved ⟨id, text⟩ outcome))
      (hworld : world.IsCoherent base ∧ world.Settles base id payload) :
      (world.step event).IsCoherent base ∧ (world.step event).Settles base id payload :=
    ⟨hworld.1.step hadmits, hworld.1.settles_step hadmits hnone hworld.2⟩
  exact (hturn.invariant_of_allowed hnone hstep ⟨hcoherent, hsettles⟩).2

/-- A payload that outlives a save of its card: it stands in the entry when the save ends
well, and it is another one than the payload that was saved, which is all that the save
removes. -/
def Outlives (base : String) (world : World 1) (snapshot : Snapshot) (outcome : Outcome)
    (payload : String) : Prop :=
  outcome = .saved ∧ Holds world.folder (keyFor base snapshot.id.text) payload ∧
    payload ≠ snapshot.payload

/-- After a save that the store or the queue took, its payload is found for the card,
unless another one outlives it. -/
theorem IsCoherent.finds_of_ends (hcoherent : world.IsCoherent base)
    (hadmits : world.Admits event) {snapshot : Snapshot} {outcome : Outcome}
    (haccepted : outcome ≠ .notQueued)
    (hends : world.Ends event (.saved snapshot outcome)) :
    ∃ found,
      Finds base (world.step event).folder (world.step event).documents snapshot.id found ∧
        (world.Outlives base snapshot outcome found ∨
          found = snapshot.payload ∧ ∀ other, ¬world.Outlives base snapshot outcome other) := by
  obtain ⟨hrunning, hsaved⟩ := hends
  obtain ⟨hstride, -⟩ := stride_step hcoherent.orderly hadmits
  have hsound := hcoherent.sound.current
  have hagrees := hcoherent.agrees
  have hbase : world.session.base = base := hcoherent.sound.bases 0
  obtain ⟨stamp, result, upload, hupload, -, hmove⟩ | ⟨chances, hdocuments, hmove⟩ :=
    hstride.ends_cases hrunning (by rw [hsaved]; rfl)
  · have hnext := congrArg Prod.snd hmove
    simp only [hsaved] at hnext
    obtain hdone | ⟨-, hlost⟩ := Session.afterUpload_eq_saved _ _ hnext.symm
    · rw [hdone] at hrunning
      cases hrunning
    · exact absurd hlost haccepted
  · have hfolder := congrArg Prod.fst hmove
    have hnext := congrArg (·.2.2) hmove
    simp only [hsaved] at hfolder hnext
    rw [hfolder, hdocuments]
    clear hmove hfolder hdocuments
    obtain hdone | ⟨htask, rfl⟩ | ⟨stamp, htask⟩ :=
      Session.callStep_eq_saved _ _ hnext.symm
    · rw [hdone] at hrunning
      cases hrunning
    · rw [htask] at hagrees ⊢
      have hkey : (world.session.removalOf snapshot).key = keyFor base snapshot.id.text :=
        congrArg (keyFor · _) hbase
      obtain ⟨found, hfinds, ⟨hholds, hother⟩ | ⟨hsame, hnone⟩⟩ :=
        exists_finds_of_removal hkey hagrees chances.removal
      · exact ⟨found, hfinds, .inl ⟨rfl, hholds, hother⟩⟩
      · exact ⟨found, hfinds, .inr ⟨hsame, fun other houtlives =>
          houtlives.2.2 (hnone other houtlives.2.1)⟩⟩
    · rw [htask] at hsound hnext ⊢
      obtain ⟨hqueued, hholds, -⟩ | ⟨hlost, -⟩ :=
        Session.callStep_keeping_cases world.session world.now hbase chances
          world.folder stamp
      · rw [hqueued] at hnext
        cases hnext
        exact ⟨snapshot.payload, .inl hholds, .inr ⟨rfl, fun other houtlives =>
          nomatch houtlives.1⟩⟩
      · rw [hlost] at hnext
        cases hnext
        exact absurd rfl haccepted

end World

end Scorekeeper.Save
