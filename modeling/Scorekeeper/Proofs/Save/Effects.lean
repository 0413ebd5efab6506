import Mathlib.Data.List.Induction
import Scorekeeper.Proofs.Save.Sweeps

/-!
# The effect of one pass

What a pass has done when it has ended follows from the last of its positions.  The report
counts what the store answered; the queue keeps what the store did not take and what could
not be read; and the retry timer is armed anew exactly if something failed.
-/

namespace Scorekeeper.Save.Sweep

open Queue Remote Files

variable {n : Nat}

/-- A report tells how the uploads under some keys went, and how many could not be read. -/
structure Counts (sweep : Sweep n) (keys : List String) (report : Report) : Prop where
  uploaded : report.uploaded = (keys.filterMap sweep.upload?).countP fun upload => upload.accepted
  skipped : report.skipped = 0
  failed : report.failed =
    ((keys.filterMap sweep.upload?).countP fun upload => !upload.accepted) +
      keys.countP fun key => (sweep.payload? key).isNone

/-- How a pass that has ended by some time leaves its session.  A failure arms the timer for
another pass, and without one the timer is as it was. -/
structure Settles (sweep : Sweep n) (report : Report) (now : Nat) (session : Session) :
    Prop where
  failed : 0 < report.failed →
    session.status = .queued ∧ session.isArmed = true ∧
      ∃ time, sweep.start.now ≤ time ∧ time ≤ now ∧
        session.alarm = sweep.before.alarm.schedule (time + sweep.before.interval)
  clear : report.failed = 0 →
    session.alarm = sweep.before.alarm ∧
      session.status = if sweep.before.isArmed then .queued else .idle

/-- The effect of a pass over the keys listed.  What is uploaded under a key is what its entry
holds. -/
structure HasSwept (sweep : Sweep n) (listed : List String) (world : World n)
    (report : Report) : Prop where
  members : ∀ key, key ∈ listed ↔
    (sweep.start.folder.get? (entryName key)).isSome = true ∧
      ∃ suffix, suffix ≠ "" ∧ key = keyFor sweep.before.base suffix
  ascending : IsAscending listed
  payloads : ∀ key payload, sweep.payload? key = some payload ↔
    sweep.read key = .fine ∧ IsReadable key ∧
      sweep.start.folder.get? (entryName key) = some (.file payload.toByteArray)
  uploads : world.uploads = sweep.start.uploads ++ listed.filterMap sweep.upload?
  documents : world.documents =
    storedAfter sweep.start.documents (listed.filterMap sweep.upload?)
  remaining : keys .fine sweep.before.base world.folder =
    .ok (listed.filter fun key => !sweep.isTaken key)
  taken : ∀ key ∈ listed, sweep.isTaken key = true → world.folder.get? (entryName key) = none
  kept : ∀ name, (∀ key ∈ listed, sweep.isTaken key = true → name ≠ entryName key) →
    world.folder.get? name = sweep.start.folder.get? name
  counts : sweep.Counts listed report

/-- The effect of a pass that could not list the keys. -/
structure IsTurnedAway (sweep : Sweep n) (world : World n) (report : Report) : Prop where
  folder : world.folder = sweep.start.folder
  uploads : world.uploads = sweep.start.uploads
  documents : world.documents = sweep.start.documents
  report : report = ⟨0, 0, 1⟩

variable {sweep : Sweep n} {listed : List String} {key payload : String} {world : World n}
  {report : Report} {position : Position}

/-! ## At the end of the keys -/

theorem payload?_eq_some_iff : sweep.payload? key = some payload ↔
    sweep.read key = .fine ∧ IsReadable key ∧
      sweep.start.folder.get? (entryName key) = some (.file payload.toByteArray) := by
  rw [← get_eq_some_iff]
  refine ⟨get_of_payload?, fun hget => ?_⟩
  rw [payload?, hget]

/-- The count of some of the listed keys, each of which is uploaded if it is read. -/
theorem counts_tally (hlisted : sweep.listed = .ok listed) {keys : List String}
    (hkeys : ∀ key ∈ keys, key ∈ listed) : sweep.Counts keys (sweep.tally keys) := by
  induction keys using List.reverseRecOn with
  | nil => exact ⟨rfl, rfl, rfl⟩
  | append_singleton keys key ih =>
      obtain ⟨huploaded, hskipped, hfailed⟩ :=
        ih fun other hmem => hkeys other (List.mem_append_left _ hmem)
      have hmem : key ∈ listed := hkeys key (by simp)
      cases hpayload : sweep.payload? key with
      | none =>
          rw [tally_kept (isTaken_of_unread hpayload)]
          have hupload := upload?_of_unread hpayload
          constructor
          · simpa [Report.addFailed, hupload] using huploaded
          · exact hskipped
          · simp [Report.addFailed, hupload, hpayload, hfailed, Nat.add_assoc]
      | some payload =>
          have hupload := upload?_of_payload? hlisted hmem hpayload
          have htaken := isTaken_eq hpayload
          cases haccepted : (sweep.answer key).isOk with
          | true =>
              rw [haccepted] at htaken hupload
              rw [tally_taken htaken]
              constructor
              · simp [Report.addUploaded, hupload, huploaded]
              · exact hskipped
              · simpa [Report.addUploaded, hupload, hpayload] using hfailed
          | false =>
              rw [haccepted] at htaken hupload
              rw [tally_kept htaken]
              constructor
              · simpa [Report.addFailed, hupload] using huploaded
              · exact hskipped
              · simp [Report.addFailed, hupload, hpayload, hfailed, Nat.add_right_comm]

theorem Lacks.keys_eq (hlacks : sweep.Lacks listed world.folder)
    (hlisted : sweep.listed = .ok listed) :
    keys .fine sweep.before.base world.folder =
      .ok (listed.filter fun key => !sweep.isTaken key) := by
  have hopen : world.folder ≠ .blocked := by
    intro hblocked
    rw [Sweep.listed, hlacks.stands.blocked.mp hblocked] at hlisted
    cases hlist : sweep.list <;> rw [hlist] at hlisted <;> cases hlisted
  obtain ⟨left, hleft⟩ := exists_keys sweep.before.base hopen
  have hsame : left = listed.filter fun key => !sweep.isTaken key := by
    apply (isAscending_keys hleft).eq_of_mem_iff ((isAscending_listed hlisted).filter _)
    intro key
    rw [mem_keys_iff hleft, List.mem_filter, mem_listed_iff hlisted]
    by_cases hgone : entryName key ∈ sweep.goneNames listed
    · have htaken := (mem_goneNames_iff.mp hgone).2
      simp [hlacks.gone _ hgone, htaken]
    · rw [hlacks.kept _ hgone]
      refine ⟨fun hmem => ⟨hmem, ?_⟩, And.left⟩
      have huntaken := mt mem_goneNames_iff.mpr hgone
      rw [mem_listed_iff hlisted] at huntaken
      simpa using fun htaken => huntaken ⟨hmem, htaken⟩
  rw [hleft, hsame]

theorem IsAt.hasSwept (hat : sweep.IsAt (.between listed []) world) :
    sweep.HasSwept listed world (sweep.tally listed) := by
  have hlisted : sweep.listed = .ok listed := by
    have hamong : sweep.listed = .ok (listed ++ []) := hat.among
    rwa [List.append_nil] at hamong
  exact
    { members := fun key => mem_listed_iff hlisted
      ascending := isAscending_listed hlisted
      payloads := fun key payload => payload?_eq_some_iff
      uploads := hat.sent.1
      documents := hat.sent.2
      remaining := hat.folder.keys_eq hlisted
      taken := fun key hmem htaken =>
        hat.folder.gone _ (mem_goneNames_iff.mpr ⟨hmem, htaken⟩)
      kept := fun name hkept => by
        apply hat.folder.kept
        intro hgone
        obtain ⟨key, hmem, rfl⟩ := List.mem_map.mp hgone
        obtain ⟨hmem, htaken⟩ := List.mem_filter.mp hmem
        exact hkept key hmem htaken rfl
      counts := counts_tally hlisted fun key hmem => hmem }

theorem IsAt.isTurnedAway (hat : sweep.IsAt .unlisted world) :
    sweep.IsTurnedAway world Report.zero.addFailed where
  folder := hat.folder.untouched rfl
  uploads := hat.sent.1.trans (List.append_nil _)
  documents := hat.sent.2
  report := rfl

theorem Mans.settles {now : Nat} {session : Session} (hmans : sweep.Mans position now session)
    (hreport : sweep.report? position = some report) : sweep.Settles report now session := by
  rw [Mans, hreport] at hmans
  obtain ⟨time, hstart, htime, rfl⟩ := hmans
  constructor
  · intro hfailed
    rw [Session.endPass, if_pos hfailed]
    exact ⟨rfl, rfl, time, hstart, htime, rfl⟩
  · intro hclear
    rw [Session.endPass, if_neg (Nat.not_lt.mpr (Nat.le_of_eq hclear))]
    exact ⟨rfl, rfl⟩

/-! ## The last position -/

theorem report?_of_task (htask : sweep.task position = .passed report) :
    sweep.report? position = some report := by
  cases position with
  | unlisted =>
      cases htask
      rfl
  | between settled pending =>
      cases pending with
      | nil =>
          cases htask
          rfl
      | cons key rest => cases htask
  | _ => cases htask

theorem exists_report (hend : sweep.nextEvent? position = none) :
    ∃ report, sweep.task position = .passed report := by
  cases position with
  | unlisted => exact ⟨_, rfl⟩
  | between settled pending =>
      cases pending with
      | nil => exact ⟨_, rfl⟩
      | cons key rest => cases hend
  | _ => cases hend

/-- A pass comes to its end, and has one effect whenever it does. -/
theorem sweep_effect (sweep : Sweep n) :
    (∃ events report, sweep.IsRun sweep.begun events ∧
      (sweep.begun.run events).task? sweep.job = some (.passed report)) ∧
    ∀ events report, sweep.IsRun sweep.begun events →
      (sweep.begun.run events).task? sweep.job = some (.passed report) →
      sweep.Settles report (sweep.begun.run events).now
          ((sweep.begun.run events).sessions.get sweep.owner) ∧
        match sweep.listed with
        | .ok listed => sweep.HasSwept listed (sweep.begun.run events) report
        | .error _ => sweep.IsTurnedAway (sweep.begun.run events) report := by
  constructor
  · obtain ⟨events, position, hrun, hat, hend⟩ := (isAt_begun sweep).exists_end
    obtain ⟨report, hreport⟩ := exists_report hend
    exact ⟨events, report, hrun, by rw [hat.task?_eq, hreport]⟩
  · intro events report hrun hended
    obtain ⟨position, hat⟩ := (isAt_begun sweep).run hrun
    rw [hat.task?_eq, Option.some_inj] at hended
    have hreport := report?_of_task hended
    refine ⟨hat.session.settles hreport, ?_⟩
    cases position with
    | unlisted =>
        cases hreport
        obtain ⟨error, hlisted⟩ := hat.among
        rw [hlisted]
        exact hat.isTurnedAway
    | between settled pending =>
        cases pending with
        | nil =>
            cases hreport
            have hlisted : sweep.listed = .ok (settled ++ []) := hat.among
            rw [hlisted, List.append_nil]
            exact hat.hasSwept
        | cons key rest => cases hreport
    | _ => cases hreport

/-! ## A pass over a mixed folder -/

/-- Two cards, a folder and a broken text under the names of entries, and a file that is no
entry. -/
def mixedFolder : Folder :=
  .present
    { list := [("notes.txt".toByteArray, .file "keep".toByteArray),
        (entryName "queue.8-hhhhhh", .file "eighth".toByteArray),
        (entryName "queue.6-ffffff", .folder),
        (entryName "queue.5-eeeeee", .file "fifth".toByteArray),
        (entryName "queue.7-gggggg", .file ⟨#[0xff]⟩)]
      nodup := by decide }

/-- A timer is armed already, and the store takes one card only. -/
def mixedSweep : Sweep 1 where
  start := World.new mixedFolder #v[(Session.new "queue" 30000 7).schedule 0]
  owner := sole
  list := .fine
  read _ := .fine
  answer key := if key = "queue.5-eeeeee" then .ok () else .error (.unavailable "offline")

def mixedEvents : List (Event 1) :=
  [.file 0 .fine, .file 0 .fine, .answer 0 (.ok ()), .wait 40, .file 0 .fine, .file 0 .fine,
    .file 0 .fine, .file 0 .fine, .file 0 .fine, .answer 0 (.error (.unavailable "offline"))]

theorem luck_mixedSweep (task : Task) : mixedSweep.luck task = .fine := by
  cases task <;> rfl

theorem isRun_mixedEvents : mixedSweep.IsRun mixedSweep.begun mixedEvents := by
  have hfile (world : World 1) : mixedSweep.Allows world (.file 0 .fine) :=
    ⟨rfl, fun task _ => (luck_mixedSweep task).symm⟩
  refine ⟨hfile _, hfile _, ⟨rfl, ?_⟩, trivial, hfile _, hfile _, hfile _, hfile _, hfile _,
    ⟨rfl, ?_⟩, trivial⟩
  all_goals
    intro key suffix payload pass htask
    cases htask
    rfl

/-- One card is stored, and whatever else was there stays. -/
theorem sweep_effect_mixed :
    mixedSweep.IsRun mixedSweep.begun mixedEvents ∧
      (mixedSweep.begun.run mixedEvents).task? mixedSweep.job = some (.passed ⟨1, 0, 3⟩) ∧
      (mixedSweep.begun.run mixedEvents).uploads =
        [⟨"scorecard/5-eeeeee", "fifth", true⟩, ⟨"scorecard/8-hhhhhh", "eighth", false⟩] ∧
      keys .fine "queue" (mixedSweep.begun.run mixedEvents).folder =
        .ok ["queue.6-ffffff", "queue.7-gggggg", "queue.8-hhhhhh"] ∧
      (mixedSweep.begun.run mixedEvents).folder.get? "notes.txt".toByteArray =
        some (.file "keep".toByteArray) ∧
      ((mixedSweep.begun.run mixedEvents).sessions.get sole).status = .queued ∧
      ((mixedSweep.begun.run mixedEvents).sessions.get sole).isArmed = true := by
  have hended : (mixedSweep.begun.run mixedEvents).task? mixedSweep.job =
      some (.passed ⟨1, 0, 3⟩) := rfl
  have hlisted : mixedSweep.listed =
      .ok ["queue.5-eeeeee", "queue.6-ffffff", "queue.7-gggggg", "queue.8-hhhhhh"] := rfl
  obtain ⟨hsettles, hswept⟩ :=
    (sweep_effect mixedSweep).2 mixedEvents _ isRun_mixedEvents hended
  rw [hlisted] at hswept
  obtain ⟨hstatus, harmed, -⟩ := hsettles.failed (by decide)
  refine ⟨isRun_mixedEvents, hended, hswept.uploads, hswept.remaining, ?_, hstatus, harmed⟩
  apply hswept.kept
  decide

end Scorekeeper.Save.Sweep
