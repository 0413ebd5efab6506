import Mathlib.Data.Finmap
import Scorekeeper.Proofs.Outcome
import Scorekeeper.Proofs.Queue.Ordinary

/-!
# The queue is a map

A ledger is a finite map from keys to payloads.  A history of calls is faithful to it
when every call that answers gives the answer of the ledger and changes the ledger the
way it says, while a call that fails leaves the ledger as it is.  Every history of the
calls of a queue that starts without a folder is faithful to the empty ledger, whatever
befalls the calls, and a call about a key of ordinary form fails only if the file system
does.
-/

namespace Scorekeeper.Queue

open Files

/-- A call of the queue, with what befalls it.  Calls of several processes, or of several
users of the folder in one process, differ in their stamps only. -/
inductive Call where
  | put (suffix payload : String) (stamp : Stamp) (chances : Put.Chances)
  | get (key : String) (luck : Luck)
  | remove (key : String) (luck : Luck)
  | removeIf (key payload : String) (chances : Removal.Chances)
  | keys (luck : Luck)
  | size (luck : Luck)
  | isEmpty (luck : Luck)

inductive Call.Reply where
  | stored (key : String)
  | found (payload : Option String)
  | removed (flag : Bool)
  | listed (keys : List String)
  | counted (number : Nat)
  | emptiness (flag : Bool)
  deriving DecidableEq, Repr

/-- A call and how it has ended. -/
abbrev Episode := Call × Except QueueError Call.Reply

/-- What a queue holds. -/
abbrev Ledger := Finmap fun _ : String => String

namespace Call

def run (base : String) (folder : Folder) : Call → Except QueueError Call.Reply × Folder
  | .put suffix payload stamp chances =>
    let (answer, folder) := (Put.mk (keyFor base suffix) payload stamp).run chances folder
    (answer.map .stored, folder)
  | .get key luck => ((Queue.get luck key folder).map .found, folder)
  | .remove key luck =>
    let (answer, folder) := Queue.remove luck key folder
    (answer.map .removed, folder)
  | .removeIf key payload chances =>
    let (answer, folder) := (Removal.mk key payload).run chances folder
    (answer.map .removed, folder)
  | .keys luck => ((Queue.keys luck base folder).map .listed, folder)
  | .size luck => ((Queue.size luck base folder).map .counted, folder)
  | .isEmpty luck => ((Queue.isEmpty luck base folder).map .emptiness, folder)

/-- The key that a call is about. -/
def key? (base : String) : Call → Option String
  | .put suffix _ _ _ => some (keyFor base suffix)
  | .get key _ | .remove key _ | .removeIf key _ _ => some key
  | _ => none

/-- Payloads are stored under suffixes that are not empty. -/
def HasSuffix : Call → Prop
  | .put suffix _ _ _ => suffix ≠ ""
  | _ => True

/-- The file system fails only where it must. -/
def IsFine : Call → Prop
  | .put _ _ _ chances => chances = .fine
  | .removeIf _ _ chances => chances = .fine
  | .get _ luck | .remove _ luck | .keys luck | .size luck | .isEmpty luck => luck = .fine

end Call

/-- Calls made one after the other on one folder, and how each has ended. -/
def history (base : String) : Folder → List Call → List Episode
  | _, [] => []
  | folder, call :: calls =>
    let (answer, folder) := call.run base folder
    (call, answer) :: history base folder calls

namespace Ledger

/-- What a map answers to a call. -/
def Answers (base : String) (ledger : Ledger) : Call → Call.Reply → Prop
  | .put suffix _ _ _, .stored key => key = keyFor base suffix
  | .get key _, .found payload => payload = ledger.lookup key
  | .remove key _, .removed flag => flag = true ↔ key ∈ ledger
  | .removeIf key payload _, .removed flag => flag = true ↔ ledger.lookup key = some payload
  | .keys _, .listed keys => IsAscending keys ∧ keys.toFinset = ledger.keys
  | .size _, .counted number => number = ledger.keys.card
  | .isEmpty _, .emptiness flag => flag = true ↔ ledger = ∅
  | _, _ => False

/-- What becomes of a map by a call that has answered. -/
def after (base : String) (ledger : Ledger) : Call → Ledger
  | .put suffix payload _ _ => ledger.insert (keyFor base suffix) payload
  | .remove key _ => ledger.erase key
  | .removeIf key payload _ =>
    if ledger.lookup key = some payload then ledger.erase key else ledger
  | _ => ledger

/-- The episodes are those of a map. -/
def IsFaithful (base : String) : Ledger → List Episode → Prop
  | _, [] => True
  | ledger, (call, .ok reply) :: rest =>
    ledger.Answers base call reply ∧ IsFaithful base (ledger.after base call) rest
  | ledger, (_, .error _) :: rest => IsFaithful base ledger rest

theorem keys_eq_empty_iff {ledger : Ledger} : ledger.keys = ∅ ↔ ledger = ∅ := by
  constructor
  · intro hkeys
    apply Finmap.ext_lookup
    intro key
    have hmissing : key ∉ ledger := by
      rw [← Finmap.mem_keys, hkeys]
      exact Finset.notMem_empty key
    rw [Finmap.lookup_eq_none.mpr hmissing, Finmap.lookup_empty]
  · rintro rfl
    exact Finmap.keys_empty

end Ledger

/-! ## Folders that hold a ledger -/

/-- The entries of the folder are the ledger, and all of them belong to the queue. -/
structure Keeps (base : String) (folder : Folder) (ledger : Ledger) : Prop where
  ordinary : folder.IsOrdinary
  entries : ∀ key, folder.get? (entryName key) =
    (ledger.lookup key).map fun payload => .file payload.toByteArray
  readable : ∀ key ∈ ledger, IsReadable key
  owned : ∀ key ∈ ledger, ∃ suffix, suffix ≠ "" ∧ key = keyFor base suffix

variable {base key payload suffix : String} {folder after : Folder} {ledger : Ledger}
  {luck : Luck}

theorem keeps_absent (base : String) (head : PathHead) : Keeps base (.absent head) ∅ where
  ordinary := Folder.isOrdinary_absent head
  entries key := by simp [Folder.get?]
  readable key hmem := absurd hmem Finmap.notMem_empty
  owned key hmem := absurd hmem Finmap.notMem_empty

namespace Keeps

theorem isSome_entry (hkeeps : Keeps base folder ledger) (key : String) :
    (folder.get? (entryName key)).isSome ↔ key ∈ ledger := by
  rw [hkeeps.entries, Option.isSome_map, Finmap.lookup_isSome]

theorem holds_iff (hkeeps : Keeps base folder ledger) :
    Holds folder key payload ↔ ledger.lookup key = some payload := by
  rw [Queue.holds_iff, hkeeps.entries, Option.map_eq_some_iff]
  constructor
  · rintro ⟨-, found, hfound, hsame⟩
    rw [hfound, String.toByteArray_inj.mp (Node.file.inj hsame)]
  · intro hlookup
    exact ⟨hkeeps.readable key (Finmap.mem_of_lookup_eq_some hlookup), payload, hlookup, rfl⟩

/-- Every lookup that answers gives what the ledger has. -/
theorem get_eq_ok (hkeeps : Keeps base folder ledger) {found : Option String}
    (hget : get luck key folder = .ok found) : found = ledger.lookup key := by
  rw [luck_of_get_eq_ok hget] at hget
  cases found with
  | some payload => exact (hkeeps.holds_iff.mp hget).symm
  | none =>
      cases hlookup : ledger.lookup key with
      | none => rfl
      | some payload =>
          have hholds := hkeeps.holds_iff.mpr hlookup
          rw [Holds, hget] at hholds
          cases hholds

/-- A key that files can have the name of is looked up without failure. -/
theorem get_fine (hkeeps : Keeps base folder ledger) (hreadable : IsReadable key) :
    ∃ found, get .fine key folder = .ok found := by
  cases hlookup : ledger.lookup key with
  | some payload => exact ⟨_, hkeeps.holds_iff.mpr hlookup⟩
  | none =>
      have hmissing : folder.get? (entryName key) = none := by
        rw [hkeeps.entries, hlookup]
        rfl
      exact ⟨none, get_of_missing hreadable hkeeps.ordinary.unblocked hmissing⟩

theorem toFinset_keys (hkeeps : Keeps base folder ledger) {listed : List String}
    (hlisted : keys luck base folder = .ok listed) : listed.toFinset = ledger.keys := by
  have hluck : luck = .fine := by
    cases luck with
    | fine => rfl
    | _ => cases folder <;> cases hlisted
  rw [hluck] at hlisted
  ext key
  rw [List.mem_toFinset, mem_keys_iff hlisted, hkeeps.isSome_entry, Finmap.mem_keys]
  exact and_iff_left_of_imp fun hmem => hkeeps.owned key hmem

theorem length_keys (hkeeps : Keeps base folder ledger) {listed : List String}
    (hlisted : keys luck base folder = .ok listed) : listed.length = ledger.keys.card := by
  have hdistinct : listed.Nodup := (isAscending_keys hlisted).imp And.right
  rw [← hkeeps.toFinset_keys hlisted, List.toFinset_card_of_nodup hdistinct]

theorem size_eq_ok (hkeeps : Keeps base folder ledger) {number : Nat}
    (hsize : size luck base folder = .ok number) : number = ledger.keys.card := by
  obtain ⟨listed, hlisted, rfl⟩ := map_eq_ok_iff.mp hsize
  exact hkeeps.length_keys hlisted

theorem keys_fine (hkeeps : Keeps base folder ledger) :
    ∃ listed, keys .fine base folder = .ok listed := by
  cases folder with
  | absent => exact ⟨[], rfl⟩
  | blocked => exact absurd rfl hkeeps.ordinary.unblocked
  | present entries => exact ⟨_, rfl⟩

/-! ## What a call does to the ledger -/

/-- Nothing but the temporary file of a put has changed. -/
theorem of_drafted (hkeeps : Keeps base folder ledger) (hordinary : after.IsOrdinary)
    {other : String} {stamp : Stamp}
    (hothers : ∀ name, name ≠ temporaryName other stamp → after.get? name = folder.get? name) :
    Keeps base after ledger where
  ordinary := hordinary
  entries key := by
    rw [hothers _ (entryName_ne_temporaryName key other stamp), hkeeps.entries]
  readable := hkeeps.readable
  owned := hkeeps.owned

/-- A payload has been stored. -/
theorem of_stored (hkeeps : Keeps base folder ledger) (hordinary : after.IsOrdinary)
    (hsuffix : suffix ≠ "") {stamp : Stamp}
    (hholds : Holds after (keyFor base suffix) payload)
    (hothers : ∀ name, name ≠ entryName (keyFor base suffix) →
      name ≠ temporaryName (keyFor base suffix) stamp → after.get? name = folder.get? name) :
    Keeps base after (ledger.insert (keyFor base suffix) payload) := by
  obtain ⟨hreadable, hentry⟩ := Queue.holds_iff.mp hholds
  refine ⟨hordinary, fun key => ?_, fun key hmem => ?_, fun key hmem => ?_⟩
  · by_cases hkey : key = keyFor base suffix
    · rw [hkey, hentry, Finmap.lookup_insert]
      rfl
    · rw [hothers _ (fun heq => hkey (entryName_injective heq))
        (entryName_ne_temporaryName key _ stamp), Finmap.lookup_insert_of_ne _ hkey,
        hkeeps.entries]
  · obtain rfl | hmem := Finmap.mem_insert.mp hmem
    · exact hreadable
    · exact hkeeps.readable key hmem
  · obtain rfl | hmem := Finmap.mem_insert.mp hmem
    · exact ⟨suffix, hsuffix, rfl⟩
    · exact hkeeps.owned key hmem

/-- An entry has been removed. -/
theorem of_removed (hkeeps : Keeps base folder ledger) (hordinary : after.IsOrdinary)
    (hget : ∀ name, after.get? name =
      if name = entryName key then none else folder.get? name) :
    Keeps base after (ledger.erase key) where
  ordinary := hordinary
  entries other := by
    rw [hget]
    by_cases hkey : other = key
    · rw [if_pos (congrArg entryName hkey), hkey, Finmap.lookup_erase]
      rfl
    · rw [if_neg (fun heq => hkey (entryName_injective heq)), hkeeps.entries,
        Finmap.lookup_erase_ne hkey]
  readable other hmem := hkeeps.readable other (Finmap.mem_erase.mp hmem).2
  owned other hmem := hkeeps.owned other (Finmap.mem_erase.mp hmem).2

theorem erase_of_notMem (hmissing : key ∉ ledger) : ledger.erase key = ledger := by
  apply Finmap.ext_lookup
  intro other
  by_cases hother : other = key
  · rw [hother, Finmap.lookup_erase, Finmap.lookup_eq_none.mpr hmissing]
  · rw [Finmap.lookup_erase_ne hother]

/-- The call has ended as one on the ledger: it has answered and done what the ledger does,
or it has failed and done nothing. -/
def Follows (base : String) (ledger : Ledger) (call : Call)
    (result : Except QueueError Call.Reply × Folder) : Prop :=
  (∃ reply, result.1 = .ok reply ∧ ledger.Answers base call reply ∧
      Keeps base result.2 (ledger.after base call)) ∨
    ∃ error, result.1 = .error error ∧ Keeps base result.2 ledger

/-- A call that only reads follows the ledger if its answers do. -/
theorem follows_of_read (hkeeps : Keeps base folder ledger) {α : Type} {call : Call}
    {answer : Except QueueError α} {toReply : α → Call.Reply}
    (hafter : ledger.after base call = ledger)
    (hanswers : ∀ value, answer = .ok value → ledger.Answers base call (toReply value)) :
    Follows base ledger call (answer.map toReply, folder) := by
  cases answer with
  | error error => exact .inr ⟨error, rfl, hkeeps⟩
  | ok value =>
      refine .inl ⟨toReply value, rfl, hanswers value rfl, ?_⟩
      rw [hafter]
      exact hkeeps

theorem follows_put (hkeeps : Keeps base folder ledger) (hsuffix : suffix ≠ "")
    (stamp : Stamp) (chances : Put.Chances) :
    Follows base ledger (.put suffix payload stamp chances)
      ((Call.put suffix payload stamp chances).run base folder) := by
  have hordinary := (Put.mk (keyFor base suffix) payload stamp).isOrdinary_run chances
    hkeeps.ordinary
  obtain ⟨hok, hholds, hothers⟩ | ⟨error, herror, hothers⟩ :=
    (Put.mk (keyFor base suffix) payload stamp).run_cases chances folder
  · left
    refine ⟨.stored (keyFor base suffix), ?_, rfl,
      hkeeps.of_stored hordinary hsuffix hholds hothers⟩
    simp only [Call.run, hok]
    rfl
  · right
    refine ⟨error, ?_, hkeeps.of_drafted hordinary hothers⟩
    simp only [Call.run, herror]
    rfl

/-- What a call that may remove an entry does, from what it has answered: the entry goes
exactly if the answer is yes, and the answer is yes exactly if the ledger loses the key. -/
theorem follows_of_removal (hkeeps : Keeps base folder ledger) {call : Call}
    {answer : Except QueueError Bool} (hordinary : after.IsOrdinary)
    (hcases : (answer ≠ .ok true ∧ after = folder) ∨
      (answer = .ok true ∧ ∀ name, after.get? name =
        if name = entryName key then none else folder.get? name))
    (hanswers : ∀ flag, answer = .ok flag → ledger.Answers base call (.removed flag))
    (hafter : ∀ flag, answer = .ok flag →
      ledger.after base call = if flag then ledger.erase key else ledger) :
    Follows base ledger call (answer.map .removed, after) := by
  obtain ⟨hkept, rfl⟩ | ⟨rfl, hget⟩ := hcases
  · cases answer with
    | error error => exact .inr ⟨error, rfl, hkeeps⟩
    | ok flag =>
        have hflag : flag = false := Bool.eq_false_iff.mpr fun h => hkept (congrArg _ h)
        refine .inl ⟨.removed flag, rfl, hanswers flag rfl, ?_⟩
        rw [hafter flag rfl, hflag]
        exact hkeeps
  · refine .inl ⟨.removed true, rfl, hanswers true rfl, ?_⟩
    rw [hafter true rfl]
    exact hkeeps.of_removed hordinary hget

theorem follows_remove (hkeeps : Keeps base folder ledger) (key : String) (luck : Luck) :
    Follows base ledger (.remove key luck) ((Call.remove key luck).run base folder) := by
  have hflag {flag : Bool} (hanswer : (Queue.remove luck key folder).1 = .ok flag) :
      flag = true ↔ key ∈ ledger := by
    rw [remove_eq_ok hanswer, hkeeps.isSome_entry]
  refine hkeeps.follows_of_removal (isOrdinary_remove luck key hkeeps.ordinary)
    (remove_cases luck key folder) (fun _ hanswer => hflag hanswer) fun flag hanswer => ?_
  cases flag with
  | true => rfl
  | false =>
      have hmissing : key ∉ ledger := fun hmem => Bool.false_ne_true ((hflag hanswer).mpr hmem)
      exact erase_of_notMem hmissing

theorem follows_removeIf (hkeeps : Keeps base folder ledger) (key payload : String)
    (chances : Removal.Chances) :
    Follows base ledger (.removeIf key payload chances)
      ((Call.removeIf key payload chances).run base folder) := by
  have hflag {flag : Bool}
      (hanswer : ((Removal.mk key payload).run chances folder).1 = .ok flag) :
      flag = true ↔ ledger.lookup key = some payload :=
    (Removal.run_eq_ok hanswer).trans hkeeps.holds_iff
  have hcases := (Removal.mk key payload).run_cases chances folder
  refine hkeeps.follows_of_removal ((Removal.mk key payload).isOrdinary_run chances
    hkeeps.ordinary) (hcases.imp_right fun ⟨hok, _, hget⟩ => ⟨hok, hget⟩)
    (fun _ hanswer => hflag hanswer) fun flag hanswer => ?_
  simp only [Ledger.after, hflag hanswer]

/-- A call that answers does what the ledger does, and one that fails does nothing. -/
theorem call (hkeeps : Keeps base folder ledger) (call : Call) (hsuffix : call.HasSuffix) :
    Follows base ledger call (call.run base folder) := by
  cases call with
  | put suffix payload stamp chances => exact hkeeps.follows_put hsuffix stamp chances
  | get key luck => exact hkeeps.follows_of_read rfl fun _ hget => hkeeps.get_eq_ok hget
  | remove key luck => exact hkeeps.follows_remove key luck
  | removeIf key payload chances => exact hkeeps.follows_removeIf key payload chances
  | keys luck =>
      exact hkeeps.follows_of_read rfl fun _ hlisted =>
        ⟨isAscending_keys hlisted, hkeeps.toFinset_keys hlisted⟩
  | size luck => exact hkeeps.follows_of_read rfl fun _ hsize => hkeeps.size_eq_ok hsize
  | isEmpty luck =>
      refine hkeeps.follows_of_read rfl fun flag hempty => ?_
      obtain ⟨number, hsize, rfl⟩ := map_eq_ok_iff.mp hempty
      simp only [Ledger.Answers, beq_iff_eq, hkeeps.size_eq_ok hsize, Finset.card_eq_zero,
        Ledger.keys_eq_empty_iff]

/-- A call about a key of ordinary form fails only if the file system does. -/
theorem call_fine (hkeeps : Keeps base folder ledger) (call : Call) (hfine : call.IsFine)
    (hplain : ∀ key ∈ call.key? base, IsPlainKey key) :
    ∃ reply, (call.run base folder).1 = .ok reply := by
  have hordinary := hkeeps.ordinary
  cases call with
  | put suffix payload stamp chances =>
      cases hfine
      have hkey := hplain _ rfl
      obtain ⟨entries, hmake⟩ := hordinary.makeFolder_fine
      have hfiles (name : FileName) : entries.get? name ≠ some .folder := by
        have hmade := (hordinary.makeFolder .fine).files name
        rwa [hmake] at hmade
      have hok := (Put.mk (keyFor base suffix) payload stamp).run_fine hmake hkey.isReadable
        (hkey.temporaryName stamp) (hfiles _) (hfiles _)
      exact ⟨.stored (keyFor base suffix), by simp only [Call.run, hok]; rfl⟩
  | get key luck =>
      cases hfine
      obtain ⟨found, hget⟩ := hkeeps.get_fine (hplain key rfl).isReadable
      exact ⟨.found found, by simp only [Call.run, hget]; rfl⟩
  | remove key luck =>
      cases hfine
      obtain ⟨flag, hflag⟩ := remove_fine (hplain key rfl).isReadable hordinary
      exact ⟨.removed flag, by simp only [Call.run, hflag]; rfl⟩
  | removeIf key payload chances =>
      cases hfine
      have hreadable := (hplain key rfl).isReadable
      obtain ⟨flag, hflag⟩ := remove_fine hreadable hordinary
      obtain ⟨found, hget⟩ := hkeeps.get_fine hreadable
      by_cases hfound : found = some payload
      · refine ⟨.removed flag, ?_⟩
        simp only [Call.run, Removal.run, Removal.step, Removal.Chances.fine, hget,
          if_pos hfound, hflag]
        rfl
      · refine ⟨.removed false, ?_⟩
        simp only [Call.run, Removal.run, Removal.step, Removal.Chances.fine, hget,
          if_neg hfound]
        rfl
  | keys luck =>
      cases hfine
      obtain ⟨listed, hlisted⟩ := hkeeps.keys_fine
      exact ⟨.listed listed, by simp only [Call.run, hlisted]; rfl⟩
  | size luck =>
      cases hfine
      obtain ⟨listed, hlisted⟩ := hkeeps.keys_fine
      exact ⟨.counted listed.length, by simp only [Call.run, Queue.size, hlisted]; rfl⟩
  | isEmpty luck =>
      cases hfine
      obtain ⟨listed, hlisted⟩ := hkeeps.keys_fine
      exact ⟨.emptiness (listed.length == 0), by
        simp only [Call.run, Queue.isEmpty, Queue.size, hlisted]; rfl⟩

end Keeps

/-- From a folder that keeps a ledger, every history is faithful to it: by induction on the
calls, each of which leaves the folder with the ledger that comes after it. -/
theorem Keeps.history (hkeeps : Keeps base folder ledger) (calls : List Call)
    (hsuffix : ∀ call ∈ calls, call.HasSuffix) :
    ledger.IsFaithful base (history base folder calls) ∧
      ∀ episode ∈ history base folder calls, episode.1.IsFine →
        (∀ key ∈ episode.1.key? base, IsPlainKey key) → ∃ reply, episode.2 = .ok reply := by
  induction calls generalizing folder ledger with
  | nil => exact ⟨trivial, List.forall_mem_nil _⟩
  | cons call calls ih =>
      obtain ⟨hcall, hcalls⟩ := List.forall_mem_cons.mp hsuffix
      obtain ⟨reply, hreply, hanswers, hafter⟩ | ⟨error, herror, hafter⟩ :=
        hkeeps.call call hcall
      · obtain ⟨hfaithful, hfine⟩ := ih hafter hcalls
        simp only [Queue.history, hreply]
        refine ⟨⟨hanswers, hfaithful⟩, List.forall_mem_cons.mpr ⟨fun _ _ => ⟨reply, rfl⟩, hfine⟩⟩
      · obtain ⟨hfaithful, hfine⟩ := ih hafter hcalls
        simp only [Queue.history, herror]
        refine ⟨hfaithful, List.forall_mem_cons.mpr ⟨fun hluck hplain => ?_, hfine⟩⟩
        obtain ⟨reply, hreply⟩ := hkeeps.call_fine call hluck hplain
        rw [herror] at hreply
        cases hreply

/-- A queue that starts without a folder is a map from keys to payloads: every call that
answers does what the map does, every call that fails leaves the map as it is, and a call
about a plain key fails only if the file system does. -/
theorem isFaithful_history (base : String) (head : PathHead) (calls : List Call)
    (hsuffix : ∀ call ∈ calls, call.HasSuffix) :
    Ledger.IsFaithful base ∅ (history base (.absent head) calls) ∧
      ∀ episode ∈ history base (.absent head) calls, episode.1.IsFine →
        (∀ key ∈ episode.1.key? base, IsPlainKey key) → ∃ reply, episode.2 = .ok reply :=
  (keeps_absent base head).history calls hsuffix

/-- Calls of which one fails at the renaming of its file. -/
def mixedCalls : List Call :=
  [.put "a.json" "1" ⟨1, 0⟩ .fine,
   .put "b" "2" ⟨2, 0⟩ { Put.Chances.fine with rename := .fails },
   .get "s.b" .fine,
   .keys .fine,
   .removeIf "s.a.json" "2" .fine,
   .remove "s.a.json" .fine,
   .isEmpty .fine]

theorem history_mixedCalls :
    (∀ call ∈ mixedCalls, call.HasSuffix) ∧
      (history "s" .absent mixedCalls).map Prod.snd =
        [.ok (.stored "s.a.json"), .error (.io (.entry "s.b")), .ok (.found none),
          .ok (.listed ["s.a.json"]), .ok (.removed false), .ok (.removed true),
          .ok (.emptiness true)] ∧
      Ledger.IsFaithful "s" ∅ (history "s" .absent mixedCalls) :=
  have hsuffix : ∀ call ∈ mixedCalls, call.HasSuffix := by
    simp [mixedCalls, Call.HasSuffix]
  ⟨hsuffix, by decide +kernel, (isFaithful_history "s" .temporary mixedCalls hsuffix).1⟩

end Scorekeeper.Queue
