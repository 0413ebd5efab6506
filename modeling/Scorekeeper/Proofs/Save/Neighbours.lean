import Mathlib.Data.List.Induction
import Mathlib.Logic.Function.Basic
import Scorekeeper.Proofs.Queue.Partition
import Scorekeeper.Proofs.Replaced
import Scorekeeper.Proofs.Save.Moves

/-!
# Neighbours in one folder

Two queues with different bases share a folder.  Through each of them payloads are put and
removed and retry passes are made, any number of calls at a time; the calls of both sides
take their steps in any order, with any luck.  What one side sees of the folder is then what
it would see if the other side had done nothing, and what a pass of one side uploads or
deletes was never an entry of the other.

There is one exception, which no separation of names can remove.  A put of the neighbour
makes the folder where there was none, and from then on a key that is too long for any file
is an error and no longer merely missing.
-/

namespace Scorekeeper.Save

open Queue Remote Files

/-! ## Two queues at work -/

inductive Side where
  | left
  | right
  deriving DecidableEq, Repr

def Side.other : Side → Side
  | .left => .right
  | .right => .left

/-- A call of a queue or a retry pass, and how far it has come. -/
inductive Work where
  | putting (put : Put) (stage : Put.Stage)
  | removed (key : String) (answer : Except QueueError Bool)
  | clearing (removal : Removal) (stage : Removal.Stage)
  | passing (task : Task)

/-- What is done through a queue: a call begins, or one that has begun goes on.  Every put
brings the stamp of its temporary file. -/
inductive Deed where
  | put (suffix payload : String) (stamp : Stamp)
  | remove (suffix : String) (luck : Luck)
  | removeIf (suffix payload : String)
  | retry
  /-- The work at a place makes its next call of the file system. -/
  | file (place now : Nat) (luck : Luck)
  /-- The store answers the upload that the pass at a place waits for. -/
  | answer (place now : Nat) (result : Except StorageError Unit)

namespace Work

/-- The next call of the file system that a piece of work waits for. -/
def fileStep (session : Session) (now : Nat) (luck : Luck) (folder : Folder) :
    Work → Folder × Session × Work
  | .putting put stage =>
    let (stage, folder) := put.step luck stage folder
    (folder, session, .putting put stage)
  | .removed key answer => (folder, session, .removed key answer)
  | .clearing removal stage =>
    let (stage, folder) := removal.step luck stage folder
    (folder, session, .clearing removal stage)
  | .passing task =>
    let (folder, session, task) := session.fileStep now luck folder task
    (folder, session, .passing task)

/-- The document that a pass is uploading, and its text. -/
def upload? : Work → Option (DocumentKey × String)
  | .passing task => task.upload?
  | _ => none

/-- The store has answered.  A pass writes no temporary file, so that it needs no stamp. -/
def afterUpload (session : Session) (now : Nat) (result : Except StorageError Unit) :
    Work → Session × Work
  | .passing task =>
    let (session, task) := session.afterUpload now ⟨session.process, 0⟩ result task
    (session, .passing task)
  | work => (session, work)

end Work

/-- One of the queues, with all the work ever begun there, in order, and every upload of its
passes that was answered. -/
structure Desk where
  session : Session
  works : List Work
  sent : List Upload

namespace Desk

def base (desk : Desk) : String :=
  desk.session.base

def begin (desk : Desk) (work : Work) : Desk :=
  { desk with works := desk.works ++ [work] }

def fileStep (desk : Desk) (place now : Nat) (luck : Luck) (folder : Folder) (work : Work) :
    Folder × Desk :=
  let (folder, session, work) := work.fileStep desk.session now luck folder
  (folder, { desk with session, works := desk.works.set place work })

def answer (desk : Desk) (place now : Nat) (result : Except StorageError Unit) (work : Work) :
    Desk :=
  match work.upload? with
  | none => desk
  | some (key, payload) =>
    let (session, work) := work.afterUpload desk.session now result
    { session, works := desk.works.set place work,
      sent := desk.sent ++ [⟨key.path, payload, result.isOk⟩] }

def act (desk : Desk) (folder : Folder) : Deed → Folder × Desk
  | .put suffix payload stamp =>
    let put : Put := ⟨keyFor desk.base suffix, payload, stamp⟩
    (folder, desk.begin (.putting put put.init))
  | .remove suffix luck =>
    let key := keyFor desk.base suffix
    let (answer, folder) := Queue.remove luck key folder
    (folder, desk.begin (.removed key answer))
  | .removeIf suffix payload =>
    (folder, desk.begin (.clearing ⟨keyFor desk.base suffix, payload⟩ .comparing))
  | .retry =>
    let (session, task) := desk.session.beginPass
    (folder, { desk with session }.begin (.passing task))
  | .file place now luck =>
    match desk.works[place]? with
    | none => (folder, desk)
    | some work => desk.fileStep place now luck folder work
  | .answer place now result =>
    match desk.works[place]? with
    | none => (folder, desk)
    | some work => (folder, desk.answer place now result work)

end Desk

/-- Two queues and the folder that they share. -/
structure Quarters where
  folder : Folder
  desks : Side → Desk

namespace Quarters

/-- Both queues as configured, before anything is done. -/
def opened (configs : Side → Config) (process : UInt32) (folder : Folder) : Quarters where
  folder
  desks side :=
    { session := .new (configs side).baseKey (configs side).retryMillis process
      works := [], sent := [] }

def step (quarters : Quarters) (event : Side × Deed) : Quarters :=
  let (folder, desk) := (quarters.desks event.1).act quarters.folder event.2
  { folder, desks := Function.update quarters.desks event.1 desk }

def run (quarters : Quarters) (events : List (Side × Deed)) : Quarters :=
  events.foldl step quarters

end Quarters

/-! ## Work on own keys -/

variable {base : String} {seen : String → String → Prop} {folder after alone together : Folder}
  {session : Session} {name : FileName}

/-- A retry pass that has to do with entries of its queue only, and uploads what has been seen
in them.  Where there is no folder it finds none. -/
def Task.IsOwn (base : String) (seen : String → String → Prop) (folder : Folder) : Task → Prop
  | .listing | .passed _ => True
  | .reading key suffix _ => key = keyFor base suffix ∧ ¬folder.IsAbsent
  | .resending key suffix payload _ =>
      key = keyFor base suffix ∧ ¬folder.IsAbsent ∧ seen suffix payload
  | .dropping key _ _ _ => (∃ suffix, key = keyFor base suffix) ∧ ¬folder.IsAbsent
  | _ => False

/-- Work on keys of the queue only, which has made the folder if it is to be there by now. -/
def Work.IsOwn (base : String) (seen : String → String → Prop) (folder : Folder) : Work → Prop
  | .putting put stage =>
      (∃ suffix, put.key = keyFor base suffix) ∧ (stage.isUnderWay = true → ¬folder.IsAbsent)
  | .removed _ _ => True
  | .clearing removal stage =>
      (∃ suffix, removal.key = keyFor base suffix) ∧ (stage = .deleting → ¬folder.IsAbsent)
  | .passing task => task.IsOwn base seen folder

theorem Task.IsOwn.mono {task : Task} (hown : task.IsOwn base seen folder)
    {seen' : String → String → Prop} (hseen : ∀ suffix payload, seen suffix payload →
      seen' suffix payload) (hstands : Folder.Stands folder after) :
    task.IsOwn base seen' after := by
  have hthere := hstands.not_isAbsent
  cases task with
  | listing => trivial
  | passed report => trivial
  | reading key suffix pass => exact ⟨hown.1, hthere hown.2⟩
  | resending key suffix payload pass => exact ⟨hown.1, hthere hown.2.1, hseen _ _ hown.2.2⟩
  | dropping key payload pass stage => exact ⟨hown.1, hthere hown.2⟩
  | _ => exact hown.elim

theorem Work.IsOwn.mono {work : Work} (hown : work.IsOwn base seen folder)
    {seen' : String → String → Prop} (hseen : ∀ suffix payload, seen suffix payload →
      seen' suffix payload) (hstands : Folder.Stands folder after) :
    work.IsOwn base seen' after := by
  have hthere := hstands.not_isAbsent
  cases work with
  | putting put stage => exact ⟨hown.1, fun h => hthere (hown.2 h)⟩
  | removed key answer => trivial
  | clearing removal stage => exact ⟨hown.1, fun h => hthere (hown.2 h)⟩
  | passing task => exact Task.IsOwn.mono hown hseen hstands

namespace Session

theorem isOwn_nextEntry (hbase : session.base = base) (hthere : ¬folder.IsAbsent) (now : Nat)
    (report : Report) (keys : List String) :
    (session.nextEntry now report keys).2.IsOwn base seen folder := by
  obtain hend | ⟨suffix, rest, -, hnext⟩ := session.nextEntry_cases now report keys
  · rw [hend, task_endPass]
    trivial
  · rw [hnext, hbase]
    exact ⟨rfl, hthere⟩

theorem stands_fileStep {task : Task} (hown : task.IsOwn base seen folder) (now : Nat)
    (luck : Luck) : Folder.Stands folder (session.fileStep now luck folder task).1 := by
  cases task with
  | dropping key payload pass stage =>
      have hstands := Removal.stands_step ⟨key, payload⟩ luck stage folder
      simp only [fileStep]
      split
      all_goals
        next hstep =>
        rwa [hstep] at hstands
  | clearing snapshot stage => exact hown.elim
  | keeping snapshot stamp stage => exact hown.elim
  | _ => exact .refl folder

theorem isOwn_fileStep (hbase : session.base = base) {task : Task}
    (hown : task.IsOwn base seen folder)
    (hseen : ∀ suffix payload, Holds folder (keyFor base suffix) payload → seen suffix payload)
    (now : Nat) (luck : Luck) :
    (session.fileStep now luck folder task).2.2.IsOwn base seen
      (session.fileStep now luck folder task).1 := by
  have hstands := session.stands_fileStep hown now luck
  cases task with
  | listing =>
      simp only [fileStep, afterListing]
      split
      · next listed hlisted =>
        by_cases hthere : folder.IsAbsent
        · obtain ⟨head, rfl⟩ := hthere
          cases luck <;> cases hlisted
          exact trivial
        · exact isOwn_nextEntry hbase hthere now _ _
      · rw [task_endPass]
        trivial
  | reading key suffix pass =>
      obtain ⟨rfl, hthere⟩ := hown
      simp only [fileStep, afterReading]
      split
      · next payload hread =>
        obtain ⟨-, hentry⟩ := get_eq_some_iff.mp hread
        exact ⟨rfl, hthere, hseen suffix payload (holds_iff.mpr hentry)⟩
      · exact isOwn_nextEntry hbase hthere now _ _
      · exact isOwn_nextEntry hbase hthere now _ _
  | resending key suffix payload pass => exact hown
  | dropping key payload pass stage =>
      have hthere := hstands.not_isAbsent hown.2
      simp only [fileStep] at hthere ⊢
      split at hthere
      · exact isOwn_nextEntry hbase hthere now _ _
      · exact ⟨hown.1, hthere⟩
  | passed report => trivial
  | _ => exact hown.elim

theorem get?_fileStep_of_not_owns {task : Task} (hown : task.IsOwn base seen folder)
    (hname : ¬Owns base name) (now : Nat) (luck : Luck) :
    (session.fileStep now luck folder task).1.get? name = folder.get? name := by
  cases task with
  | dropping key payload pass stage =>
      have hget := Removal.get?_step_of_not_owns ⟨key, payload⟩ luck stage folder hown.1 hname
      simp only [fileStep]
      split
      all_goals
        next hstep =>
        rwa [hstep] at hget
  | clearing snapshot stage => exact hown.elim
  | keeping snapshot stamp stage => exact hown.elim
  | _ => rfl

/-- A pass goes on in the same way in folders that its queue cannot tell apart. -/
theorem fileStep_agrees (hagrees : Queue.Agrees base alone together)
    (hbase : session.base = base) {task : Task} (hown : task.IsOwn base seen alone)
    (now : Nat) (luck : Luck) :
    (session.fileStep now luck together task).2 = (session.fileStep now luck alone task).2 ∧
      Queue.Agrees base (session.fileStep now luck alone task).1
        (session.fileStep now luck together task).1 := by
  subst hbase
  cases task with
  | listing =>
      refine ⟨?_, hagrees⟩
      simp only [fileStep, hagrees.keys_eq]
  | reading key suffix pass =>
      obtain ⟨rfl, hthere⟩ := hown
      obtain hsame | ⟨habsent, -⟩ := hagrees.get_cases luck suffix
      · refine ⟨?_, hagrees⟩
        simp only [fileStep, hsame]
      · exact absurd habsent hthere
  | dropping key payload pass stage =>
      obtain ⟨hkey, hthere⟩ := hown
      obtain hsame | ⟨habsent, -⟩ :=
        hagrees.step_removal ⟨key, payload⟩ stage hkey (fun _ => hthere) luck
      · obtain ⟨next, _, _, hleft, hright, hfolders⟩ := hsame.exists_eq
        simp only [fileStep, hleft, hright]
        cases next <;> exact ⟨rfl, hfolders⟩
      · exact absurd habsent hthere
  | clearing snapshot stage => exact hown.elim
  | keeping snapshot stamp stage => exact hown.elim
  | counting => exact hown.elim
  | _ => exact ⟨rfl, hagrees⟩

theorem isOwn_afterUpload (hbase : session.base = base) {task : Task}
    (hown : task.IsOwn base seen folder) (now : Nat) (stamp : Stamp)
    (result : Except StorageError Unit) :
    (session.afterUpload now stamp result task).2.IsOwn base seen folder := by
  cases task with
  | resending key suffix payload pass =>
      obtain ⟨rfl, hthere, -⟩ := hown
      cases result with
      | ok _ => exact ⟨⟨suffix, rfl⟩, hthere⟩
      | error error => exact isOwn_nextEntry hbase hthere now _ _
  | uploading snapshot => exact hown.elim
  | _ => exact hown

end Session

namespace Work

variable {work : Work}

theorem base_fileStep (session : Session) (now : Nat) (luck : Luck) (folder : Folder)
    (work : Work) : (work.fileStep session now luck folder).2.1.base = session.base := by
  cases work with
  | passing task => exact (session.turn_fileStep now luck folder task).base
  | _ => rfl

theorem base_afterUpload (session : Session) (now : Nat) (result : Except StorageError Unit)
    (work : Work) : (work.afterUpload session now result).1.base = session.base := by
  cases work with
  | passing task => exact session.base_afterUpload now _ result task
  | _ => rfl

theorem stands_fileStep (session : Session) (hown : work.IsOwn base seen folder) (now : Nat)
    (luck : Luck) : Folder.Stands folder (work.fileStep session now luck folder).1 := by
  cases work with
  | putting put stage => exact put.stands_step luck stage folder
  | removed key answer => exact .refl folder
  | clearing removal stage => exact removal.stands_step luck stage folder
  | passing task => exact session.stands_fileStep hown now luck

theorem get?_fileStep_of_not_owns (session : Session) (hown : work.IsOwn base seen folder)
    (hname : ¬Owns base name) (now : Nat) (luck : Luck) :
    (work.fileStep session now luck folder).1.get? name = folder.get? name := by
  cases work with
  | putting put stage => exact put.get?_step_of_not_owns luck stage folder hown.1 hname
  | removed key answer => rfl
  | clearing removal stage => exact removal.get?_step_of_not_owns luck stage folder hown.1 hname
  | passing task => exact session.get?_fileStep_of_not_owns hown hname now luck

/-- A put is under way from the moment it has made the folder. -/
theorem isOwn_fileStep (hbase : session.base = base) (hown : work.IsOwn base seen folder)
    (hseen : ∀ suffix payload, Holds folder (keyFor base suffix) payload → seen suffix payload)
    (now : Nat) (luck : Luck) :
    (work.fileStep session now luck folder).2.2.IsOwn base seen
      (work.fileStep session now luck folder).1 := by
  have hstands := stands_fileStep session hown now luck
  cases work with
  | putting put stage =>
      have hthere (hunderway : (put.step luck stage folder).1.isUnderWay = true) :
          ¬(put.step luck stage folder).2.IsAbsent := by
        cases stage with
        | making =>
            simp only [Put.step] at hunderway ⊢
            split at hunderway
            · next hmake =>
              rintro ⟨head, rfl⟩
              cases folder <;> cases luck <;> cases hmake
            · cases hunderway
        | done answer => cases hunderway
        | _ => exact hstands.not_isAbsent (hown.2 rfl)
      exact ⟨hown.1, hthere⟩
  | removed key answer => trivial
  | clearing removal stage =>
      have hthere (hdeleting : (removal.step luck stage folder).1 = .deleting) :
          ¬(removal.step luck stage folder).2.IsAbsent := by
        cases stage with
        | comparing =>
            obtain ⟨answer, -, hstep⟩ | ⟨-, hholds, hstep⟩ := removal.step_comparing luck folder
            · rw [hstep] at hdeleting
              cases hdeleting
            · rw [hstep]
              rintro ⟨head, rfl⟩
              cases (holds_iff.mp hholds).2
        | deleting => cases hdeleting
        | done answer => cases hdeleting
      exact ⟨hown.1, hthere⟩
  | passing task => exact Session.isOwn_fileStep hbase hown hseen now luck

theorem isOwn_afterUpload (hbase : session.base = base) (hown : work.IsOwn base seen folder)
    (now : Nat) (result : Except StorageError Unit) :
    (work.afterUpload session now result).2.IsOwn base seen folder := by
  cases work with
  | passing task => exact session.isOwn_afterUpload hbase hown now _ result
  | _ => exact hown

/-- What a pass uploads it has seen in an entry of its queue. -/
theorem IsOwn.seen_of_upload? (hown : work.IsOwn base seen folder) {key : DocumentKey}
    {payload : String} (hupload : work.upload? = some (key, payload)) :
    ∃ suffix, key = .scorecard suffix ∧ seen suffix payload := by
  cases work with
  | passing task =>
      cases task with
      | resending entry suffix text pass =>
          cases hupload
          exact ⟨suffix, rfl, hown.2.2⟩
      | uploading snapshot => exact hown.elim
      | _ => cases hupload
  | _ => cases hupload

/-! ## The same work without the neighbour -/

/-- The second comes to the same as the first, except that a removal of an overlong key may
have met an error where the first found nothing. -/
inductive Resembles : Work → Work → Prop
  | same (work : Work) : Resembles work work
  | removed {key : String} (overlong : IsOverlong key) :
      Resembles (.removed key (.ok false)) (.removed key (.error (.io (.entry key))))
  | cleared {removal : Removal} (overlong : IsOverlong removal.key) :
      Resembles (.clearing removal (.done (.ok false)))
        (.clearing removal (.done (.error (.io (.entry removal.key)))))

theorem fileStep_resembles (hagrees : Queue.Agrees base alone together)
    (hbase : session.base = base) (hown : work.IsOwn base seen alone) {other : Work}
    (hresembles : Resembles work other) (now : Nat) (luck : Luck) :
    let left := work.fileStep session now luck alone
    let right := other.fileStep session now luck together
    Queue.Agrees base left.1 right.1 ∧ right.2.1 = left.2.1 ∧ Resembles left.2.2 right.2.2 := by
  cases hresembles with
  | removed overlong => exact ⟨hagrees, rfl, .removed overlong⟩
  | cleared overlong => exact ⟨hagrees, rfl, .cleared overlong⟩
  | same =>
      cases work with
      | removed key answer => exact ⟨hagrees, rfl, .same _⟩
      | putting put stage =>
          obtain ⟨next, _, _, hleft, hright, hfolders⟩ :=
            (hagrees.step_put put stage hown.1 hown.2 luck).exists_eq
          simp only [fileStep, hleft, hright]
          exact ⟨hfolders, trivial, .same _⟩
      | clearing removal stage =>
          obtain hsame | ⟨-, hlong, hleft, hright⟩ :=
            hagrees.step_removal removal stage hown.1 hown.2 luck
          · obtain ⟨next, _, _, hleft, hright, hfolders⟩ := hsame.exists_eq
            simp only [fileStep, hleft, hright]
            exact ⟨hfolders, trivial, .same _⟩
          · simp only [fileStep, hleft, hright]
            exact ⟨hagrees, trivial, .cleared hlong⟩
      | passing task =>
          obtain ⟨hmove, hfolders⟩ := session.fileStep_agrees hagrees hbase hown now luck
          simp only [fileStep, hmove]
          exact ⟨hfolders, trivial, .same _⟩

end Work

namespace Desk

variable {desk other : Desk}

structure IsOwn (base : String) (seen : String → String → Prop) (folder : Folder)
    (desk : Desk) : Prop where
  named : desk.base = base
  works : ∀ work ∈ desk.works, work.IsOwn base seen folder
  sent : ∀ upload ∈ desk.sent, ∃ suffix,
    upload.path = (DocumentKey.scorecard suffix).path ∧ seen suffix upload.payload

theorem IsOwn.mono (hown : desk.IsOwn base seen folder) {seen' : String → String → Prop}
    (hseen : ∀ suffix payload, seen suffix payload → seen' suffix payload)
    (hstands : Folder.Stands folder after) : desk.IsOwn base seen' after where
  named := hown.named
  works work hmem := (hown.works work hmem).mono hseen hstands
  sent upload hmem := by
    obtain ⟨suffix, hpath, hpayload⟩ := hown.sent upload hmem
    exact ⟨suffix, hpath, hseen _ _ hpayload⟩

theorem IsOwn.begin (hown : desk.IsOwn base seen folder) {work : Work}
    (hwork : work.IsOwn base seen folder) : (desk.begin work).IsOwn base seen folder where
  named := hown.named
  works other hmem := by
    obtain hmem | hmem := List.mem_append.mp hmem
    · exact hown.works other hmem
    · exact List.mem_singleton.mp hmem ▸ hwork
  sent := hown.sent

theorem IsOwn.fileStep (hown : desk.IsOwn base seen folder)
    (hseen : ∀ suffix payload, Holds folder (keyFor base suffix) payload → seen suffix payload)
    {work : Work} (hwork : work.IsOwn base seen folder) (place now : Nat) (luck : Luck) :
    (desk.fileStep place now luck folder work).2.IsOwn base seen
      (desk.fileStep place now luck folder work).1 where
  named := (Work.base_fileStep _ _ _ _ work).trans hown.named
  works other hmem := by
    obtain hmem | rfl := List.mem_or_eq_of_mem_set hmem
    · exact (hown.works other hmem).mono (fun _ _ h => h)
        (Work.stands_fileStep desk.session hwork now luck)
    · exact Work.isOwn_fileStep hown.named hwork hseen now luck
  sent := hown.sent

theorem IsOwn.answer (hown : desk.IsOwn base seen folder) {work : Work}
    (hwork : work.IsOwn base seen folder) (place now : Nat)
    (result : Except StorageError Unit) :
    (desk.answer place now result work).IsOwn base seen folder := by
  rw [Desk.answer]
  split
  · exact hown
  · next key payload hupload =>
    obtain ⟨suffix, rfl, hpayload⟩ := hwork.seen_of_upload? hupload
    refine ⟨?_, fun other hmem => ?_, fun upload hmem => ?_⟩
    · exact (Work.base_afterUpload _ _ _ work).trans hown.named
    · obtain hmem | rfl := List.mem_or_eq_of_mem_set hmem
      · exact hown.works other hmem
      · exact Work.isOwn_afterUpload hown.named hwork now result
    · obtain hmem | hmem := List.mem_append.mp hmem
      · exact hown.sent upload hmem
      · rw [List.mem_singleton.mp hmem]
        exact ⟨suffix, rfl, hpayload⟩

/-- A side works on its own entries only, whatever it does next, and leaves all names of the
other side alone. -/
theorem IsOwn.act (hown : desk.IsOwn base seen folder)
    (hseen : ∀ suffix payload, Holds folder (keyFor base suffix) payload → seen suffix payload)
    (deed : Deed) :
    (desk.act folder deed).2.IsOwn base seen (desk.act folder deed).1 ∧
      Folder.Stands folder (desk.act folder deed).1 ∧
      ∀ name, ¬Owns base name → (desk.act folder deed).1.get? name = folder.get? name := by
  have hkey (suffix : String) : ∃ owner, keyFor desk.base suffix = keyFor base owner :=
    ⟨suffix, by rw [hown.named]⟩
  have hquiet {after : Desk} (hafter : after.IsOwn base seen folder) :
      after.IsOwn base seen folder ∧ Folder.Stands folder folder ∧
        ∀ name, ¬Owns base name → folder.get? name = folder.get? name :=
    ⟨hafter, .refl folder, fun _ _ => rfl⟩
  cases deed with
  | put suffix payload stamp =>
      refine hquiet (hown.begin ⟨hkey suffix, fun hunderway => ?_⟩)
      rw [Put.init] at hunderway
      split at hunderway <;> cases hunderway
  | remove suffix luck =>
      have hstands := stands_remove luck (keyFor desk.base suffix) folder
      have hframe (name : FileName) (hname : ¬Owns base name) :=
        get?_remove_of_not_owns luck suffix folder (hown.named.symm ▸ hname)
      exact ⟨(hown.mono (fun _ _ h => h) hstands).begin trivial, hstands, hframe⟩
  | removeIf suffix payload =>
      exact hquiet (hown.begin ⟨hkey suffix, fun hdeleting => by cases hdeleting⟩)
  | retry =>
      have hsession : { desk with session := desk.session.beginPass.1 }.IsOwn base seen folder :=
        ⟨hown.named, hown.works, hown.sent⟩
      exact hquiet (hsession.begin trivial)
  | file place now luck =>
      simp only [Desk.act]
      split
      · exact hquiet hown
      · next work hfound =>
        have hwork := hown.works work (List.mem_of_getElem? hfound)
        exact ⟨hown.fileStep hseen hwork place now luck,
          Work.stands_fileStep desk.session hwork now luck, fun name hname =>
            Work.get?_fileStep_of_not_owns desk.session hwork hname now luck⟩
  | answer place now result =>
      simp only [Desk.act]
      split
      · exact hquiet hown
      · next work hfound =>
        have hwork := hown.works work (List.mem_of_getElem? hfound)
        exact hquiet (hown.answer hwork place now result)

/-- With and without the neighbour, the session is the same, the store got the same uploads,
and all work has come to the same. -/
structure Resembles (alone together : Desk) : Prop where
  session : together.session = alone.session
  sent : together.sent = alone.sent
  works : List.Forall₂ Work.Resembles alone.works together.works

theorem Resembles.begin (hresembles : desk.Resembles other) {work copy : Work}
    (hwork : work.Resembles copy) : (desk.begin work).Resembles (other.begin copy) :=
  ⟨hresembles.session, hresembles.sent,
    List.rel_append hresembles.works (.cons hwork .nil)⟩

/-- What a side does next comes to the same in folders that its queue cannot tell apart. -/
theorem Resembles.act (hresembles : desk.Resembles other)
    (hagrees : Queue.Agrees base alone together) (hown : desk.IsOwn base seen alone)
    (deed : Deed) :
    Queue.Agrees base (desk.act alone deed).1 (other.act together deed).1 ∧
      (desk.act alone deed).2.Resembles (other.act together deed).2 := by
  obtain ⟨hsession, hsent, hworks⟩ := hresembles
  have hbase : other.base = desk.base := congrArg Session.base hsession
  cases deed with
  | put suffix payload stamp =>
      simp only [Desk.act, hbase]
      exact ⟨hagrees, Resembles.begin ⟨hsession, hsent, hworks⟩ (.same _)⟩
  | remove suffix luck =>
      have hown' := hown.named
      simp only [Desk.act, hbase, hown']
      obtain hsame | ⟨-, hlong, hleft, hright⟩ := hagrees.remove luck suffix
      · obtain ⟨answer, _, _, hleft, hright, hfolders⟩ := hsame.exists_eq
        rw [hleft, hright]
        exact ⟨hfolders, Resembles.begin ⟨hsession, hsent, hworks⟩ (.same _)⟩
      · rw [hleft, hright]
        exact ⟨hagrees, Resembles.begin ⟨hsession, hsent, hworks⟩ (.removed hlong)⟩
  | removeIf suffix payload =>
      simp only [Desk.act, hbase]
      exact ⟨hagrees, Resembles.begin ⟨hsession, hsent, hworks⟩ (.same _)⟩
  | retry =>
      simp only [Desk.act, hsession]
      exact ⟨hagrees, rfl, hsent, List.rel_append hworks (.cons (.same _) .nil)⟩
  | file place now luck =>
      obtain ⟨hleft, hright⟩ | ⟨work, copy, hleft, hright, hwork⟩ :=
        getElem?_cases_of_forall₂ hworks place
      · simp only [Desk.act, hleft, hright]
        exact ⟨hagrees, hsession, hsent, hworks⟩
      · have hmem := hown.works work (List.mem_of_getElem? hleft)
        obtain ⟨hfolders, hnext, hsame⟩ :=
          Work.fileStep_resembles hagrees hown.named hmem hwork now luck
        simp only [Desk.act, hleft, hright, Desk.fileStep, hsession]
        exact ⟨hfolders, hnext, hsent, forall₂_set hworks place hsame⟩
  | answer place now result =>
      obtain ⟨hleft, hright⟩ | ⟨work, copy, hleft, hright, hwork⟩ :=
        getElem?_cases_of_forall₂ hworks place
      · simp only [Desk.act, hleft, hright]
        exact ⟨hagrees, hsession, hsent, hworks⟩
      · simp only [Desk.act, hleft, hright, Desk.answer]
        refine ⟨hagrees, ?_⟩
        cases hwork with
        | removed overlong => exact ⟨hsession, hsent, hworks⟩
        | cleared overlong => exact ⟨hsession, hsent, hworks⟩
        | same =>
            cases hupload : work.upload? with
            | none => exact ⟨hsession, hsent, hworks⟩
            | some document =>
                simp only [hsession, hsent]
                exact ⟨rfl, rfl, forall₂_set hworks place (.same _)⟩

end Desk

/-! ## Two queues that do not interfere -/

/-- The queue with this base tells the same of the second folder as of the first, except that
overlong keys are an error once there is a folder. -/
structure TellsAs (base : String) (alone together : Folder) : Prop where
  keys : ∀ luck, keys luck base together = keys luck base alone
  size : ∀ luck, size luck base together = size luck base alone
  get : ∀ suffix, FindsAs alone together (keyFor base suffix)

namespace Quarters

variable {configs : Side → Config} {process : UInt32} {events : List (Side × Deed)}
  {side : Side}

/-- The payload was in the entry for the suffix at some moment of the run. -/
def Seen (start : Quarters) (events : List (Side × Deed)) (base suffix payload : String) : Prop :=
  ∃ before later, events = before ++ later ∧
    Holds (start.run before).folder (keyFor base suffix) payload

theorem Seen.append {start : Quarters} {base suffix payload : String}
    (hseen : start.Seen events base suffix payload) (more : List (Side × Deed)) :
    start.Seen (events ++ more) base suffix payload := by
  obtain ⟨before, later, rfl, hholds⟩ := hseen
  exact ⟨before, later ++ more, List.append_assoc _ _ _, hholds⟩

theorem run_snoc (start : Quarters) (events : List (Side × Deed)) (event : Side × Deed) :
    start.run (events ++ [event]) = (start.run events).step event :=
  List.foldl_concat step start event events

theorem desks_step_self (quarters : Quarters) (side : Side) (deed : Deed) :
    (quarters.step (side, deed)).desks side =
      ((quarters.desks side).act quarters.folder deed).2 :=
  Function.update_self ..

theorem desks_step_of_ne (quarters : Quarters) {event : Side × Deed} (hside : side ≠ event.1) :
    (quarters.step event).desks side = quarters.desks side :=
  Function.update_of_ne hside ..

/-- At every moment both sides work on their own entries only. -/
theorem isOwn_run (configs : Side → Config) (process : UInt32) (folder : Folder)
    (events : List (Side × Deed)) (side : Side) :
    let start := opened configs process folder
    ((start.run events).desks side).IsOwn (configs side).baseKey
      (start.Seen events (configs side).baseKey) (start.run events).folder := by
  intro start
  induction events using List.reverseRecOn generalizing side with
  | nil => exact ⟨rfl, nofun, nofun⟩
  | append_singleton events event ih =>
      obtain ⟨actor, deed⟩ := event
      have hmono (base suffix payload : String) (hseen : start.Seen events base suffix payload) :
          start.Seen (events ++ [(actor, deed)]) base suffix payload := hseen.append _
      have hown := (ih actor).mono (hmono _) (.refl _)
      obtain ⟨hacted, hstands, -⟩ := hown.act
        (fun suffix payload hholds => ⟨events, [(actor, deed)], rfl, hholds⟩) deed
      rw [run_snoc]
      by_cases hside : side = actor
      · subst hside
        rw [desks_step_self]
        exact hacted
      · rw [desks_step_of_ne _ hside]
        exact (ih side).mono (hmono _) hstands

/-- What a side does next leaves all names alone that its queue does not own. -/
theorem frame_step (configs : Side → Config) (process : UInt32) (folder : Folder)
    (events : List (Side × Deed)) (event : Side × Deed) :
    let quarters := (opened configs process folder).run events
    Folder.Stands quarters.folder (quarters.step event).folder ∧
      ∀ name, ¬Owns (configs event.1).baseKey name →
        (quarters.step event).folder.get? name = quarters.folder.get? name := by
  have hown := (isOwn_run configs process folder events event.1).mono
    (fun suffix payload hseen => hseen.append [event]) (.refl _)
  exact (hown.act (fun suffix payload hholds => ⟨events, [event], rfl, hholds⟩) event.2).2

theorem not_owns_of_owns (hbases : (configs .left).baseKey ≠ (configs .right).baseKey)
    {side actor : Side} (hside : side ≠ actor) {name : FileName}
    (howns : Owns (configs side).baseKey name) : ¬Owns (configs actor).baseKey name := by
  intro hshared
  have hsame := howns.base_eq (configs side).baseKey_ok (configs actor).baseKey_ok hshared
  cases side <;> cases actor
  · exact hside rfl
  · exact hbases hsame
  · exact hbases hsame.symm
  · exact hside rfl

/-- Without the steps of the neighbour the folder is the same for a side, and so is all that
the side has done. -/
theorem run_resembles (hbases : (configs .left).baseKey ≠ (configs .right).baseKey)
    (process : UInt32) (folder : Folder) (events : List (Side × Deed)) (side : Side) :
    let start := opened configs process folder
    let alone := start.run (events.filter fun event => event.1 = side)
    let together := start.run events
    Queue.Agrees (configs side).baseKey alone.folder together.folder ∧
      (alone.desks side).Resembles (together.desks side) := by
  intro start
  induction events using List.reverseRecOn with
  | nil => exact ⟨.refl _ _, rfl, rfl, .nil⟩
  | append_singleton events event ih =>
      obtain ⟨hagrees, hresembles⟩ := ih
      by_cases hside : event.1 = side
      · obtain ⟨actor, deed⟩ := event
        subst hside
        have hown := isOwn_run configs process folder
          (events.filter fun event => event.1 = actor) actor
        have hfilter : (events ++ [(actor, deed)]).filter (fun event => event.1 = actor) =
            events.filter (fun event => event.1 = actor) ++ [(actor, deed)] := by simp
        simp only [hfilter, run_snoc, desks_step_self]
        exact hresembles.act hagrees hown deed
      · have hfilter : (events ++ [event]).filter (fun event => event.1 = side) =
            events.filter (fun event => event.1 = side) := by simp [hside]
        obtain ⟨hstands, hframe⟩ := frame_step configs process folder events event
        simp only [hfilter, run_snoc, desks_step_of_ne _ (Ne.symm hside)]
        refine ⟨hagrees.trans hstands fun name howns => hframe name ?_, hresembles⟩
        exact not_owns_of_owns hbases (Ne.symm hside) howns

/-- Queues with different bases do not interfere.  Whatever both sides do, each of them is
told the same of the folder as if the other had done nothing, and its own work comes to the
same; all that its passes upload was in one of its own entries, and nothing that it does next
touches an entry of the other. -/
theorem neighbours_apart (hbases : (configs .left).baseKey ≠ (configs .right).baseKey)
    (process : UInt32) (folder : Folder) (events : List (Side × Deed)) (side : Side) :
    let start := opened configs process folder
    let alone := start.run (events.filter fun event => event.1 = side)
    let together := start.run events
    let base := (configs side).baseKey
    TellsAs base alone.folder together.folder ∧
      (alone.desks side).Resembles (together.desks side) ∧
      (∀ upload ∈ (together.desks side).sent, ∃ suffix,
        upload.path = (DocumentKey.scorecard suffix).path ∧
          start.Seen events base suffix upload.payload) ∧
      ∀ deed suffix, (together.step (side, deed)).folder.get?
          (entryName (keyFor (configs side.other).baseKey suffix)) =
        together.folder.get? (entryName (keyFor (configs side.other).baseKey suffix)) := by
  intro start alone together base
  obtain ⟨hagrees, hresembles⟩ := run_resembles hbases process folder events side
  have hown := isOwn_run configs process folder events side
  refine ⟨⟨hagrees.keys_eq, hagrees.size_eq, hagrees.findsAs⟩, hresembles, hown.sent,
    fun deed suffix => ?_⟩
  obtain ⟨-, hframe⟩ := frame_step configs process folder events (side, deed)
  have hside : side.other ≠ side := by cases side <;> decide
  exact hframe _ (not_owns_of_owns hbases hside (owns_entryName _ suffix))

/-- The base of the right queue is the beginning of that of the left one. -/
def adjoiningConfigs : Side → Config
  | .left => .default
  | .right => { Config.default with baseKey := "score", baseKey_ok := by decide }

/-- Both sides put a payload, and their puts take turns. -/
def crossedPuts : List (Side × Deed) :=
  [(.right, .put "card.a" "theirs" ⟨1, 0⟩), (.left, .put "a" "ours" ⟨1, 1⟩),
    (.right, .file 0 0 .fine), (.left, .file 0 0 .fine), (.right, .file 0 0 .fine),
    (.left, .file 0 0 .fine), (.right, .file 0 0 .fine), (.left, .file 0 0 .fine)]

theorem neighbours_apart_crossedPuts :
    let start := opened adjoiningConfigs 1 .absent
    (adjoiningConfigs .left).baseKey ≠ (adjoiningConfigs .right).baseKey ∧
      keys .fine "scorecard" (start.run crossedPuts).folder = .ok ["scorecard.a"] ∧
      TellsAs "scorecard"
        (start.run (crossedPuts.filter fun event => event.1 = .left)).folder
        (start.run crossedPuts).folder := by
  intro start
  have hbases : (adjoiningConfigs .left).baseKey ≠ (adjoiningConfigs .right).baseKey := by decide
  exact ⟨hbases, by decide +kernel, (neighbours_apart hbases 1 .absent crossedPuts .left).1⟩

/-! ## Where a neighbour is noticed -/

/-- Two keys of the left queue are long.  The entry of the first could be no file; it is missing
as long as there is no folder, and an error as soon as the neighbour has put something.  The
second is put with the last number of one digit, or with the next one if the neighbour has
used that up, and then the name of its temporary file is too long. -/
theorem neighbour_noticed :
    let start := opened adjoiningConfigs 1 .absent
    let events : List (Side × Deed) :=
      [(.right, .put "a" "theirs" ⟨1, 9⟩), (.right, .file 0 0 .fine), (.right, .file 0 0 .fine),
        (.right, .file 0 0 .fine)]
    let alone := (start.run (events.filter fun event => event.1 = .left)).folder
    let together := (start.run events).folder
    (get .fine (longKey 250) alone = .ok none ∧
        get .fine (longKey 250) together = .error (.io (.entry (longKey 250)))) ∧
      ((Put.mk (longKey 236) "ours" ⟨1, 9⟩).run .fine alone).1 = .ok (longKey 236) ∧
      ((Put.mk (longKey 236) "ours" ⟨1, 10⟩).run .fine together).1 =
        .error (.io (.temporary (longKey 236) ⟨1, 10⟩)) := by
  intro start events alone together
  have hnothing : alone = .absent := rfl
  have hput : keys .fine "score" together = .ok ["score.a"] := by decide +kernel
  have hthere : ∃ entries, together = .present entries := by
    cases hfolder : together with
    | absent =>
        rw [hfolder] at hput
        cases hput
    | blocked =>
        rw [hfolder] at hput
        cases hput
    | present entries => exact ⟨entries, rfl⟩
  obtain ⟨entries, hentries⟩ := hthere
  rw [hnothing, hentries]
  have hmissing := get_longKey_absent (n := 250) .temporary (by decide)
  refine ⟨⟨hmissing, get_longKey_present (by decide) entries⟩, ?_, ?_⟩
  · have hmake : Folder.makeFolder .fine .absent = (.ok (), .present .empty) := rfl
    apply Put.run_fine _ hmake
    · refine ⟨isSafeKey_longKey 236, isPossible_longKey 236, ?_⟩
      rw [size_entryName_longKey]
      decide
    · have hsize := utf8ByteSize_temporaryText (longKey 236) ⟨1, 9⟩
      rw [utf8ByteSize_longKey] at hsize
      refine ⟨isPossible_temporaryName (notMem_longKey _ (by decide) (by decide))
        (notMem_longKey _ (by decide) (by decide)), ?_⟩
      rw [temporaryName, String.size_toByteArray, hsize]
      decide
    · intro hfolder
      cases hfolder
    · intro hfolder
      cases hfolder
  · refine Put.run_of_long ⟨longKey 236, "ours", ⟨1, 10⟩⟩ (isSafeKey_longKey 236) ?_ entries
    have hsize := utf8ByteSize_temporaryText (longKey 236) ⟨1, 10⟩
    rw [temporaryName, String.size_toByteArray, hsize, utf8ByteSize_longKey]
    decide

end Quarters

end Scorekeeper.Save
