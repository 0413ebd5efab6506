import Scorekeeper.Proofs.Replaced
import Scorekeeper.Save.Alarm

/-!
# Timers that race

Arming the retry timer takes three steps: a number is drawn, it is put in the slot, and
the timer is started.  When several callers arm the timer at once their steps mix, and
numbers may come into the slot in another order than they were drawn.  Cancellations and
expiries come between any two steps.

A number comes into the slot at most once, because it is drawn only once.  So a timer
whose number has left the slot never gets it back, and never starts a pass.
-/

namespace Scorekeeper.Save

/-- How far a call that arms the timer has come. -/
inductive Arming where
  | drawing
  | installing (generation : UInt64)
  | starting (generation : UInt64)
  | started (generation : UInt64)
  deriving DecidableEq, Repr

namespace Arming

/-- The number that the call has drawn. -/
def generation? : Arming → Option UInt64
  | .drawing => none
  | .installing generation | .starting generation | .started generation => some generation

/-- Whether the number of the call has come into the slot. -/
def isInstalled : Arming → Bool
  | .starting _ | .started _ => true
  | _ => false

/-- The next step of a call whose timer is to expire at a given time. -/
def step (due : Nat) (call : Arming) (alarm : Alarm) : Arming × Alarm :=
  match call with
  | .drawing => (.installing alarm.draw.1, alarm.draw.2)
  | .installing generation => (.starting generation, alarm.install generation)
  | .starting generation => (.started generation, alarm.start generation due)
  | .started generation => (.started generation, alarm)

end Arming

/-- The retry timer and every call that was ever made to arm it. -/
structure Dial where
  alarm : Alarm
  calls : List Arming
  deriving DecidableEq, Repr

namespace Dial

inductive Event where
  /-- A call to arm the timer begins. -/
  | call
  /-- A call makes its next step. -/
  | step (call : Nat) (due : Nat)
  | cancel
  | expire (generation : UInt64)
  deriving DecidableEq, Repr

def silent : Dial where
  alarm := .silent
  calls := []

def step (dial : Dial) : Event → Dial
  | .call => { dial with calls := dial.calls ++ [.drawing] }
  | .step place due =>
    match dial.calls[place]? with
    | none => dial
    | some call =>
      let (call, alarm) := call.step due dial.alarm
      { alarm, calls := dial.calls.set place call }
  | .cancel => { dial with alarm := dial.alarm.cancel.2 }
  | .expire generation => { dial with alarm := (dial.alarm.expire generation).2 }

def run (dial : Dial) (events : List Event) : Dial :=
  events.foldl step dial

/-- Fewer calls were made than there are numbers. -/
def IsFew (dial : Dial) : Prop :=
  dial.calls.length < UInt64.size

/-- The event makes the timer of a generation start a pass. -/
inductive Fires (dial : Dial) : Event → UInt64 → Prop where
  | expired {generation : UInt64} (fires : (dial.alarm.expire generation).1 = true) :
      Fires dial (.expire generation) generation

/-- The event takes the number of a generation out of the slot before its timer expires. -/
inductive Disarms (dial : Dial) : Event → UInt64 → Prop where
  | cancelled {generation : UInt64} (armed : dial.alarm.slot = some generation) :
      Disarms dial .cancel generation
  | replaced {generation next : UInt64} {place due : Nat}
      (found : dial.calls[place]? = some (.installing next))
      (armed : dial.alarm.slot = some generation) :
      Disarms dial (.step place due) generation

/-- The number of a generation has come into the slot. -/
def HasInstalled (dial : Dial) (generation : UInt64) : Prop :=
  ∃ call ∈ dial.calls, call.generation? = some generation ∧ call.isInstalled = true

/-- The timer of a generation may still start a pass. -/
def CanFire (dial : Dial) (generation : UInt64) : Prop :=
  ∃ later, (dial.run later).IsFew ∧ (dial.run later).Fires (.expire generation) generation

variable {dial : Dial} {event : Event} {generation : UInt64}

@[simp]
theorem run_cons (dial : Dial) (event : Event) (events : List Event) :
    dial.run (event :: events) = (dial.step event).run events := rfl

theorem run_append (dial : Dial) (before after : List Event) :
    dial.run (before ++ after) = (dial.run before).run after := by
  rw [run, List.foldl_append]
  rfl

/-! ## What an event does -/

theorem expire_eq_true_iff {alarm : Alarm} :
    (alarm.expire generation).1 = true ↔
      alarm.slot = some generation ∧
        ∃ timer ∈ alarm.timers, timer.generation = generation := by
  rw [Alarm.expire]
  split
  · next hnone =>
    constructor
    · nofun
    · rintro ⟨-, timer, hmem, rfl⟩
      simpa using List.find?_eq_none.mp hnone timer hmem
  · next timer hfound =>
    have hmem := List.mem_of_find?_eq_some hfound
    have hgeneration : timer.generation = generation := by
      simpa using List.find?_some hfound
    dsimp only
    split
    · next hslot => exact ⟨fun _ => ⟨hslot, timer, hmem, hgeneration⟩, fun _ => rfl⟩
    · next hslot => exact ⟨nofun, fun hboth => absurd hboth.1 hslot⟩

/-- What an expiry leaves: the slot, unless it held the number of the timer, and all timers
of other generations. -/
theorem expire_cases (alarm : Alarm) (generation : UInt64) :
    (alarm.expire generation).2.drawn = alarm.drawn ∧
      ∀ other, (alarm.expire generation).2.slot = some other →
        alarm.slot = some other ∧ ∀ timer ∈ alarm.timers, timer.generation = other →
          timer ∈ (alarm.expire generation).2.timers := by
  rw [Alarm.expire]
  split
  · exact ⟨rfl, fun other hslot => ⟨hslot, fun timer hmem _ => hmem⟩⟩
  · next found hfound =>
    have hgeneration : found.generation = generation := by
      simpa using List.find?_some hfound
    dsimp only
    split
    · exact ⟨rfl, nofun⟩
    · next hunarmed =>
      refine ⟨rfl, fun other hslot => ⟨hslot, fun timer hmem hother => ?_⟩⟩
      apply (List.mem_erase_of_ne _).mpr hmem
      rintro rfl
      apply hunarmed
      rw [← hgeneration, hother]
      exact hslot

theorem slot_of_fires {alarm : Alarm} (hfires : (alarm.expire generation).1 = true) :
    (alarm.expire generation).2.slot = none := by
  rw [Alarm.expire] at hfires ⊢
  split at hfires
  · cases hfires
  · dsimp only at hfires ⊢
    split
    · rfl
    · next hunarmed =>
      rw [if_neg hunarmed] at hfires
      cases hfires

theorem step_of_none {place due : Nat} (hnone : dial.calls[place]? = none) :
    dial.step (.step place due) = dial := by
  rw [step]
  rw [hnone]

theorem step_of_call {place : Nat} {call : Arming} (hfound : dial.calls[place]? = some call)
    (due : Nat) :
    dial.step (.step place due) =
      { alarm := (call.step due dial.alarm).2
        calls := dial.calls.set place (call.step due dial.alarm).1 } := by
  rw [step]
  rw [hfound]

theorem length_calls_step (dial : Dial) (event : Event) :
    dial.calls.length ≤ (dial.step event).calls.length := by
  cases event with
  | call => simp [step]
  | step place due =>
      cases hfound : dial.calls[place]? with
      | none => simp [step_of_none hfound]
      | some call => simp [step_of_call hfound due]
  | cancel => exact Nat.le_refl _
  | expire generation => exact Nat.le_refl _

theorem length_calls_run (dial : Dial) (events : List Event) :
    dial.calls.length ≤ (dial.run events).calls.length := by
  induction events generalizing dial with
  | nil => exact Nat.le_refl _
  | cons event events ih => exact Nat.le_trans (dial.length_calls_step event) (ih _)

theorem IsFew.of_step (hfew : (dial.step event).IsFew) : dial.IsFew :=
  Nat.lt_of_le_of_lt (dial.length_calls_step event) hfew

theorem IsFew.of_run {events : List Event} (hfew : (dial.run events).IsFew) : dial.IsFew :=
  Nat.lt_of_le_of_lt (dial.length_calls_run events) hfew

/-! ## Numbers -/

/-- The number that each call has drawn. -/
def numbers (dial : Dial) : List (Option UInt64) :=
  dial.calls.map Arming.generation?

/-- As many numbers were drawn as the last of them says, and all of them differ. -/
structure IsNumbered (drawn : UInt64) (given : List (Option UInt64)) : Prop where
  count : drawn.toNat = given.countP Option.isSome
  drawn_le : ∀ number, some number ∈ given → number.toNat ≤ drawn.toNat
  unique : ∀ (place other : Nat) (number : UInt64), given[place]? = some (some number) →
    given[other]? = some (some number) → place = other

section Numbers

variable {drawn : UInt64} {given : List (Option UInt64)} {place : Nat}

theorem IsNumbered.append_none (hnumbered : IsNumbered drawn given) :
    IsNumbered drawn (given ++ [none]) := by
  have hold (place : Nat) (number : UInt64)
      (hfound : (given ++ [none])[place]? = some (some number)) :
      given[place]? = some (some number) := by
    rw [List.getElem?_append] at hfound
    split at hfound
    · exact hfound
    · rw [List.getElem?_singleton] at hfound
      split at hfound <;> cases hfound
  refine ⟨?_, ?_, ?_⟩
  · simpa using hnumbered.count
  · intro number hmem
    obtain ⟨place, hplace⟩ := List.mem_iff_getElem?.mp hmem
    exact hnumbered.drawn_le number (List.mem_of_getElem? (hold place number hplace))
  · intro place other number hplace hother
    exact hnumbered.unique place other number (hold place number hplace)
      (hold other number hother)

/-- The next number is a new one, as long as numbers do not run out. -/
theorem IsNumbered.draw (hnumbered : IsNumbered drawn given)
    (hfound : given[place]? = some none) (hfew : given.length < UInt64.size) :
    IsNumbered (drawn + 1) (given.set place (some (drawn + 1))) := by
  obtain ⟨hlt, hget⟩ := List.getElem?_eq_some_iff.mp hfound
  have hcount : (given.set place (some (drawn + 1))).countP Option.isSome =
      drawn.toNat + 1 := by
    rw [List.countP_set hlt, hget, hnumbered.count]
    rfl
  have hroom : drawn.toNat + 1 < UInt64.size := by
    have hle : (given.set place (some (drawn + 1))).countP Option.isSome ≤ _ :=
      List.countP_le_length
    rw [hcount, List.length_set] at hle
    omega
  have hnext : (drawn + 1).toNat = drawn.toNat + 1 := by
    rw [UInt64.toNat_add]
    exact Nat.mod_eq_of_lt hroom
  have hfresh (other : Nat) : given[other]? ≠ some (some (drawn + 1)) := by
    intro hother
    have hle := hnumbered.drawn_le _ (List.mem_of_getElem? hother)
    omega
  refine ⟨hnext.trans hcount.symm, ?_, ?_⟩
  · intro number hmem
    obtain hmem | heq := List.mem_or_eq_of_mem_set hmem
    · have hle := hnumbered.drawn_le number hmem
      omega
    · exact Nat.le_of_eq (congrArg UInt64.toNat (Option.some.inj heq))
  · intro one other number hone hother
    rw [List.getElem?_set] at hone hother
    split at hone
    · next hplace =>
      subst hplace
      cases hone
      split at hother
      · assumption
      · exact absurd hother (hfresh other)
    · split at hother
      · next hplace =>
        subst hplace
        cases hother
        exact absurd hone (hfresh one)
      · exact hnumbered.unique one other number hone hother

end Numbers

/-! ## The slot -/

/-- The timer of a generation is about to be started, or it runs. -/
def IsPending (dial : Dial) (generation : UInt64) : Prop :=
  .starting generation ∈ dial.calls ∨
    .started generation ∈ dial.calls ∧
      ∃ timer ∈ dial.alarm.timers, timer.generation = generation

/-- Numbers are not drawn twice, and that in the slot belongs to a timer that is pending. -/
structure IsSound (dial : Dial) : Prop where
  numbered : IsNumbered dial.alarm.drawn dial.numbers
  pending : ∀ generation, dial.alarm.slot = some generation → dial.IsPending generation

/-- A number that came into the slot and left it. -/
def Retired (dial : Dial) (generation : UInt64) : Prop :=
  dial.HasInstalled generation ∧ dial.alarm.slot ≠ some generation

theorem isSound_silent : silent.IsSound where
  numbered := by
    refine ⟨rfl, ?_, ?_⟩
    · intro number hmem
      cases hmem
    · intro place other number hplace
      cases hplace
  pending := nofun

theorem IsPending.hasInstalled (hpending : dial.IsPending generation) :
    dial.HasInstalled generation := by
  obtain hmem | ⟨hmem, -⟩ := hpending
  · exact ⟨_, hmem, rfl, rfl⟩
  · exact ⟨_, hmem, rfl, rfl⟩

/-- A step that draws no number leaves the numbers as they were. -/
theorem IsSound.numbered_set (hsound : dial.IsSound) {place : Nat} {call next : Arming}
    (hfound : dial.calls[place]? = some call) (hsame : next.generation? = call.generation?) :
    IsNumbered dial.alarm.drawn ((dial.calls.set place next).map Arming.generation?) := by
  rw [map_set_of_eq hfound hsame]
  exact hsound.numbered

/-- Another call that has drawn its number is still there after a step. -/
theorem mem_set_of_ne {place : Nat} {call next other : Arming}
    (hfound : dial.calls[place]? = some call) (hother : other ∈ dial.calls)
    (hne : other ≠ call) : other ∈ dial.calls.set place next := by
  obtain hsame | hkept := eq_or_mem_set next hfound hother
  · exact absurd hsame hne
  · exact hkept

/-- A call makes its next step. -/
theorem IsSound.advance (hsound : dial.IsSound) (hfew : dial.IsFew) {place : Nat}
    {call : Arming} (hfound : dial.calls[place]? = some call) (due : Nat) :
    IsSound
      { alarm := (call.step due dial.alarm).2
        calls := dial.calls.set place (call.step due dial.alarm).1 } := by
  obtain ⟨hlt, hget⟩ := List.getElem?_eq_some_iff.mp hfound
  cases call with
  | drawing =>
      constructor
      · have hnone : dial.numbers[place]? = some none := by
          rw [numbers, List.getElem?_map, hfound]
          rfl
        have hroom : dial.numbers.length < UInt64.size := by
          rw [numbers, List.length_map]
          exact hfew
        rw [numbers, List.map_set]
        exact hsound.numbered.draw hnone hroom
      · intro generation hslot
        obtain hmem | ⟨hmem, htimer⟩ := hsound.pending generation hslot
        · exact .inl (mem_set_of_ne hfound hmem nofun)
        · exact .inr ⟨mem_set_of_ne hfound hmem nofun, htimer⟩
  | installing generation =>
      refine ⟨hsound.numbered_set hfound rfl, ?_⟩
      intro other hslot
      cases hslot
      exact .inl (List.mem_set hlt _)
  | starting generation =>
      refine ⟨hsound.numbered_set hfound rfl, ?_⟩
      intro other hslot
      by_cases hother : other = generation
      · subst hother
        exact .inr ⟨List.mem_set hlt _, _, List.mem_append_right _ List.mem_cons_self, rfl⟩
      · obtain hmem | ⟨hmem, timer, htimer, hgeneration⟩ := hsound.pending other hslot
        · refine .inl (mem_set_of_ne hfound hmem ?_)
          intro hsame
          exact hother (Arming.starting.inj hsame)
        · exact .inr ⟨mem_set_of_ne hfound hmem nofun, timer, List.mem_append_left _ htimer,
            hgeneration⟩
  | started generation =>
      have hsame : dial.calls.set place (.started generation) = dial.calls := by
        rw [← hget, List.set_getElem_self]
      simp only [Arming.step, hsame]
      exact hsound

theorem IsSound.step (hsound : dial.IsSound) (event : Event)
    (hfew : (dial.step event).IsFew) : (dial.step event).IsSound := by
  cases event with
  | call =>
      constructor
      · change IsNumbered dial.alarm.drawn
          ((dial.calls ++ [Arming.drawing]).map Arming.generation?)
        rw [List.map_append]
        exact hsound.numbered.append_none
      · intro generation hslot
        obtain hmem | ⟨hmem, htimer⟩ := hsound.pending generation hslot
        · exact .inl (List.mem_append_left _ hmem)
        · exact .inr ⟨List.mem_append_left _ hmem, htimer⟩
  | cancel => exact ⟨hsound.numbered, nofun⟩
  | expire generation =>
      obtain ⟨hdrawn, hslot⟩ := expire_cases dial.alarm generation
      constructor
      · change IsNumbered (dial.alarm.expire generation).2.drawn dial.numbers
        rw [hdrawn]
        exact hsound.numbered
      · intro other hother
        obtain ⟨harmed, htimers⟩ := hslot other hother
        obtain hmem | ⟨hmem, timer, htimer, hgeneration⟩ := hsound.pending other harmed
        · exact .inl hmem
        · exact .inr ⟨hmem, timer, htimers timer htimer hgeneration, hgeneration⟩
  | step place due =>
      cases hfound : dial.calls[place]? with
      | none =>
          rw [step_of_none hfound]
          exact hsound
      | some call =>
          have hbefore : dial.IsFew := IsFew.of_step hfew
          rw [step_of_call hfound]
          exact hsound.advance hbefore hfound due

theorem IsSound.run (hsound : dial.IsSound) {events : List Event}
    (hfew : (dial.run events).IsFew) : (dial.run events).IsSound := by
  induction events generalizing dial with
  | nil => exact hsound
  | cons event events ih => exact ih (hsound.step event (IsFew.of_run hfew)) hfew

/-! ## Numbers that have left the slot -/

theorem HasInstalled.step (hinstalled : dial.HasInstalled generation) (event : Event) :
    (dial.step event).HasInstalled generation := by
  cases event with
  | call =>
      obtain ⟨call, hmem, hcall⟩ := hinstalled
      exact ⟨call, List.mem_append_left _ hmem, hcall⟩
  | cancel => exact hinstalled
  | expire other => exact hinstalled
  | step place due =>
      obtain ⟨other, hmem, hnumber, hother⟩ := hinstalled
      cases hfound : dial.calls[place]? with
      | none =>
          rw [step_of_none hfound]
          exact ⟨other, hmem, hnumber, hother⟩
      | some call =>
          rw [step_of_call hfound]
          obtain rfl | hkept := eq_or_mem_set (call.step due dial.alarm).1 hfound hmem
          · have hlt := (List.getElem?_eq_some_iff.mp hfound).1
            refine ⟨_, List.mem_set hlt _, ?_⟩
            cases other with
            | drawing => cases hother
            | installing number => cases hother
            | starting number => exact ⟨hnumber, rfl⟩
            | started number => exact ⟨hnumber, rfl⟩
          · exact ⟨other, hkept, hnumber, hother⟩

/-- A number that is yet to come into the slot has not been there. -/
theorem IsSound.ne_of_hasInstalled (hsound : dial.IsSound) {place : Nat} {next : UInt64}
    (hfound : dial.calls[place]? = some (.installing next))
    (hinstalled : dial.HasInstalled generation) : next ≠ generation := by
  rintro rfl
  obtain ⟨call, hmem, hnumber, hcall⟩ := hinstalled
  obtain ⟨other, hother⟩ := List.mem_iff_getElem?.mp hmem
  have hplace : place = other := by
    apply hsound.numbered.unique place other next
    · rw [numbers, List.getElem?_map, hfound]
      rfl
    · rw [numbers, List.getElem?_map, hother, Option.map_some, hnumber]
  subst hplace
  rw [hfound] at hother
  cases hother
  cases hcall

/-- A number that has left the slot does not come back. -/
theorem Retired.step (hretired : dial.Retired generation) (hsound : dial.IsSound)
    (event : Event) : (dial.step event).Retired generation := by
  obtain ⟨hinstalled, hgone⟩ := hretired
  refine ⟨hinstalled.step event, ?_⟩
  cases event with
  | call => exact hgone
  | cancel => exact nofun
  | expire other =>
      intro hslot
      exact hgone ((expire_cases dial.alarm other).2 generation hslot).1
  | step place due =>
      cases hfound : dial.calls[place]? with
      | none =>
          rw [step_of_none hfound]
          exact hgone
      | some call =>
          rw [step_of_call hfound]
          cases call with
          | installing next =>
              -- the one step that fills the slot does so with a number that was never there
              intro hslot
              exact hsound.ne_of_hasInstalled hfound hinstalled (Option.some.inj hslot)
          | _ => exact hgone

theorem Retired.run (hretired : dial.Retired generation) (hsound : dial.IsSound)
    {events : List Event} (hfew : (dial.run events).IsFew) :
    (dial.run events).Retired generation := by
  induction events generalizing dial with
  | nil => exact hretired
  | cons event events ih =>
      exact ih (hretired.step hsound event) (hsound.step event (IsFew.of_run hfew)) hfew

theorem Retired.not_canFire (hretired : dial.Retired generation) (hsound : dial.IsSound) :
    ¬dial.CanFire generation := by
  rintro ⟨later, hfew, ⟨hfires⟩⟩
  exact (hretired.run hsound hfew).2 (expire_eq_true_iff.mp hfires).1

/-- Both a timer that starts a pass and one that is disarmed lose the slot. -/
theorem IsSound.retired (hsound : dial.IsSound)
    (hends : dial.Fires event generation ∨ dial.Disarms event generation) :
    (dial.step event).Retired generation := by
  have harmed : dial.alarm.slot = some generation := by
    obtain ⟨⟨hfires⟩⟩ | hdisarms := hends
    · exact (expire_eq_true_iff.mp hfires).1
    · cases hdisarms <;> assumption
  have hinstalled := (hsound.pending generation harmed).hasInstalled
  refine ⟨hinstalled.step event, ?_⟩
  obtain ⟨⟨hfires⟩⟩ | hdisarms := hends
  · change (dial.alarm.expire generation).2.slot ≠ some generation
    rw [slot_of_fires hfires]
    exact nofun
  · cases hdisarms with
    | cancelled => exact nofun
    | replaced found =>
        rw [step_of_call found]
        intro hslot
        exact hsound.ne_of_hasInstalled found hinstalled (Option.some.inj hslot)

/-- Of the timers that came into the slot, only the one that is there can start a pass. -/
theorem IsSound.slot_of_canFire (hsound : dial.IsSound)
    (hinstalled : dial.HasInstalled generation) (hfires : dial.CanFire generation) :
    dial.alarm.slot = some generation := by
  by_cases harmed : dial.alarm.slot = some generation
  · exact harmed
  · have hretired : dial.Retired generation := ⟨hinstalled, harmed⟩
    exact absurd hfires (hretired.not_canFire hsound)

/-- The timer in the slot starts a pass when it expires, once it has been started. -/
theorem IsPending.canFire (hpending : dial.IsPending generation) (hfew : dial.IsFew)
    (harmed : dial.alarm.slot = some generation) : dial.CanFire generation := by
  obtain hstarting | ⟨-, htimer⟩ := hpending
  · obtain ⟨place, hplace⟩ := List.mem_iff_getElem?.mp hstarting
    have hstep := step_of_call hplace 0
    refine ⟨[.step place 0], ?_, .expired (expire_eq_true_iff.mpr ⟨?_, ?_⟩)⟩
    · have hlength : (dial.calls.set place (.started generation)).length = dial.calls.length :=
        List.length_set
      rw [run_cons, hstep]
      exact Nat.lt_of_le_of_lt (Nat.le_of_eq hlength) hfew
    · rw [run_cons, hstep]
      exact harmed
    · rw [run_cons, hstep]
      exact ⟨_, List.mem_append_right _ List.mem_cons_self, rfl⟩
  · exact ⟨[], hfew, .expired (expire_eq_true_iff.mpr ⟨harmed, htimer⟩)⟩

/-- However calls that arm the timer mix with one another, with cancellations and with
expiries: at most one timer that came into the slot can start a pass; a timer that started
a pass, was cancelled or was replaced never starts one afterwards; and a number in the
slot belongs to a timer that was neither disarmed nor started a pass, and can. -/
theorem timers_exclusive (events : List Event) (hfew : (silent.run events).IsFew) :
    let dial := silent.run events
    (∀ one other, dial.HasInstalled one → dial.HasInstalled other →
      dial.CanFire one → dial.CanFire other → one = other) ∧
    (∀ event generation, dial.Fires event generation ∨ dial.Disarms event generation →
      ¬(dial.step event).CanFire generation) ∧
    ∀ generation, dial.alarm.slot = some generation →
      (∀ before event after, events = before ++ event :: after →
        ¬((silent.run before).Fires event generation ∨
          (silent.run before).Disarms event generation)) ∧
      dial.IsPending generation ∧ dial.CanFire generation := by
  intro dial
  have hsound : dial.IsSound := isSound_silent.run hfew
  refine ⟨?_, ?_, ?_⟩
  · intro one other hone hother hfirst hsecond
    have hslot := hsound.slot_of_canFire hone hfirst
    rw [hsound.slot_of_canFire hother hsecond] at hslot
    exact (Option.some.inj hslot).symm
  · intro event generation hends
    have hretired := hsound.retired hends
    rintro ⟨later, hlater, hfires⟩
    have hafter : (dial.step event).IsFew := IsFew.of_run hlater
    exact hretired.not_canFire (hsound.step event hafter) ⟨later, hlater, hfires⟩
  · intro generation harmed
    have hpending := hsound.pending generation harmed
    refine ⟨?_, hpending, hpending.canFire hfew harmed⟩
    rintro before event after rfl hends
    have hrest : (((silent.run before).step event).run after).IsFew := by
      rw [run_append] at hfew
      exact hfew
    have hafter : ((silent.run before).step event).IsFew := hrest.of_run
    have hbefore : (silent.run before).IsSound :=
      isSound_silent.run hafter.of_step
    have hretired := (hbefore.retired hends).run (hbefore.step event hafter) hrest
    apply hretired.2
    rw [← run_cons, ← run_append]
    exact harmed

/-! ## A number that comes late -/

/-- The second call is faster, and the number of the first is still to come. -/
def overtaken : List Event :=
  [.call, .call, .step 0 7, .step 1 9, .step 1 9, .step 1 9]

theorem timers_exclusive_overtaken :
    (silent.run overtaken).IsFew ∧ (silent.run overtaken).Disarms (.step 0 7) 2 ∧
      ((silent.run overtaken).step (.step 0 7)).alarm.slot = some 1 ∧
      ¬((silent.run overtaken).step (.step 0 7)).CanFire 2 := by
  have hfew : (silent.run overtaken).IsFew := by
    change 2 < UInt64.size
    decide
  have hdisarms : (silent.run overtaken).Disarms (.step 0 7) 2 := .replaced rfl rfl
  exact ⟨hfew, hdisarms, rfl, (timers_exclusive overtaken hfew).2.1 _ _ (.inr hdisarms)⟩

end Dial

end Scorekeeper.Save
