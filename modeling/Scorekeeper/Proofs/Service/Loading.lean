import Scorekeeper.Proofs.Card.Storage
import Scorekeeper.Proofs.Outcome
import Scorekeeper.Proofs.Save.Copies
import Scorekeeper.Service.State

/-!
# Loading a card after it was saved

Loading takes the copy of a card in the queue before the one in the store, on the
understanding that it is the newer one.  This file proves which saved payload the loaded
card comes from, after any saves and passes that came in turn.
-/

namespace Scorekeeper.Service

open Queue Remote Save Files

/-- What the store gives back for a document is the text that it took last, read as
JSON. -/
def Serves (outside : Outside) (documents : List (String × String)) : Prop :=
  ∀ key value, outside.download key = .ok (some value) →
    ∃ text, documents.lookup key.path = some text ∧
      Json.Codec.any.readText text = .ok value

/-- The card is the one that a text describes, which was read from the queue or came back
from the store. -/
inductive Describes (text : String) (card : Card) : Prop where
  | queued (document : ScorecardDocument)
      (read : ScorecardDocument.codec.readText text = .ok document)
      (made : Card.ofDocument document = .ok card)
  | stored (value : Json) (document : ScorecardDocument)
      (parsed : Json.Codec.any.readText text = .ok value)
      (read : ScorecardDocument.codec.readJson value = .ok document)
      (made : Card.ofDocument document = .ok card)

/-- An exact card is the only one that its text describes. -/
theorem Describes.eq_of_isExact {saved card : Card} (hdescribes : Describes saved.payload card)
    (hexact : saved.IsExact) (hholes : saved.course.holes ≤ holeLimit)
    (hplayers : saved.players.length < UInt32.size) : card = saved := by
  cases hdescribes with
  | queued document read made =>
      obtain ⟨found, hfound, hsaved⟩ := hexact.readText_payload hholes hplayers
      obtain rfl := Except.ok.inj (read.symm.trans hfound)
      exact Except.ok.inj (made.symm.trans hsaved)
  | stored value document parsed read made =>
      obtain ⟨found, hfound, hsaved⟩ :=
        hexact.readJson_reordered hholes hplayers (Card.reordered_of_readText parsed)
      obtain rfl := Except.ok.inj (read.symm.trans hfound)
      exact Except.ok.inj (made.symm.trans hsaved)

namespace State

variable {state : State} {outside : Outside} {id : ScorecardId} {card : Card}

/-- A card that loads has the right id and is made from the document that was fetched. -/
theorem load_eq_ok_iff :
    state.load outside id.text = .ok card ↔
      ∃ document, state.fetch outside id = .ok document ∧
        Card.ofDocument document = .ok card ∧ card.id = id := by
  simp only [load, bind_eq_ok_iff, mapError_eq_ok_iff, id.parse_text]
  constructor
  · rintro ⟨parsed, hparsed, document, hfetch, made, hmade, hchecked⟩
    cases hparsed
    split at hchecked
    · next hid =>
      cases hchecked
      exact ⟨document, hfetch, hmade, hid⟩
    · cases hchecked
  · rintro ⟨document, hfetch, hmade, hid⟩
    refine ⟨id, rfl, document, hfetch, card, hmade, ?_⟩
    rw [if_pos hid]
    rfl

/-- What is fetched when the queue has no copy. -/
def fetchStored (outside : Outside) (id : ScorecardId) : Except Refusal ScorecardDocument :=
  match outside.download (.scorecard id.text) with
  | .error e => .error (.storage e)
  | .ok none => .error (.unknownCard id)
  | .ok (some data) =>
    (ScorecardDocument.codec.readJson data).mapError (.malformed .remoteCard)

theorem fetchStored_eq_ok_iff {document : ScorecardDocument} :
    fetchStored outside id = .ok document ↔
      ∃ value, outside.download (.scorecard id.text) = .ok (some value) ∧
        ScorecardDocument.codec.readJson value = .ok document := by
  rw [fetchStored]
  cases outside.download (.scorecard id.text) with
  | error error => simp
  | ok stored => cases stored <;> simp [mapError_eq_ok_iff]

theorem fetch_of_queued {payload : String}
    (hqueued : get outside.luck (keyFor state.session.base id.text) state.world.folder =
      .ok (some payload)) :
    state.fetch outside id =
      (ScorecardDocument.codec.readText payload).mapError (.malformed .queuedCard) := by
  rw [fetch]
  rw [hqueued]

theorem fetch_of_empty
    (hempty : ∀ payload, get outside.luck (keyFor state.session.base id.text)
      state.world.folder ≠ .ok (some payload)) :
    state.fetch outside id = fetchStored outside id := by
  rw [fetch]
  cases hget : get outside.luck (keyFor state.session.base id.text) state.world.folder with
  | ok queued =>
      cases queued with
      | some payload => exact absurd hget (hempty payload)
      | none => rfl
  | error error => rfl

/-- What is loaded is described by what is found for the card. -/
theorem describes_of_load {base found : String} (hbase : state.session.base = base)
    (hluck : outside.luck = .fine) (hserves : Serves outside state.world.documents)
    (hfinds : Finds base state.world.folder state.world.documents id found)
    (hload : state.load outside id.text = .ok card) : Describes found card := by
  subst hbase
  obtain ⟨document, hfetch, hmade, -⟩ := load_eq_ok_iff.mp hload
  obtain hholds | ⟨hnone, hstored⟩ := hfinds
  · rw [Holds] at hholds
    rw [← hluck] at hholds
    rw [fetch_of_queued hholds, mapError_eq_ok_iff] at hfetch
    exact .queued document hfetch hmade
  · have hempty (payload : String) : get outside.luck (keyFor state.session.base id.text)
        state.world.folder ≠ .ok (some payload) := by
      rw [hluck]
      exact hnone payload
    rw [fetch_of_empty hempty, fetchStored_eq_ok_iff] at hfetch
    obtain ⟨value, hdownload, hread⟩ := hfetch
    obtain ⟨text, htext, hparsed⟩ := hserves _ value hdownload
    rw [hstored] at htext
    cases htext
    exact .stored value document hparsed hread hmade

theorem loadCard_of_load {text : String} (hload : state.load outside text = .ok card) :
    state.loadCard outside text =
      (.ok (state.cardView card), { state with card := some card }) := by
  rw [loadCard]
  rw [hload]

theorem exists_load_of_loadCard {text : String} {view : Json}
    (hload : (state.loadCard outside text).1 = .ok view) :
    ∃ card, state.load outside text = .ok card ∧
      (state.loadCard outside text).2.card = some card := by
  cases hcard : state.load outside text with
  | ok card =>
      rw [loadCard_of_load hcard]
      exact ⟨card, rfl, rfl⟩
  | error refusal =>
      rw [loadCard] at hload
      rw [hcard] at hload
      cases hload

end State

open World

/-- Which payload a loaded card comes from.  A session has its folder to itself, and its
saves, passes, resumptions and timers come in turn, with any luck.  Take the newest save
of a card that the store or the queue took.  When the card is loaded then and the queue
can be read, the card that becomes active is the one that the saved payload describes,
unless another payload outlived the save: one that stood in the entry when the store took
the new one.  In that case it is that other payload which the card comes from. -/
theorem loadCard_newest (base : String) (interval : Nat) (process : UInt32)
    (folder : Folder) {before after : List (Save.Event 1)} {event : Save.Event 1}
    {state : State} {outside : Outside} {snapshot : Snapshot} {outcome : Outcome}
    {view : Json}
    (hworld : state.world = (World.alone base interval process folder).run
      (before ++ event :: after))
    (hturn : (World.alone base interval process folder).InTurn
      (before ++ event :: after))
    (hidle : state.world.IsIdle) (haccepted : outcome ≠ .notQueued)
    (hends : ((World.alone base interval process folder).run before).Ends event
      (.saved snapshot outcome))
    (hnewest : ∀ middle later rest text outcome, after = middle ++ later :: rest →
      outcome ≠ .notQueued →
      ¬((World.alone base interval process folder).run
        (before ++ event :: middle)).Ends later (.saved ⟨snapshot.id, text⟩ outcome))
    (hluck : outside.luck = .fine) (hserves : Serves outside state.world.documents)
    (hload : (state.loadCard outside snapshot.id.text).1 = .ok view) :
    let world := (World.alone base interval process folder).run before
    ∃ card text, (state.loadCard outside snapshot.id.text).2.card = some card ∧
      Describes text card ∧
        (world.Outlives base snapshot outcome text ∨
          text = snapshot.payload ∧
            ∀ other, ¬world.Outlives base snapshot outcome other) := by
  intro world
  obtain ⟨hbefore, hadmits, hafter⟩ := inTurn_append_iff.mp hturn
  have hcoherent : world.IsCoherent base :=
    (isCoherent_new base interval process folder).run hbefore
  have hnext := hcoherent.step hadmits
  obtain ⟨found, hfinds, hcases⟩ := hcoherent.finds_of_ends hadmits haccepted hends
  have hrun (middle : List (Save.Event 1)) :
      (World.alone base interval process folder).run (before ++ event :: middle) =
        (world.step event).run middle := by
    rw [run_append]
    rfl
  rw [hrun] at hworld
  have hsettles : state.world.Settles base snapshot.id found := by
    rw [hworld]
    apply hnext.settles_run hafter _ (.inl hfinds)
    intro middle later rest hsplit text outcome hok
    rw [← hrun]
    exact hnewest middle later rest text outcome hsplit hok
  have hlast : state.world.IsCoherent base := by
    rw [hworld]
    exact hnext.run hafter
  have hfound : Finds base state.world.folder state.world.documents snapshot.id found := by
    obtain hfound | ⟨text, stage, hclearing⟩ := hsettles
    · exact hfound
    · have hended := hlast.orderly.isIdle_iff.mp hidle
      rw [hclearing] at hended
      cases hended
  obtain ⟨card, hcard, hactive⟩ := State.exists_load_of_loadCard hload
  have hbase : state.session.base = base := hlast.sound.bases 0
  exact ⟨card, found, hactive,
    State.describes_of_load hbase hluck hserves hfound hcard, hcases⟩

/-! ## A card that is loaded after it was saved twice -/

def links : Course where
  id := "links"
  labels := ["1"]
  pars := [3]
  enabled := true
  labels_ne_nil := by decide
  length_eq := rfl
  inRange := by
    intro par hpar
    rw [List.mem_singleton.mp hpar]
    decide

def linksCard : ScorecardId where
  text := "5-eeeeee"
  wellFormed := by decide

/-- A round with one player who has not played yet. -/
def roundWith (notes : String) : Card :=
  { Card.blank linksCard links [3] notes with players := [.new 1 none 1] }

def keptText : String :=
  (roundWith "kept").payload

def takenText : String :=
  (roundWith "taken").payload

/-- The queue keeps the first text of the card, and the store takes the second. -/
def keptAndTaken : List (Save.Event 1) :=
  [.save sole ⟨linksCard, keptText⟩, .answer 0 (.error (.unavailable "offline")),
    .call 0 .fine, .save sole ⟨linksCard, takenText⟩, .answer 1 (.ok ())]

def openingWorld : World 1 :=
  World.alone "queue" 15000 1 .absent

def settledState : State where
  world := (openingWorld.run keptAndTaken).step (.call 1 .fine)
  cells := { userspace := none, courses := [] }
  card := none

/-- A store that gives back what it took. -/
def readingStore (documents : List (String × String)) : Outside where
  download key :=
    match documents.lookup key.path with
    | none => .ok none
    | some text => (Json.Codec.any.readText text).toOption.elim
        (.error (.unavailable "offline")) fun value => .ok (some value)
  probe := .ok ()
  luck := .fine
  draw := { millis := 5, picks := .replicate 6 4 }

theorem serves_readingStore (documents : List (String × String)) :
    Serves (readingStore documents) documents := by
  intro key value hdownload
  rw [readingStore] at hdownload
  dsimp only at hdownload
  split at hdownload
  · cases hdownload
  · next text hlookup =>
    cases hread : Json.Codec.any.readText text with
    | ok read =>
        rw [hread] at hdownload
        cases hdownload
        exact ⟨text, hlookup, hread⟩
    | error problem =>
        rw [hread] at hdownload
        cases hdownload

theorem isExact_roundWith (notes : String) : (roundWith notes).IsExact := by
  apply Card.isExact_blank rfl links.inRange (List.cons_ne_nil _ _)
  · intro player hmem
    rw [List.mem_singleton.mp hmem]
    exact Player.isExact_new 1 none (by decide)
  · exact Card.areNumbered_new none 1

/-- What the text of a round describes has the notes of the round. -/
theorem notes_of_describes (notes : String) {card : Card}
    (hdescribes : Describes (roundWith notes).payload card) : card.notes = notes := by
  rw [hdescribes.eq_of_isExact (isExact_roundWith notes) (by decide : 1 ≤ holeLimit)
    (by decide : 1 < UInt32.size)]
  rfl

theorem readText_roundWith (notes : String) :
    ∃ document, ScorecardDocument.codec.readText (roundWith notes).payload = .ok document ∧
      Card.ofDocument document = .ok (roundWith notes) :=
  (isExact_roundWith notes).readText_payload (by decide : 1 ≤ holeLimit)
    (by decide : 1 < UInt32.size)

theorem keptText_ne_takenText : keptText ≠ takenText := by
  intro hsame
  obtain ⟨document, hread, hmade⟩ := readText_roundWith "kept"
  have hnotes := notes_of_describes "taken"
    (.queued document (hsame ▸ hread : ScorecardDocument.codec.readText takenText = _) hmade)
  exact absurd hnotes (by decide)

theorem inTurn_keptAndTaken :
    openingWorld.InTurn (keptAndTaken ++ [.call 1 .fine]) := by
  refine ⟨?_, trivial, trivial, ?_, trivial, trivial, trivial⟩
  · intro job hmem
    cases hmem
  · intro job hmem
    have hjob : job ∈ [Job.mk (0 : Fin 1) (.saved ⟨linksCard, keptText⟩ .queued)] := hmem
    rw [List.mem_singleton.mp hjob]
    rfl

theorem settledState_world_eq :
    settledState.world = (openingWorld.run keptAndTaken).proceed 1 sole
      (((openingWorld.run keptAndTaken).sessions.get sole).callStep 0 .fine
        (openingWorld.run keptAndTaken).folder
        (.clearing ⟨linksCard, takenText⟩ .comparing)) := by
  have hfound : (openingWorld.run keptAndTaken).jobs[1]? =
      some { session := 0, task := .clearing ⟨linksCard, takenText⟩ .comparing } := rfl
  exact step_call hfound .fine

theorem ends_keptAndTaken :
    (openingWorld.run keptAndTaken).Ends (.call 1 .fine)
      (.saved ⟨linksCard, takenText⟩ .saved) := by
  have hlast : 1 + 1 = (openingWorld.run keptAndTaken).jobs.length := rfl
  have hcurrent : settledState.world.current = .saved ⟨linksCard, takenText⟩ .saved := by
    rw [settledState_world_eq, current_of_set hlast rfl, Session.task_callStep_clearing]
  exact ⟨rfl, hcurrent⟩

theorem isCoherent_keptAndTaken :
    (openingWorld.run keptAndTaken).IsCoherent "queue" :=
  (isCoherent_new "queue" 15000 1 .absent).run (inTurn_append_iff.mp inTurn_keptAndTaken).1

theorem isCoherent_settledState : settledState.world.IsCoherent "queue" := by
  change ((openingWorld.run keptAndTaken).step (.call 1 .fine)).IsCoherent "queue"
  exact isCoherent_keptAndTaken.step (inTurn_append_iff.mp inTurn_keptAndTaken).2.1

theorem isIdle_settledState : settledState.world.IsIdle := by
  rw [isCoherent_settledState.orderly.isIdle_iff]
  change ((openingWorld.run keptAndTaken).step (.call 1 .fine)).current.isFinished = true
  rw [ends_keptAndTaken.2]
  rfl

/-- The first text outlives the save of the second. -/
theorem holds_keptText :
    Holds settledState.world.folder (keyFor "queue" linksCard.text) keptText := by
  have hholds : Holds (openingWorld.run keptAndTaken).folder (keyFor "queue" linksCard.text)
      keptText := holds_iff.mpr ⟨⟨by decide, by decide, by decide⟩, rfl⟩
  obtain ⟨found, hfinds, houtlives | ⟨-, hnone⟩⟩ :=
    isCoherent_keptAndTaken.finds_of_ends (inTurn_append_iff.mp inTurn_keptAndTaken).2.1
      Outcome.noConfusion ends_keptAndTaken
  · obtain rfl := holds_unique hholds houtlives.2.1
    obtain hfound | ⟨-, hstored⟩ := hfinds
    · exact hfound
    · have hdocuments : settledState.world.documents =
          (openingWorld.run keptAndTaken).documents := by
        rw [settledState_world_eq]
        rfl
      change settledState.world.documents.lookup _ = _ at hstored
      rw [hdocuments] at hstored
      exact absurd (Option.some.inj hstored).symm keptText_ne_takenText
  · exact absurd ⟨rfl, hholds, keptText_ne_takenText⟩ (hnone keptText)

theorem loadCard_settledState {outside : Outside} (hluck : outside.luck = .fine) :
    settledState.loadCard outside linksCard.text =
      (.ok (settledState.cardView (roundWith "kept")),
        { settledState with card := some (roundWith "kept") }) := by
  have hbase : settledState.session.base = "queue" := isCoherent_settledState.sound.bases 0
  have hqueued : get outside.luck (keyFor settledState.session.base linksCard.text)
      settledState.world.folder = .ok (some keptText) := by
    rw [hluck, hbase]
    exact holds_keptText
  obtain ⟨document, hread, hmade⟩ := readText_roundWith "kept"
  have hfetch : settledState.fetch outside linksCard = .ok document := by
    rw [State.fetch_of_queued hqueued, keptText, hread]
    rfl
  apply State.loadCard_of_load
  rw [State.load_eq_ok_iff]
  exact ⟨document, hfetch, hmade, rfl⟩

/-- The newest text was taken by the store, and another one is loaded. -/
theorem not_describes_newest_keptAndTaken :
    openingWorld.InTurn (keptAndTaken ++ [.call 1 .fine]) ∧ settledState.world.IsIdle ∧
      (openingWorld.run keptAndTaken).Ends (.call 1 .fine)
        (.saved ⟨linksCard, takenText⟩ .saved) ∧
      ¬∀ view card, (settledState.loadCard (readingStore settledState.world.documents)
        linksCard.text) = (.ok view, { settledState with card := some card }) →
          Describes takenText card := by
  refine ⟨inTurn_keptAndTaken, isIdle_settledState, ends_keptAndTaken, fun hdescribes => ?_⟩
  have hnotes := notes_of_describes "taken" (hdescribes _ _ (loadCard_settledState rfl))
  exact absurd hnotes (by decide)

theorem loadCard_newest_keptAndTaken :
    openingWorld.InTurn (keptAndTaken ++ [.call 1 .fine]) ∧ settledState.world.IsIdle ∧
      ∃ card text, (settledState.loadCard (readingStore settledState.world.documents)
          linksCard.text).2.card = some card ∧ Describes text card ∧
        ((openingWorld.run keptAndTaken).Outlives "queue" ⟨linksCard, takenText⟩ .saved text ∨
          text = takenText ∧ ∀ other, ¬(openingWorld.run keptAndTaken).Outlives "queue"
            ⟨linksCard, takenText⟩ .saved other) := by
  refine ⟨inTurn_keptAndTaken, isIdle_settledState, ?_⟩
  have hload := congrArg Prod.fst (loadCard_settledState
    (show (readingStore settledState.world.documents).luck = .fine from rfl))
  have hworld : settledState.world = openingWorld.run (keptAndTaken ++ [.call 1 .fine]) := by
    rw [run_append]
    rfl
  have hnewest : ∀ middle later rest text outcome, [] = middle ++ later :: rest →
      outcome ≠ .notQueued →
      ¬(openingWorld.run (keptAndTaken ++ .call 1 .fine :: middle)).Ends later
        (.saved ⟨linksCard, text⟩ outcome) := by
    intro middle later rest text outcome hsplit
    cases middle <;> cases hsplit
  have hserves := serves_readingStore settledState.world.documents
  have haccepted : Outcome.saved ≠ .notQueued := nofun
  have hloaded := loadCard_newest "queue" 15000 1 .absent hworld inTurn_keptAndTaken
    isIdle_settledState haccepted ends_keptAndTaken hnewest rfl hserves hload
  dsimp only at hloaded
  exact hloaded

end Scorekeeper.Service
