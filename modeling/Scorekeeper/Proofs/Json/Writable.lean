import Scorekeeper.Card.Archive
import Scorekeeper.Proofs.Outcome

/-!
# Cards can be written

Only the key of a map can stand in the way when a value is written.  Here every kind of
codec is shown to keep out of the way: what it takes apart goes together again to the value
that it encodes, since the keys of its maps are names drawn from a fixed set.  So a card can
always be written, and its text is its payload.
-/

namespace Scorekeeper

namespace Json

variable {A B C : Type}

/-- What the codec takes apart can be written, and is the value that it encodes. -/
def Codec.IsWritable (codec : Codec A) : Prop :=
  ∀ value, (codec.datum value).json = .ok (codec.encode value)

/-- The fields of a record can be written, and are those that it encodes. -/
def Record.IsWritable (record : Record B A) : Prop :=
  ∀ value, Datum.jsonFields (record.fields value) = .ok (record.write value)

namespace Datum

variable {apart : A → Datum} {encode : A → Json}

theorem jsonItems_map (hjson : ∀ value, (apart value).json = .ok (encode value))
    (values : List A) : jsonItems (values.map apart) = .ok (values.map encode) := by
  induction values with
  | nil => rfl
  | cons value values ih =>
      exact bind_eq_ok_iff.mpr ⟨_, hjson value, bind_eq_ok_iff.mpr ⟨_, ih, rfl⟩⟩

/-- The entries of a map whose keys have names. -/
theorem jsonEntries_map {key : B → Datum} {name : B → String}
    (hname : ∀ value, (key value).name? = some (name value))
    (hjson : ∀ value, (apart value).json = .ok (encode value)) (entries : List (B × A)) :
    jsonEntries (entries.map fun (first, value) => (key first, apart value)) =
      .ok (entries.map fun (first, value) => (name first, encode value)) := by
  induction entries with
  | nil => rfl
  | cons entry entries ih =>
      obtain ⟨first, value⟩ := entry
      rw [List.map_cons, jsonEntries, hname]
      exact bind_eq_ok_iff.mpr ⟨_, hjson value, bind_eq_ok_iff.mpr ⟨_, ih, rfl⟩⟩

theorem jsonFields_append {fields more : List (String × Datum)}
    {members others : List (String × Json)} (hfields : jsonFields fields = .ok members)
    (hmore : jsonFields more = .ok others) :
    jsonFields (fields ++ more) = .ok (members ++ others) := by
  induction fields generalizing members with
  | nil =>
      cases hfields
      exact hmore
  | cons field fields ih =>
      obtain ⟨name, datum⟩ := field
      obtain ⟨value, hvalue, hlater⟩ := bind_eq_ok_iff.mp hfields
      obtain ⟨rest, hrest, hmembers⟩ := bind_eq_ok_iff.mp hlater
      cases hmembers
      exact bind_eq_ok_iff.mpr ⟨_, hvalue, bind_eq_ok_iff.mpr ⟨_, ih hrest, rfl⟩⟩

end Datum

/-! ## Codecs -/

namespace Codec

variable {codec : Codec A}

theorem isWritable_text : text.IsWritable :=
  fun _ => rfl

theorem isWritable_flag : flag.IsWritable :=
  fun _ => rfl

theorem isWritable_word32 : word32.IsWritable :=
  fun _ => rfl

theorem IsWritable.list (hcodec : codec.IsWritable) : codec.list.IsWritable := by
  intro values
  exact map_eq_ok_iff.mpr ⟨_, Datum.jsonItems_map hcodec values, rfl⟩

/-- The keys are names drawn from a fixed set. -/
theorem IsWritable.entries [BEq B] (hcodec : codec.IsWritable) (ofName? : String → Option B)
    (name : B → String) : (Codec.entries ofName? name codec).IsWritable := by
  intro values
  have hname (key : B) : (Datum.choice (name key)).name? = some (name key) := rfl
  exact map_eq_ok_iff.mpr ⟨_, Datum.jsonEntries_map hname hcodec values, rfl⟩

theorem IsWritable.write_eq (hcodec : codec.IsWritable) (value : A) :
    codec.write value = .ok (codec.print value) :=
  map_eq_ok_iff.mpr ⟨_, hcodec value, rfl⟩

end Codec

namespace Record

theorem isWritable_of (make : A) : (of make : Record B A).IsWritable :=
  fun _ => rfl

theorem IsWritable.add {record : Record B (A → C)} (hrecord : record.IsWritable)
    {codec : Codec A} (hcodec : codec.IsWritable) (name : String) (default? : Option A)
    (get : B → A) : (record.add name codec default? get).IsWritable := by
  intro value
  apply Datum.jsonFields_append (hrecord value)
  exact bind_eq_ok_iff.mpr ⟨_, hcodec (get value), rfl⟩

theorem IsWritable.codec {record : Record A A} (hrecord : record.IsWritable) :
    record.codec.IsWritable := by
  intro value
  exact map_eq_ok_iff.mpr ⟨_, hrecord value, rfl⟩

end Record

end Json

open Json Codec

/-! ## Documents -/

theorem CourseDocument.isWritable_codec : CourseDocument.codec.IsWritable :=
  ((((Record.isWritable_of _).add isWritable_text _ _ _).add isWritable_text.list _ _ _).add
    isWritable_word32.list _ _ _).add isWritable_flag _ _ _ |>.codec

theorem ScoreDocument.isWritable_codec : ScoreDocument.codec.IsWritable :=
  ((Record.isWritable_of _).add isWritable_word32 _ _ _).add isWritable_text _ _ _ |>.codec

theorem PlayerDocument.isWritable_codec : PlayerDocument.codec.IsWritable :=
  (((((Record.isWritable_of _).add isWritable_word32 _ _ _).add isWritable_text _ _ _).add
    ScoreDocument.isWritable_codec.list _ _ _).add ScoreDocument.isWritable_codec _ _ _).add
    (isWritable_word32.entries Rank.ofKey? Rank.key) _ _ _ |>.codec

theorem ScorecardDocument.isWritable_codec : ScorecardDocument.codec.IsWritable :=
  (((((((Record.isWritable_of _).add isWritable_text _ _ _).add
    CourseDocument.isWritable_codec _ _ _).add isWritable_text.list _ _ _).add
    isWritable_word32.list _ _ _).add isWritable_word32 _ _ _).add
    PlayerDocument.isWritable_codec.list _ _ _).add isWritable_text _ _ _ |>.codec

/-- Nothing in a card stands in the way when it is written. -/
theorem Card.serialize_eq (card : Card) : card.serialize = .ok (card.id, card.payload) :=
  map_eq_ok_iff.mpr ⟨_, ScorecardDocument.isWritable_codec.write_eq card.document, rfl⟩

end Scorekeeper
