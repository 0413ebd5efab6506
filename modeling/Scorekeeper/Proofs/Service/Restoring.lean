import Scorekeeper.Proofs.Card.Storage
import Scorekeeper.Proofs.Service.Format
import Scorekeeper.Proofs.Service.Loading

/-!
# Loading what was saved

A saved card comes back in one of two ways: as the text that waits in the queue, or as
the document that a store sends in its envelope.  A store may send the members of
objects in any order, and reading the envelope puts them in order of their names.  This
file proves that either way the card is the one that was saved.
-/

namespace Scorekeeper

open Json Codec Remote

namespace Remote

variable {levels status : Nat} {stored envelope : Json} {message label : Option String}

/-- An envelope of success gives the value in it back, with its members in some order. -/
theorem result_download (base : String) (key : DocumentKey) (hstatus : isSuccess status = true)
    (hplain : stored.IsPlain levels) (hnull : stored ≠ .null) (hlevels : levels < depthLimit)
    (henvelope : Reordered
      (Envelope.codec.encode ⟨.success, message, some stored, label⟩) envelope) :
    ∃ value, Call.result base (.download key)
        (.answered status (some envelope.text.toByteArray)) = .ok (some value) ∧
      Reordered stored value := by
  have hlawful := Envelope.isLawful_codec_reordered levels
  have hvalid : ∀ data ∈ some stored, data.IsPlain levels ∧ data ≠ .null := by
    intro data hdata
    cases hdata
    exact ⟨hplain, hnull⟩
  have htext := (hlawful.plain ⟨.success, message, some stored, label⟩ hvalid).reordered henvelope
  obtain ⟨read, hread, hsame, hdata⟩ :=
    hlawful.restores _ envelope.tree depthLimit hvalid hlevels ⟨envelope, henvelope, rfl⟩
  obtain ⟨status', message', data, label'⟩ := read
  cases hsame
  cases hdata with
  | @some _ value hvalue =>
      refine ⟨value, ?_, hvalue⟩
      have hopen : readEnvelope key.path (some envelope.text.toByteArray) =
          .ok ⟨.success, message, some value, label⟩ := by
        rw [readEnvelope, readBytes_text _ htext, hread]
      have hmissing : status ≠ 404 := by
        rintro rfl
        cases hstatus
      have hsome : value.isNull = false := by
        have hne := hvalue.ne_null hnull
        cases value <;> simp_all [isNull]
      rw [Call.result, downloadResult, if_neg hmissing, if_pos hstatus, Call.path, hopen]
      simp [orStorage, Except.map, Except.mapError, hsome]

end Remote

namespace Card

variable {card : Card} {stored : Json}

theorem IsExact.download_reordered (hexact : card.IsExact)
    (hholes : card.course.holes ≤ holeLimit) (hplayers : card.players.length < UInt32.size)
    (hstored : Reordered (ScorecardDocument.codec.encode card.document) stored)
    (base : String) (key : DocumentKey) {status : Nat} {message label : Option String}
    {envelope : Json} (hstatus : isSuccess status = true)
    (henvelope : Reordered
      (Envelope.codec.encode ⟨.success, message, some stored, label⟩) envelope) :
    ∃ value document, Call.result base (.download key)
        (.answered status (some envelope.text.toByteArray)) = .ok (some value) ∧
      ScorecardDocument.codec.readJson value = .ok document ∧
        ofDocument document = .ok card := by
  have hplain := card.isPlain_document.reordered hstored
  have hnull : stored ≠ .null := hstored.ne_null (by rintro ⟨⟩)
  obtain ⟨value, hvalue, hsame⟩ :=
    result_download base key hstatus hplain hnull (by decide) henvelope
  obtain ⟨document, hread, hmade⟩ :=
    hexact.readJson_reordered hholes hplayers (hstored.trans hsame)
  exact ⟨value, document, hvalue, hread, hmade⟩

/-- A card that was edited in any way and has not run out of numbers is restored from what
is saved of it: from the text that is queued, from the document in any order of members,
and from what is downloaded when a store sends such a document in an envelope of
success. -/
theorem restored_run (hopens : card.Opens) (hholes : card.course.holes ≤ holeLimit)
    (edits : List Edit) (hplayers : (card.run edits).players.length < UInt32.size) :
    let saved := card.run edits
    (∃ document, ScorecardDocument.codec.readText saved.payload = .ok document ∧
        ofDocument document = .ok saved) ∧
      ∀ stored, Reordered (ScorecardDocument.codec.encode saved.document) stored →
        (∃ document, ScorecardDocument.codec.readJson stored = .ok document ∧
            ofDocument document = .ok saved) ∧
          ∀ (base : String) (key : DocumentKey) (status : Nat) (message label : Option String)
            (envelope : Json), isSuccess status = true →
              Reordered (Envelope.codec.encode ⟨.success, message, some stored, label⟩)
                envelope →
                ∃ value document,
                  Call.result base (.download key)
                      (.answered status (some envelope.text.toByteArray)) =
                    .ok (some value) ∧
                  ScorecardDocument.codec.readJson value = .ok document ∧
                    ofDocument document = .ok saved := by
  intro saved
  have hexact : saved.IsExact := (hopens.isExact hholes).run hholes edits
  have hroom : saved.course.holes ≤ holeLimit := by
    rw [(run_keeps card edits).2]
    exact hholes
  refine ⟨hexact.readText_payload hroom hplayers, ?_⟩
  intro stored hstored
  refine ⟨hexact.readJson_reordered hroom hplayers hstored, ?_⟩
  intro base key status message label envelope hstatus henvelope
  exact hexact.download_reordered hroom hplayers hstored base key hstatus henvelope

/-! ## A round with odd names and notes -/

def startedRound : Card :=
  let draw := { millis := 5, picks := .replicate 6 (Fin.last _) }
  { blank (.issue none draw) Service.links [3] "" with players := [.new 1 none 1] }

def oddEdits : List Edit :=
  [.addPlayer (some " Zo\u00eb \"Z\" "), .setScore 2 0 1 "b a", .setNotes "rain\n\tfrom \\ hole 1",
    .setPar 0 4]

/-- The stored document with its first two members in the other order. -/
def swappedDocument : Json :=
  match ScorecardDocument.codec.encode (startedRound.run oddEdits).document with
  | .obj (first :: second :: rest) => .obj (second :: first :: rest)
  | value => value

theorem reordered_swappedDocument :
    Reordered (ScorecardDocument.codec.encode (startedRound.run oddEdits).document)
      swappedDocument :=
  .swap [] _ _ _

theorem restored_oddEdits :
    startedRound.Opens ∧ startedRound.course.holes ≤ holeLimit ∧
      (startedRound.run oddEdits).players.length < UInt32.size ∧
        (∃ document,
          ScorecardDocument.codec.readText (startedRound.run oddEdits).payload = .ok document ∧
            ofDocument document = .ok (startedRound.run oddEdits)) ∧
          ∃ value document,
            Call.result "http://store" (.download (.scorecard startedRound.id.text))
                (.answered 200 (some (Envelope.codec.encode
                  ⟨.success, none, some swappedDocument, none⟩).text.toByteArray)) =
              .ok (some value) ∧
            ScorecardDocument.codec.readJson value = .ok document ∧
              ofDocument document = .ok (startedRound.run oddEdits) := by
  have hopens : startedRound.Opens :=
    .started Service.links none { millis := 5, picks := .replicate 6 (Fin.last _) } rfl
  have hholes : startedRound.course.holes ≤ holeLimit := by decide
  have hplayers : (startedRound.run oddEdits).players.length < UInt32.size := by decide
  obtain ⟨hqueued, hstored⟩ := restored_run hopens hholes oddEdits hplayers
  obtain ⟨-, hdownloaded⟩ := hstored swappedDocument reordered_swappedDocument
  exact ⟨hopens, hholes, hplayers, hqueued,
    hdownloaded "http://store" _ 200 none none _ rfl (.refl _)⟩

end Card

end Scorekeeper
