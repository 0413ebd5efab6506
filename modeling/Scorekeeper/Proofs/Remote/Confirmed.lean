import Scorekeeper.Proofs.Json.Fields
import Scorekeeper.Remote.Gateway

/-!
# What the store has confirmed

An upload that is reported as done is not tried again, and its payload is given up.  So the
report must rest on what the store said: a status of success, and a body that is one envelope
which says so.  This file describes the bodies that are read as an envelope, whatever else
stands in them, and sorts every delivery by it.
-/

namespace Scorekeeper.Remote

open Json

/-! ## Envelopes in bodies -/

namespace Envelope

variable {envelope : Envelope} {members : Members} {tree : Tree} {bytes : ByteArray}

/-- The names of the fields, in their order. -/
def fields : List String :=
  ["status", "message", "data", "id"]

/-- The members of a record say what an envelope says. -/
structure IsMadeOf (envelope : Envelope) (members : Members) : Prop where
  status : ∃ tree, (.ok "status", tree) ∈ members ∧ Chosen Verdict.ofName? envelope.status tree
  message : Record.GivesOption members "message" .text (depthLimit - 1) envelope.message
  data : Record.GivesOption members "data" .any (depthLimit - 1) envelope.data
  id : Record.GivesOption members "id" .text (depthLimit - 1) envelope.id

theorem decode_eq_ok_iff :
    codec.decode depthLimit tree = .ok envelope ↔
      ∃ members, tree.Shows fields members ∧ envelope.IsMadeOf members := by
  have hdistinct : fields.Nodup := by decide
  have hstatus : "status" ∈ fields := by decide
  have hmessage : "message" ∈ fields := by decide
  have hdata : "data" ∈ fields := by decide
  have hid : "id" ∈ fields := by decide
  rw [codec]
  refine (Record.decode_eq_ok_iff hdistinct).trans ?_
  refine exists_congr fun members => and_congr_right fun hshows => ?_
  have hsound : members.IsSound fields := hshows.isSound hdistinct
  simp only [Record.field, Record.fieldOption, Record.fieldOr,
    Record.read_add_eq_ok_iff hsound hstatus, Record.read_add_eq_ok_iff hsound hmessage,
    Record.read_add_eq_ok_iff hsound hdata, Record.read_add_eq_ok_iff hsound hid,
    Record.gives_optional_iff hsound hmessage, Record.gives_optional_iff hsound hdata,
    Record.gives_optional_iff hsound hid, Record.gives_required_iff]
  constructor
  · rintro ⟨_, _, ⟨_, _, ⟨_, _, ⟨_, verdict, hmake, ⟨written, hmem, hread⟩, rfl⟩, hmessage, rfl⟩,
      hdata, rfl⟩, hid, rfl⟩
    cases hmake
    exact ⟨⟨written, hmem, chooseWith_eq_ok_iff.mp hread⟩, hmessage, hdata, hid⟩
  · rintro ⟨⟨written, hmem, hchosen⟩, hmessage, hdata, hid⟩
    exact ⟨_, _, ⟨_, _, ⟨_, _, ⟨_, _, rfl, ⟨written, hmem, chooseWith_eq_ok_iff.mpr hchosen⟩, rfl⟩,
      hmessage, rfl⟩, hdata, rfl⟩, hid, rfl⟩

/-- Some bytes are one envelope and nothing else. -/
def IsIn (envelope : Envelope) (bytes : ByteArray) : Prop :=
  ∃ tree rest members, readFirst (.ofBytes bytes) = (tree, some rest) ∧
    rest.skipSpace.isEmpty = true ∧ tree.Shows fields members ∧ envelope.IsMadeOf members

theorem readBytes_eq_ok_iff : codec.readBytes bytes = .ok envelope ↔ envelope.IsIn bytes := by
  rw [Codec.readBytes, readSource_eq_ok_iff]
  simp only [decode_eq_ok_iff]
  constructor
  · rintro ⟨tree, rest, hfirst, hrest, members, hshows, hmade⟩
    exact ⟨tree, rest, members, hfirst, hrest, hshows, hmade⟩
  · rintro ⟨tree, rest, members, hfirst, hrest, hshows, hmade⟩
    exact ⟨tree, rest, hfirst, hrest, members, hshows, hmade⟩

theorem eq_null_of_decodeAny {depth : Nat} (hread : Codec.decodeAny depth tree = .ok .null) :
    tree = .null := by
  cases tree with
  | null => rfl
  | bool value => cases hread
  | number numeral =>
      rw [Codec.decodeAny] at hread
      split at hread
      · split at hread <;> cases hread
      · cases hread
  | text pieces =>
      obtain ⟨_, -, hsame⟩ := map_eq_ok_iff.mp hread
      cases hsame
  | array items tail =>
      cases depth with
      | zero => cases hread
      | succ depth =>
          obtain ⟨_, -, hread⟩ := bind_eq_ok_iff.mp hread
          cases (unlessProblem_eq_ok_iff.mp hread).2
  | object members tail =>
      cases depth with
      | zero => cases hread
      | succ depth =>
          obtain ⟨_, -, hread⟩ := bind_eq_ok_iff.mp hread
          cases (unlessProblem_eq_ok_iff.mp hread).2
  | broken fragment => cases hread

/-- Data that is `null` is none. -/
theorem IsIn.data_ne_null (hin : envelope.IsIn bytes) : envelope.data ≠ some .null := by
  obtain ⟨_, _, members, -, -, -, hmade⟩ := hin
  have hdata := hmade.data
  intro hnull
  rw [hnull] at hdata
  obtain ⟨tree, -, hne, hread⟩ := hdata
  exact hne (eq_null_of_decodeAny hread)

end Envelope

/-! ## Deliveries -/

namespace Delivery

/-- The answer has a status of success, and its body is the envelope. -/
def Carries (delivery : Delivery) (envelope : Envelope) : Prop :=
  ∃ status bytes, delivery = .answered status (some bytes) ∧ 200 ≤ status ∧ status < 300 ∧
    envelope.IsIn bytes

def IsClientError (delivery : Delivery) : Prop :=
  ∃ status body, delivery = .answered status body ∧ 400 ≤ status ∧ status < 500

def IsNotFound (delivery : Delivery) : Prop :=
  ∃ body, delivery = .answered 404 body

section Answers

variable {status : Nat} {body : Option ByteArray} {envelope : Envelope}

theorem carries_answered_iff :
    Carries (.answered status body) envelope ↔
      isSuccess status = true ∧ ∃ bytes, body = some bytes ∧ envelope.IsIn bytes := by
  rw [isSuccess, Bool.and_eq_true, decide_eq_true_eq, decide_eq_true_eq]
  constructor
  · rintro ⟨_, bytes, hsame, hlow, hhigh, hin⟩
    cases hsame
    exact ⟨⟨hlow, hhigh⟩, bytes, rfl, hin⟩
  · rintro ⟨⟨hlow, hhigh⟩, bytes, rfl, hin⟩
    exact ⟨status, bytes, rfl, hlow, hhigh, hin⟩

theorem isClientError_answered_iff :
    IsClientError (.answered status body) ↔ isClientError status = true := by
  rw [isClientError, Bool.and_eq_true, decide_eq_true_eq, decide_eq_true_eq]
  constructor
  · rintro ⟨_, _, hsame, hrange⟩
    cases hsame
    exact hrange
  · exact fun hrange => ⟨status, body, rfl, hrange⟩

end Answers

variable {path : String} {delivery : Delivery} {envelope : Envelope}

theorem Carries.not_isClientError (hcarries : delivery.Carries envelope) :
    ¬delivery.IsClientError := by
  obtain ⟨status, bytes, rfl, -, hhigh, -⟩ := hcarries
  rintro ⟨_, _, hsame, hlow, -⟩
  cases hsame
  omega

theorem Carries.unique {other : Envelope} (hcarries : delivery.Carries envelope)
    (hother : delivery.Carries other) : other = envelope := by
  obtain ⟨status, bytes, rfl, -, -, hin⟩ := hcarries
  obtain ⟨_, _, hsame, -, -, hin'⟩ := hother
  cases hsame
  exact Except.ok.inj <| (Envelope.readBytes_eq_ok_iff.mpr hin').symm.trans
    (Envelope.readBytes_eq_ok_iff.mpr hin)

/-- The store understood the request and refused it. -/
def IsRefusal (delivery : Delivery) : Prop :=
  delivery.IsClientError ∨ ∃ envelope, delivery.Carries envelope ∧ envelope.status = .error

def IsConfirmed (delivery : Delivery) : Prop :=
  ∃ envelope, delivery.Carries envelope ∧ envelope.status = .success

/-- The envelope by which an answer confirms that the request was applied. -/
def confirmation (path : String) : Delivery → Except RequestError Envelope
  | .dropped => .error (.unsent path)
  | .timedOut => .error (.timedOut path)
  | .answered status body =>
    if isSuccess status then readEnvelope path body else .error (.badStatus path status)

/-- What can come of looking for a confirmation. -/
inductive Settles (delivery : Delivery) : Except RequestError Envelope → Prop where
  | confirmed {envelope : Envelope} (carries : delivery.Carries envelope)
      (status : envelope.status = .success) : Settles delivery (.ok envelope)
  | refused {error : RequestError} (refusal : delivery.IsRefusal)
      (rejects : error.toStorage.isRejection = true) : Settles delivery (.error error)
  | failed {error : RequestError} (unconfirmed : ¬delivery.IsConfirmed)
      (unrefused : ¬delivery.IsRefusal) (fails : error.toStorage.isRejection = false) :
      Settles delivery (.error error)

theorem settles_failed {error : RequestError} (hstatus : ¬delivery.IsClientError)
    (hcarries : ∀ envelope, ¬delivery.Carries envelope)
    (hfails : error.toStorage.isRejection = false) : Settles delivery (.error error) := by
  refine .failed ?_ ?_ hfails
  · rintro ⟨envelope, hcarried, -⟩
    exact hcarries envelope hcarried
  · rintro (hclient | ⟨envelope, hcarried, -⟩)
    · exact hstatus hclient
    · exact hcarries envelope hcarried

theorem settles_lost (hlost : delivery = .dropped ∨ delivery = .timedOut) {error : RequestError}
    (hfails : error.toStorage.isRejection = false) : Settles delivery (.error error) := by
  apply settles_failed _ _ hfails
  · rintro ⟨_, _, rfl, -⟩
    simp at hlost
  · rintro envelope ⟨_, _, rfl, -⟩
    simp at hlost

/-- A body that came with a status of success decides by what it says. -/
theorem settles_readEnvelope {status : Nat} {body : Option ByteArray} (path : String)
    (hsuccess : isSuccess status = true) :
    Settles (.answered status body) (readEnvelope path body) := by
  have hclient : ¬IsClientError (.answered status body) := by
    rw [isClientError_answered_iff]
    simp only [isSuccess, isClientError, Bool.and_eq_true, decide_eq_true_eq] at hsuccess ⊢
    omega
  cases body with
  | none =>
      apply settles_failed hclient _ rfl
      intro envelope hcarries
      obtain ⟨-, _, hsame, -⟩ := carries_answered_iff.mp hcarries
      cases hsame
  | some bytes =>
      rw [readEnvelope]
      split
      · next hunread =>
        apply settles_failed hclient _ rfl
        intro envelope hcarries
        obtain ⟨-, _, hsame, hin⟩ := carries_answered_iff.mp hcarries
        cases hsame
        rw [Envelope.readBytes_eq_ok_iff.mpr hin] at hunread
        cases hunread
      · next envelope hread =>
        have hcarries : Carries (.answered status (some bytes)) envelope :=
          carries_answered_iff.mpr ⟨hsuccess, bytes, rfl, Envelope.readBytes_eq_ok_iff.mp hread⟩
        split
        · next hverdict => exact .confirmed hcarries hverdict
        · next hverdict => exact .refused (.inr ⟨envelope, hcarries, hverdict⟩) rfl

/-- Any other status decides by itself. -/
theorem settles_badStatus {status : Nat} {body : Option ByteArray} (path : String)
    (hsuccess : isSuccess status ≠ true) :
    Settles (.answered status body) (.error (.badStatus path status)) := by
  by_cases hclient : isClientError status = true
  · refine .refused (.inl (isClientError_answered_iff.mpr hclient)) ?_
    rw [RequestError.toStorage, if_pos hclient]
    rfl
  · apply settles_failed (mt isClientError_answered_iff.mp hclient)
    · exact fun envelope hcarries => hsuccess (carries_answered_iff.mp hcarries).1
    · rw [RequestError.toStorage, if_neg hclient]
      rfl

theorem settles_confirmation (path : String) (delivery : Delivery) :
    delivery.Settles (confirmation path delivery) := by
  cases delivery with
  | dropped => exact settles_lost (.inl rfl) rfl
  | timedOut => exact settles_lost (.inr rfl) rfl
  | answered status body =>
      rw [confirmation]
      split
      · next hsuccess => exact settles_readEnvelope path hsuccess
      · next hsuccess => exact settles_badStatus path hsuccess

/-- A delivery is not both. -/
theorem IsConfirmed.not_isRefusal (hconfirmed : delivery.IsConfirmed) : ¬delivery.IsRefusal := by
  obtain ⟨envelope, hcarries, hsuccess⟩ := hconfirmed
  rintro (hclient | ⟨other, hother, herror⟩)
  · exact hcarries.not_isClientError hclient
  · rw [hcarries.unique hother, hsuccess] at herror
    cases herror

section Reports

variable {A : Type} {f : Envelope → A}

/-- What is reported when a confirmation is looked for. -/
theorem report_cases (path : String) (delivery : Delivery) (f : Envelope → A) :
    (∃ envelope, delivery.Carries envelope ∧ envelope.status = .success ∧
        orStorage ((confirmation path delivery).map f) = .ok (f envelope)) ∨
      (delivery.IsRefusal ∧
        ∃ reason, orStorage ((confirmation path delivery).map f) = .error (.rejected reason)) ∨
      (¬delivery.IsConfirmed ∧ ¬delivery.IsRefusal ∧
        ∃ reason,
          orStorage ((confirmation path delivery).map f) = .error (.unavailable reason)) := by
  have hsettles := delivery.settles_confirmation path
  generalize confirmation path delivery = result at hsettles
  cases hsettles with
  | confirmed carries status => exact .inl ⟨_, carries, status, rfl⟩
  | @refused error refusal rejects =>
      refine .inr (.inl ⟨refusal, ?_⟩)
      cases hstorage : error.toStorage with
      | unavailable reason =>
          rw [hstorage] at rejects
          cases rejects
      | rejected reason => exact ⟨reason, congrArg Except.error hstorage⟩
  | @failed error unconfirmed unrefused fails =>
      refine .inr (.inr ⟨unconfirmed, unrefused, ?_⟩)
      cases hstorage : error.toStorage with
      | unavailable reason => exact ⟨reason, congrArg Except.error hstorage⟩
      | rejected reason =>
          rw [hstorage] at fails
          cases fails

theorem reports_ok_iff {value : A} :
    orStorage ((confirmation path delivery).map f) = .ok value ↔
      ∃ envelope, delivery.Carries envelope ∧ envelope.status = .success ∧ f envelope = value := by
  obtain ⟨found, hfound, hsuccess, hreport⟩ | ⟨hrefusal, _, hreport⟩ |
    ⟨hunconfirmed, -, _, hreport⟩ := report_cases path delivery f
  · rw [hreport, Except.ok.injEq]
    constructor
    · exact fun hvalue => ⟨found, hfound, hsuccess, hvalue⟩
    · rintro ⟨envelope, hcarries, -, hvalue⟩
      rwa [hfound.unique hcarries] at hvalue
  · rw [hreport]
    exact iff_of_false nofun fun ⟨envelope, hcarries, hstatus, _⟩ =>
      IsConfirmed.not_isRefusal ⟨envelope, hcarries, hstatus⟩ hrefusal
  · rw [hreport]
    exact iff_of_false nofun fun ⟨envelope, hcarries, hstatus, _⟩ =>
      hunconfirmed ⟨envelope, hcarries, hstatus⟩

theorem reports_rejected_iff :
    (∃ reason, orStorage ((confirmation path delivery).map f) = .error (.rejected reason)) ↔
      delivery.IsRefusal := by
  obtain ⟨found, hfound, hsuccess, hreport⟩ | ⟨hrefusal, hreport⟩ | ⟨-, hunrefused, _, hreport⟩ :=
    report_cases path delivery f
  · rw [hreport]
    exact iff_of_false (by simp) (IsConfirmed.not_isRefusal ⟨found, hfound, hsuccess⟩)
  · exact iff_of_true hreport hrefusal
  · rw [hreport]
    exact iff_of_false (by simp) hunrefused

theorem reports_unavailable_iff :
    (∃ reason, orStorage ((confirmation path delivery).map f) = .error (.unavailable reason)) ↔
      ¬delivery.IsConfirmed ∧ ¬delivery.IsRefusal := by
  obtain ⟨found, hfound, hsuccess, hreport⟩ | ⟨hrefusal, _, hreport⟩ |
    ⟨hfails, hunrefused, hreport⟩ := report_cases path delivery f
  · rw [hreport]
    exact iff_of_false (by simp) fun h => h.1 ⟨found, hfound, hsuccess⟩
  · rw [hreport]
    exact iff_of_false (by simp) fun h => h.2 hrefusal
  · exact iff_of_true hreport ⟨hfails, hunrefused⟩

end Reports

end Delivery

/-! ## Calls -/

variable {base : String} {delivery : Delivery}

theorem uploadResult_eq (path : String) (delivery : Delivery) :
    uploadResult path delivery = (delivery.confirmation path).map fun _ => () := by
  cases delivery with
  | answered status body =>
      rw [uploadResult, Delivery.confirmation]
      split <;> rfl
  | _ => rfl

theorem downloadResult_eq (path : String) (hfound : ¬delivery.IsNotFound) :
    downloadResult path delivery = (delivery.confirmation path).map fun envelope =>
      envelope.data.filter fun data => !data.isNull := by
  cases delivery with
  | answered status body =>
      have hstatus : status ≠ 404 := by
        rintro rfl
        exact hfound ⟨body, rfl⟩
      rw [downloadResult, Delivery.confirmation, if_neg hstatus]
      split <;> rfl
  | _ => rfl

/-- What is made of the deliveries for an upload and for a download. -/
structure ReportsTruly (base : String) (delivery : Delivery) : Prop where
  uploaded : ∀ key payload,
    (∃ answer, (Call.upload key payload).result base delivery = .ok answer) ↔
      ∃ envelope, delivery.Carries envelope ∧ envelope.status = .success
  uploadRejected : ∀ key payload,
    (∃ reason, (Call.upload key payload).result base delivery = .error (.rejected reason)) ↔
      delivery.IsRefusal
  uploadUnavailable : ∀ key payload,
    (∃ reason, (Call.upload key payload).result base delivery = .error (.unavailable reason)) ↔
      ¬delivery.IsConfirmed ∧ ¬delivery.IsRefusal
  absent : ∀ key, (Call.download key).result base delivery = .ok none ↔
    delivery.IsNotFound ∨
      ∃ envelope, delivery.Carries envelope ∧ envelope.status = .success ∧ envelope.data = none
  found : ∀ key data, (Call.download key).result base delivery = .ok (some data) ↔
    ∃ envelope, delivery.Carries envelope ∧ envelope.status = .success ∧
      envelope.data = some data ∧ data ≠ .null
  downloadRejected : ∀ key,
    (∃ reason, (Call.download key).result base delivery = .error (.rejected reason)) ↔
      ¬delivery.IsNotFound ∧ delivery.IsRefusal
  downloadUnavailable : ∀ key,
    (∃ reason, (Call.download key).result base delivery = .error (.unavailable reason)) ↔
      ¬delivery.IsNotFound ∧ ¬delivery.IsConfirmed ∧ ¬delivery.IsRefusal
  lost : delivery = .dropped ∨ delivery = .timedOut →
    (∀ key payload, ∃ reason,
      (Call.upload key payload).result base delivery = .error (.unavailable reason)) ∧
    ∀ key, ∃ reason, (Call.download key).result base delivery = .error (.unavailable reason)

theorem result_upload (key : DocumentKey) (payload : String) :
    (Call.upload key payload).result base delivery =
      orStorage ((delivery.confirmation key.path).map fun _ => none) := by
  rw [Call.result, uploadResult_eq, Call.path]
  cases delivery.confirmation key.path <;> rfl

theorem result_download_of_found (key : DocumentKey) (hfound : ¬delivery.IsNotFound) :
    (Call.download key).result base delivery =
      orStorage ((delivery.confirmation key.path).map fun envelope =>
        envelope.data.filter fun data => !data.isNull) := by
  rw [Call.result, downloadResult_eq _ hfound, Call.path]

theorem result_download_of_notFound (key : DocumentKey) (hmissing : delivery.IsNotFound) :
    (Call.download key).result base delivery = .ok none := by
  obtain ⟨body, rfl⟩ := hmissing
  rfl

theorem Delivery.IsNotFound.not_isConfirmed (hmissing : delivery.IsNotFound) :
    ¬delivery.IsConfirmed := by
  obtain ⟨body, rfl⟩ := hmissing
  rintro ⟨envelope, ⟨_, _, hsame, -, hhigh, -⟩, -⟩
  cases hsame
  omega

theorem Delivery.Carries.data_ne_null {envelope : Envelope}
    (hcarries : delivery.Carries envelope) : envelope.data ≠ some .null := by
  obtain ⟨_, _, -, -, -, hin⟩ := hcarries
  exact hin.data_ne_null

/-- Looking for `null` in the data once more finds nothing. -/
theorem Delivery.Carries.filter_data {envelope : Envelope} (hcarries : delivery.Carries envelope) :
    (envelope.data.filter fun data => !data.isNull) = envelope.data := by
  have hdata := hcarries.data_ne_null
  cases hvalue : envelope.data with
  | none => rfl
  | some data =>
      rw [hvalue] at hdata
      cases data with
      | null => exact absurd rfl hdata
      | _ => rfl

/-- Success is reported exactly when the store confirmed it, and a rejection exactly when the
store refused; everything else only means that the store was not to be had. -/
theorem reportsTruly (base : String) (delivery : Delivery) : ReportsTruly base delivery where
  uploaded key payload := by
    simp only [result_upload, Delivery.reports_ok_iff]
    constructor
    · rintro ⟨_, envelope, hcarries, hsuccess, -⟩
      exact ⟨envelope, hcarries, hsuccess⟩
    · rintro ⟨envelope, hcarries, hsuccess⟩
      exact ⟨none, envelope, hcarries, hsuccess, rfl⟩
  uploadRejected key payload := by
    rw [result_upload]
    exact Delivery.reports_rejected_iff
  uploadUnavailable key payload := by
    rw [result_upload]
    exact Delivery.reports_unavailable_iff
  absent key := by
    by_cases hmissing : delivery.IsNotFound
    · exact iff_of_true (result_download_of_notFound key hmissing) (.inl hmissing)
    · rw [result_download_of_found key hmissing, Delivery.reports_ok_iff, or_iff_right hmissing]
      refine exists_congr fun envelope => and_congr_right fun hcarries => ?_
      rw [hcarries.filter_data]
  found key data := by
    by_cases hmissing : delivery.IsNotFound
    · rw [result_download_of_notFound key hmissing]
      exact iff_of_false nofun fun ⟨envelope, hcarries, hsuccess, _⟩ =>
        hmissing.not_isConfirmed ⟨envelope, hcarries, hsuccess⟩
    · rw [result_download_of_found key hmissing, Delivery.reports_ok_iff]
      refine exists_congr fun envelope => and_congr_right fun hcarries => ?_
      refine and_congr_right fun _ => ?_
      rw [hcarries.filter_data]
      refine (and_iff_left_of_imp ?_).symm
      rintro hdata rfl
      exact hcarries.data_ne_null hdata
  downloadRejected key := by
    by_cases hmissing : delivery.IsNotFound
    · rw [result_download_of_notFound key hmissing]
      exact iff_of_false nofun fun h => h.1 hmissing
    · rw [result_download_of_found key hmissing, and_iff_right hmissing]
      exact Delivery.reports_rejected_iff
  downloadUnavailable key := by
    by_cases hmissing : delivery.IsNotFound
    · rw [result_download_of_notFound key hmissing]
      exact iff_of_false nofun fun h => h.1 hmissing
    · rw [result_download_of_found key hmissing, and_iff_right hmissing]
      exact Delivery.reports_unavailable_iff
  lost := by
    rintro (rfl | rfl)
    · exact ⟨fun _ _ => ⟨_, rfl⟩, fun _ => ⟨_, rfl⟩⟩
    · exact ⟨fun _ _ => ⟨_, rfl⟩, fun _ => ⟨_, rfl⟩⟩

end Scorekeeper.Remote
