import Scorekeeper.Proofs.Text.Trimmed
import Scorekeeper.ScorecardId

/-!
# The form of ids

The parser cuts a text at its dashes and tests the parts by how many there are.  Here the
form of an id is written down by itself, as `[USERSPACE-]MILLIS-SUFFIX` with the characters
that each part may hold, and the parser is shown to accept that form and nothing else.  New
ids have it, so each is read back as itself.  No part holds a dash, which is why an id can
be taken apart again and no two draws share one.
-/

namespace Scorekeeper

open Text

namespace ScorecardId

structure IsSpaceText (cs : List Char) : Prop where
  ne_nil : cs ≠ []
  chars : ∀ c ∈ cs, ('0' ≤ c ∧ c ≤ '9') ∨ 'a' ≤ c ∧ c ≤ 'f'

structure IsMillisText (cs : List Char) : Prop where
  ne_nil : cs ≠ []
  chars : ∀ c ∈ cs, '0' ≤ c ∧ c ≤ '9'

structure IsSuffixText (cs : List Char) : Prop where
  length_eq : cs.length = 6
  chars : ∀ c ∈ cs, ('0' ≤ c ∧ c ≤ '9') ∨ 'a' ≤ c ∧ c ≤ 'z'

/-- The form of an id: a userspace may lead it. -/
inductive IsForm : List Char → Prop where
  | bare {millis suffix : List Char} (hmillis : IsMillisText millis)
      (hsuffix : IsSuffixText suffix) : IsForm (millis ++ '-' :: suffix)
  | led {space millis suffix : List Char} (hspace : IsSpaceText space)
      (hmillis : IsMillisText millis) (hsuffix : IsSuffixText suffix) :
      IsForm (space ++ '-' :: (millis ++ '-' :: suffix))

variable {cs : List Char}

/-! ## The parts -/

theorem isSpace_eq_true_iff : isSpace cs = true ↔ IsSpaceText cs := by
  simp only [isSpace, isLowerHex, isDigit, Bool.and_eq_true, Bool.or_eq_true,
    Bool.not_eq_true', List.isEmpty_eq_false_iff, List.all_eq_true, decide_eq_true_eq]
  exact ⟨fun h => ⟨h.1, h.2⟩, fun h => ⟨h.ne_nil, h.chars⟩⟩

theorem isMillis_eq_true_iff : isMillis cs = true ↔ IsMillisText cs := by
  simp only [isMillis, isDigit, Bool.and_eq_true, Bool.not_eq_true',
    List.isEmpty_eq_false_iff, List.all_eq_true, decide_eq_true_eq]
  exact ⟨fun h => ⟨h.1, h.2⟩, fun h => ⟨h.ne_nil, h.chars⟩⟩

theorem isSuffix_eq_true_iff : isSuffix cs = true ↔ IsSuffixText cs := by
  simp only [isSuffix, isSuffixChar, isDigit, Bool.and_eq_true, Bool.or_eq_true, beq_iff_eq,
    List.all_eq_true, decide_eq_true_eq]
  exact ⟨fun h => ⟨h.1, h.2⟩, fun h => ⟨h.length_eq, h.chars⟩⟩

theorem IsSpaceText.dash_not_mem (hspace : IsSpaceText cs) : '-' ∉ cs :=
  fun hmem => absurd (hspace.chars _ hmem) (by decide)

theorem IsMillisText.dash_not_mem (hmillis : IsMillisText cs) : '-' ∉ cs :=
  fun hmem => absurd (hmillis.chars _ hmem) (by decide)

theorem IsSuffixText.dash_not_mem (hsuffix : IsSuffixText cs) : '-' ∉ cs :=
  fun hmem => absurd (hsuffix.chars _ hmem) (by decide)

/-! ## What stands in an id -/

theorem isSuffixChar_eq_true_iff {c : Char} :
    isSuffixChar c = true ↔ ('0' ≤ c ∧ c ≤ '9') ∨ 'a' ≤ c ∧ c ≤ 'z' := by
  simp only [isSuffixChar, isDigit, Bool.or_eq_true, Bool.and_eq_true, decide_eq_true_eq]

theorem IsSpaceText.isSuffixChar (hspace : IsSpaceText cs) {c : Char} (hc : c ∈ cs) :
    isSuffixChar c = true := by
  rw [isSuffixChar_eq_true_iff]
  obtain hdigit | ⟨hlow, hhigh⟩ := hspace.chars c hc
  · exact .inl hdigit
  · exact .inr ⟨hlow, Char.le_trans hhigh (by decide)⟩

theorem IsMillisText.isSuffixChar (hmillis : IsMillisText cs) {c : Char} (hc : c ∈ cs) :
    isSuffixChar c = true :=
  isSuffixChar_eq_true_iff.mpr (.inl (hmillis.chars c hc))

theorem IsSuffixText.isSuffixChar (hsuffix : IsSuffixText cs) {c : Char} (hc : c ∈ cs) :
    isSuffixChar c = true :=
  isSuffixChar_eq_true_iff.mpr (hsuffix.chars c hc)

/-- Ids are made of dashes, digits and small letters. -/
theorem IsForm.eq_dash_or_isSuffixChar (hform : IsForm cs) {c : Char} (hc : c ∈ cs) :
    c = '-' ∨ ScorecardId.isSuffixChar c = true := by
  cases hform with
  | bare hmillis hsuffix =>
      rw [List.mem_append, List.mem_cons] at hc
      obtain hc | hc | hc := hc
      · exact .inr (hmillis.isSuffixChar hc)
      · exact .inl hc
      · exact .inr (hsuffix.isSuffixChar hc)
  | led hspace hmillis hsuffix =>
      rw [List.mem_append, List.mem_cons, List.mem_append, List.mem_cons] at hc
      obtain hc | hc | hc | hc | hc := hc
      · exact .inr (hspace.isSuffixChar hc)
      · exact .inl hc
      · exact .inr (hmillis.isSuffixChar hc)
      · exact .inl hc
      · exact .inr (hsuffix.isSuffixChar hc)

/-! ## The parser accepts the form -/

theorem split_bare {millis suffix : List Char} (hmillis : '-' ∉ millis) (hsuffix : '-' ∉ suffix) :
    split '-' (millis ++ '-' :: suffix) = [millis, suffix] := by
  rw [split_append_cons hmillis, split_of_not_mem hsuffix]

theorem isId_of_isForm (hform : IsForm cs) : isId cs = true := by
  cases hform with
  | bare hmillis hsuffix =>
      rw [isId, split_bare hmillis.dash_not_mem hsuffix.dash_not_mem]
      exact Bool.and_eq_true_iff.mpr
        ⟨isMillis_eq_true_iff.mpr hmillis, isSuffix_eq_true_iff.mpr hsuffix⟩
  | led hspace hmillis hsuffix =>
      rw [isId, split_append_cons hspace.dash_not_mem,
        split_bare hmillis.dash_not_mem hsuffix.dash_not_mem]
      simp only [Bool.and_eq_true]
      exact ⟨⟨isSpace_eq_true_iff.mpr hspace, isMillis_eq_true_iff.mpr hmillis⟩,
        isSuffix_eq_true_iff.mpr hsuffix⟩

theorem eq_of_split_two {millis suffix : List Char} (hsplit : split '-' cs = [millis, suffix]) :
    cs = millis ++ '-' :: suffix := by
  obtain ⟨-, hnil⟩ | ⟨rest, rfl, hrest⟩ := split_eq_cons hsplit
  · cases hnil
  · obtain ⟨rfl, -⟩ | ⟨_, -, hnil⟩ := split_eq_cons hrest
    · rfl
    · exact absurd hnil (split_ne_nil _ _)

theorem isForm_of_isId (hid : isId cs = true) : IsForm cs := by
  rw [isId] at hid
  split at hid
  · next millis suffix hsplit =>
    rw [Bool.and_eq_true] at hid
    rw [eq_of_split_two hsplit]
    exact .bare (isMillis_eq_true_iff.mp hid.1) (isSuffix_eq_true_iff.mp hid.2)
  · next space millis suffix hsplit =>
    rw [Bool.and_eq_true, Bool.and_eq_true] at hid
    obtain ⟨-, hnil⟩ | ⟨rest, rfl, hrest⟩ := split_eq_cons hsplit
    · cases hnil
    · rw [eq_of_split_two hrest]
      exact .led (isSpace_eq_true_iff.mp hid.1.1) (isMillis_eq_true_iff.mp hid.1.2)
        (isSuffix_eq_true_iff.mp hid.2)
  · cases hid

theorem isId_eq_true_iff : isId cs = true ↔ IsForm cs :=
  ⟨isForm_of_isId, isId_of_isForm⟩

theorem parse_text (id : ScorecardId) : parse id.text = .ok id :=
  dif_pos id.wellFormed

/-! ## An id can be taken apart -/

theorem split_issueChars (space : Option UserspaceId) (draw : Draw) :
    split '-' (issueChars space draw) =
      (space.map UserspaceId.chars).toList ++ [digits draw.millis, draw.suffix] := by
  cases space with
  | none => exact draw.split_chars
  | some space =>
      have hdash : '-' ∉ space.chars :=
        fun hmem => absurd (space.lowerHex _ hmem) (by decide)
      rw [issueChars, split_append_cons hdash, draw.split_chars]
      rfl

theorem chars_injective {left right : UserspaceId} (heq : left.chars = right.chars) :
    left = right := by
  cases left
  cases right
  cases heq
  rfl

/-- The parts of a new id are what it was made from. -/
theorem eq_of_issue_eq {space space' : Option UserspaceId} {draw draw' : Draw}
    (heq : issue space draw = issue space' draw') :
    space = space' ∧ draw.millis = draw'.millis ∧ draw.suffix = draw'.suffix := by
  have htext := congrArg (fun id : ScorecardId => split '-' id.text.toList) heq
  simp only [issue, String.toList_ofList, split_issueChars] at htext
  cases space with
  | none =>
      cases space' with
      | none =>
          simp only [Option.map_none, Option.toList_none, List.nil_append, List.cons.injEq,
            and_true] at htext
          exact ⟨rfl, digits_injective htext.1, htext.2⟩
      | some space' => cases congrArg List.length htext
  | some space =>
      cases space' with
      | none => cases congrArg List.length htext
      | some space' =>
          simp only [Option.map_some, Option.toList_some, List.cons_append, List.nil_append,
            List.cons.injEq, and_true] at htext
          obtain ⟨hspace, hmillis, hsuffix⟩ := htext
          exact ⟨congrArg some (chars_injective hspace), digits_injective hmillis, hsuffix⟩

/-- No two picks are drawn as the same character. -/
theorem suffixChar_injective : Function.Injective suffixChar := by
  unfold Function.Injective
  decide

/-- A suffix tells what was picked. -/
theorem suffix_eq_iff {draw draw' : Draw} :
    draw.suffix = draw'.suffix ↔ draw.picks = draw'.picks := by
  rw [Draw.suffix, Draw.suffix, List.map_inj_right fun _ _ heq => suffixChar_injective heq,
    Vector.toList_inj]

theorem issue_congr {space : Option UserspaceId} {draw draw' : Draw}
    (hmillis : draw.millis = draw'.millis) (hsuffix : draw.suffix = draw'.suffix) :
    issue space draw = issue space draw' := by
  have hchars : draw.chars = draw'.chars := by
    rw [Draw.chars, Draw.chars, hmillis, hsuffix]
  apply text_injective
  simp only [issue, issueChars, hchars]

end ScorecardId

/-- A passphrase opens a userspace exactly when it is not all blank. -/
theorem UserspaceId.exists_ofPassphrase_iff {passphrase : String} :
    (∃ space, ofPassphrase passphrase = .ok space) ↔
      ∃ c ∈ passphrase.toList, isBlank c = false := by
  have hblank : trim passphrase = "" ↔ ¬∃ c ∈ passphrase.toList, isBlank c = false := by
    rw [trim_eq_empty_iff]
    simp
  rw [ofPassphrase]
  by_cases hempty : trim passphrase = ""
  · have hnone := hblank.mp hempty
    simp [hempty, hnone]
  · have hsome := not_not.mp (mt hblank.mpr hempty)
    simp [hempty, hsome]

/-- A text is read as an id exactly when it has the form of one.  Every id that is made, with
the userspace of a passphrase or with none, is read back as itself, and it tells what it was
made from, down to every single pick. -/
theorem ScorecardId.parse_iff_and_issue :
    (∀ raw : String,
      ((∃ id, parse raw = .ok id ∧ id.text = raw) ↔ IsForm raw.toList) ∧
        (parse raw = .error (.invalidId raw) ↔ ¬IsForm raw.toList)) ∧
      (∀ passphrase : String, (∃ space, UserspaceId.ofPassphrase passphrase = .ok space) ↔
        ∃ c ∈ passphrase.toList, isBlank c = false) ∧
      (∀ (space : Option UserspaceId) (draw : Draw),
        parse (issue space draw).text = .ok (issue space draw)) ∧
      ∀ (space space' : Option UserspaceId) (draw draw' : Draw),
        (issue space draw = issue space' draw' ↔
          space = space' ∧ draw.millis = draw'.millis ∧ draw.suffix = draw'.suffix) ∧
        (draw.suffix = draw'.suffix ↔ draw.picks = draw'.picks) := by
  refine ⟨?_, ?_, ?_, ?_⟩
  · intro raw
    rw [← isId_eq_true_iff, parse]
    by_cases hid : isId raw.toList = true
    · simp [hid]
    · simp [hid]
  · exact fun passphrase => UserspaceId.exists_ofPassphrase_iff
  · exact fun space draw => parse_text _
  · intro space space' draw draw'
    refine ⟨⟨?_, ?_⟩, suffix_eq_iff⟩
    · exact eq_of_issue_eq
    · rintro ⟨rfl, hmillis, hsuffix⟩
      exact issue_congr hmillis hsuffix

/-- A small letter with an accent is none of those from a to z. -/
example : ScorecardId.IsForm "0f-1700000000000-ab12cd".toList ∧
    ¬ScorecardId.IsForm "1700000000000-ab12c\u00e9".toList := by
  simp only [← ScorecardId.isId_eq_true_iff]
  decide

end Scorekeeper
