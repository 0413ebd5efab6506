import Mathlib.Data.List.Pairwise
import Scorekeeper.Proofs.Json.Codecs

/-!
# When a record can be read

A record is read from an object or from a list, field by field, and of all the problems in it
the first one in the text is reported.  For whether it can be read at all the places of the
problems do not matter: the names of the members must be readable, no field may come twice,
what is passed over must be well formed, and each field must be found and read, or have a
default.  This file takes records apart in that way, once for all of them, and with them lists,
whose items must all be read, and choices, which may be written as objects too.
-/

namespace Scorekeeper.Json

variable {A B C : Type} {fields : List String} {name : String} {tree : Tree}

/-! ## Whole texts -/

theorem readSource_eq_ok_iff {codec : Codec A} {source : Source} {value : A} :
    codec.readSource source = .ok value ↔
      ∃ tree rest, readFirst source = (tree, some rest) ∧ rest.skipSpace.isEmpty = true ∧
        codec.decode depthLimit tree = .ok value := by
  rw [Codec.readSource]
  obtain ⟨tree, rest⟩ := readFirst source
  simp only [Prod.mk.injEq, and_assoc, exists_eq_left', exists_and_left]
  generalize codec.decode depthLimit tree = result
  cases result with
  | error problem => simp
  | ok read =>
      cases rest with
      | none => simp
      | some rest => by_cases hrest : rest.skipSpace = [] <;> simp [hrest]

/-! ## Choices -/

/-- How a choice is written: its name alone, or as the only member of an object. -/
inductive Chosen (ofName? : String → Option A) (value : A) : Tree → Prop where
  | name {pieces : List Piece} {name : String} (read : Piece.read pieces = .ok name)
      (named : ofName? name = some value) : Chosen ofName? value (.text pieces)
  | member {key : Key} {name : String} (read : key.read = .ok name)
      (named : ofName? name = some value) : Chosen ofName? value (.object [(key, .null)] none)

theorem readUnit_eq_ok_iff : Codec.readUnit tree = .ok () ↔ tree = .null := by
  cases tree <;> simp [Codec.readUnit]

theorem unlessProblem_eq_ok_iff {problem : Option Problem} {value result : A} :
    unlessProblem problem value = .ok result ↔ problem = none ∧ value = result := by
  cases problem <;> simp [unlessProblem]

theorem chooseWith_eq_ok_iff {ofName? : String → Option A} {depth : Nat} {value : A} :
    Codec.chooseWith ofName? (depth + 1) tree = .ok value ↔ Chosen ofName? value tree := by
  constructor
  · intro hread
    cases tree with
    | text pieces =>
        obtain ⟨name, hname, hread⟩ := bind_eq_ok_iff.mp hread
        split at hread
        · next found hfound =>
          cases hread
          exact .name hname hfound
        · cases hread
    | object members tail =>
        cases members with
        | nil => cases hread
        | cons member more =>
            obtain ⟨key, mark⟩ := member
            obtain ⟨name, hname, hread⟩ := bind_eq_ok_iff.mp hread
            split at hread
            · next found hfound =>
              obtain ⟨⟨⟩, hunit, hread⟩ := bind_eq_ok_iff.mp hread
              split at hread
              · next hlast =>
                obtain ⟨rfl, rfl⟩ := unlessProblem_eq_ok_iff.mp hread
                rw [readUnit_eq_ok_iff.mp hunit, List.isEmpty_iff.mp hlast]
                exact .member hname hfound
              · cases hread
            · cases hread
    | _ => cases hread
  · rintro (⟨hname, hnamed⟩ | ⟨hname, hnamed⟩)
    · exact bind_eq_ok_iff.mpr ⟨_, hname, by rw [hnamed]⟩
    · exact bind_eq_ok_iff.mpr ⟨_, hname, by rw [hnamed]; rfl⟩

/-! ## Lists and values that were never text -/

theorem decode_list_eq_ok_iff {codec : Codec A} {depth : Nat} {items : List Tree}
    {tail : Option Problem} {values : List A} :
    codec.list.decode (depth + 1) (.array items tail) = .ok values ↔
      tail = none ∧ List.Forall₂ (fun item value => codec.decode depth item = .ok value)
        items values := by
  refine bind_eq_ok_iff.trans ?_
  simp only [mapM_eq_ok_iff, unlessProblem_eq_ok_iff]
  constructor
  · rintro ⟨_, hitems, rfl, rfl⟩
    exact ⟨rfl, hitems⟩
  · rintro ⟨rfl, hitems⟩
    exact ⟨values, hitems, rfl, rfl⟩

theorem readJson_eq_ok_iff {codec : Codec A} {json : Json} {value : A} :
    codec.readJson json = .ok value ↔ codec.decode depthLimit json.tree = .ok value := by
  rw [Codec.readJson]
  cases codec.decode depthLimit json.tree <;> simp

/-- Whatever is wrong with a value that was never text, it is reported as a mismatch. -/
theorem readJson_eq_error_iff {codec : Codec A} {json : Json} :
    codec.readJson json = .error .mismatch ↔ ∀ value, codec.readJson json ≠ .ok value := by
  rw [Codec.readJson]
  cases codec.decode depthLimit json.tree <;> simp

/-! ## Members without a flaw -/

namespace Members

variable {members : Members} {tail : Option Problem}

instance : Std.Symm (Apart fields) where
  symm _ _ hapart name hname hright hleft := hapart name hname hleft hright

/-- Nothing is wrong with the members, whatever the values of the fields are. -/
structure IsSound (fields : List String) (members : Members) : Prop where
  named : ∀ entry ∈ members, ∃ name, entry.1 = .ok name ∧ (name ∉ fields → entry.2.skip = none)
  once : members.Pairwise (Apart fields)

theorem isSound_nil (fields : List String) : IsSound fields [] :=
  ⟨List.forall_mem_nil _, .nil⟩

/-- Only sound members have no flaw.  A field that has been seen before does not come again. -/
theorem isSound_of_firstFlaw {place : Nat} {seen : List String}
    (hnone : members.firstFlaw fields tail place seen = none) :
    tail = none ∧ members.IsSound fields ∧
      ∀ entry ∈ members, ∀ name ∈ seen, name ∈ fields → entry.1 ≠ .ok name := by
  induction members generalizing place seen with
  | nil =>
      rw [firstFlaw, Option.map_eq_none_iff] at hnone
      exact ⟨hnone, isSound_nil fields, List.forall_mem_nil _⟩
  | cons entry members ih =>
      obtain ⟨problem | name, tree⟩ := entry
      · cases hnone
      · rw [firstFlaw] at hnone
        by_cases hfield : name ∈ fields
        · rw [if_pos hfield] at hnone
          split at hnone
          · cases hnone
          · next hnew =>
            obtain ⟨htail, hsound, hfresh⟩ := ih hnone
            refine ⟨htail, ⟨?_, ?_⟩, ?_⟩
            · exact List.forall_mem_cons.mpr
                ⟨⟨name, rfl, fun hmissing => absurd hfield hmissing⟩, hsound.named⟩
            · refine .cons ?_ hsound.once
              intro other hother field hmem hsame
              cases hsame
              exact hfresh other hother name List.mem_cons_self hmem
            · refine List.forall_mem_cons.mpr ⟨?_, ?_⟩
              · rintro field hseen - hsame
                cases hsame
                exact hnew hseen
              · exact fun other hother field hseen =>
                  hfresh other hother field (List.mem_cons_of_mem _ hseen)
        · rw [if_neg hfield] at hnone
          split at hnone
          · cases hnone
          · next hskip =>
            obtain ⟨htail, hsound, hfresh⟩ := ih hnone
            refine ⟨htail, ⟨?_, ?_⟩, ?_⟩
            · exact List.forall_mem_cons.mpr ⟨⟨name, rfl, fun _ => hskip⟩, hsound.named⟩
            · refine .cons ?_ hsound.once
              intro other _ field hmem hsame
              cases hsame
              exact absurd hmem hfield
            · refine List.forall_mem_cons.mpr ⟨?_, hfresh⟩
              rintro field - hmem hsame
              cases hsame
              exact hfield hmem

theorem firstFlaw_eq_none_iff :
    members.firstFlaw fields tail 0 [] = none ↔ tail = none ∧ members.IsSound fields := by
  constructor
  · intro hnone
    obtain ⟨htail, hsound, -⟩ := isSound_of_firstFlaw hnone
    exact ⟨htail, hsound⟩
  · rintro ⟨rfl, hsound⟩
    exact firstFlaw_eq_none hsound.named hsound.once fun _ _ _ => nofun

/-- Among sound members a field has one value. -/
theorem IsSound.eq_of_mem (hsound : members.IsSound fields) (hname : name ∈ fields)
    {other : Tree} (hmem : (.ok name, tree) ∈ members) (hother : (.ok name, other) ∈ members) :
    other = tree := by
  by_contra hne
  have hdistinct : (Except.ok (ε := Problem) name, tree) ≠ (.ok name, other) :=
    fun hsame => hne (congrArg Prod.snd hsame).symm
  exact hsound.once.forall hmem hother hdistinct name hname rfl rfl

end Members

/-! ## Fields -/

namespace Record

variable {members : Members} {codec : Codec A} {default? : Option A} {depth : Nat} {value : A}

/-- What a field comes to: its value is read, or it is missing and has a default. -/
def Gives (members : Members) (name : String) (codec : Codec A) (default? : Option A)
    (depth : Nat) (value : A) : Prop :=
  (∃ tree, (.ok name, tree) ∈ members ∧ codec.decode depth tree = .ok value) ∨
    (∀ tree, (.ok name, tree) ∉ members) ∧ default? = some value

theorem readField_eq_ok_iff (hsound : members.IsSound fields) (hname : name ∈ fields) :
    readField name codec default? depth members = .ok value ↔
      Gives members name codec default? depth value := by
  by_cases hmissing : ∀ tree, (.ok name, tree) ∉ members
  · have hnone : ¬∃ tree, (.ok name, tree) ∈ members ∧ codec.decode depth tree = .ok value :=
      fun ⟨tree, hmem, _⟩ => hmissing tree hmem
    rw [Gives, or_iff_right hnone, and_iff_right hmissing]
    cases default? <;> simp [readField, Members.locate_eq_none hmissing]
  · rw [Gives, or_iff_left fun h => hmissing h.1]
    simp only [not_forall, not_not] at hmissing
    obtain ⟨tree, hmem⟩ := hmissing
    obtain ⟨place, hfound⟩ :=
      Members.exists_locate_eq_some hmem fun other => hsound.eq_of_mem hname hmem
    have hvalue : readField name codec default? depth members = .ok value ↔
        codec.decode depth tree = .ok value := by
      simp only [readField, hfound]
      cases codec.decode depth tree <;> simp
    rw [hvalue]
    constructor
    · exact fun hread => ⟨tree, hmem, hread⟩
    · rintro ⟨other, hother, hread⟩
      rwa [hsound.eq_of_mem hname hmem hother] at hread

theorem gives_required_iff :
    Gives members name codec none depth value ↔
      ∃ tree, (.ok name, tree) ∈ members ∧ codec.decode depth tree = .ok value := by
  simp [Gives]

/-- What an optional field comes to: missing and `null` are the same. -/
def GivesOption (members : Members) (name : String) (codec : Codec A) (depth : Nat) :
    Option A → Prop
  | none => ∀ tree, (.ok name, tree) ∈ members → tree = .null
  | some value =>
    ∃ tree, (.ok name, tree) ∈ members ∧ tree ≠ .null ∧ codec.decode depth tree = .ok value

theorem decode_optional_eq_none_iff :
    codec.optional.decode depth tree = .ok none ↔ tree = .null := by
  cases tree with
  | null => exact iff_of_true rfl rfl
  | _ => exact iff_of_false (fun h => by simpa using map_eq_ok_iff.mp h) nofun

theorem decode_optional_eq_some_iff :
    codec.optional.decode depth tree = .ok (some value) ↔
      tree ≠ .null ∧ codec.decode depth tree = .ok value := by
  cases tree with
  | null => exact iff_of_false (fun h => by cases h) fun h => h.1 rfl
  | _ =>
      rw [and_iff_right (by nofun)]
      refine map_eq_ok_iff.trans ?_
      simp only [Option.some.injEq, exists_eq_right]

theorem gives_optional_iff (hsound : members.IsSound fields) (hname : name ∈ fields)
    {found : Option A} :
    Gives members name codec.optional (some none) depth found ↔
      GivesOption members name codec depth found := by
  cases found with
  | some value => simp [Gives, GivesOption, decode_optional_eq_some_iff]
  | none =>
      simp only [Gives, GivesOption, decode_optional_eq_none_iff, and_true]
      constructor
      · rintro (⟨tree, hmem, rfl⟩ | hmissing) other hother
        · exact hsound.eq_of_mem hname hmem hother
        · exact absurd hother (hmissing other)
      · intro hnull
        by_cases hmissing : ∀ tree, (.ok name, tree) ∉ members
        · exact .inr hmissing
        · simp only [not_forall, not_not] at hmissing
          obtain ⟨tree, hmem⟩ := hmissing
          exact .inl ⟨tree, hmem, hnull tree hmem⟩

theorem apply_eq_ok_iff {f : Except Finding (A → C)} {a : Except Finding A} {result : C} :
    apply f a = .ok result ↔ ∃ make value, f = .ok make ∧ a = .ok value ∧ make value = result := by
  cases f <;> cases a <;> simp [apply]

/-- Reading one field more. -/
theorem read_add_eq_ok_iff {record : Record B (A → C)} {get : B → A} {result : C}
    (hsound : members.IsSound fields) (hname : name ∈ fields) :
    (record.add name codec default? get).read depth members = .ok result ↔
      ∃ make value, record.read depth members = .ok make ∧
        Gives members name codec default? depth value ∧ make value = result := by
  simp only [add, apply_eq_ok_iff, readField_eq_ok_iff hsound hname]

theorem readMembers_eq_ok_iff {record : Record B A} {tail : Option Problem} :
    record.readMembers depth members tail = .ok value ↔
      tail = none ∧ members.IsSound record.names ∧ record.read depth members = .ok value := by
  rw [← and_assoc, ← Members.firstFlaw_eq_none_iff, readMembers]
  cases members.firstFlaw record.names tail 0 [] <;>
    cases record.read depth members <;> simp

end Record

/-! ## Whole records -/

/-- The members that a tree has as a record: those of an object, or the fields in their order for
the items of a list.  The last fields may be missing from a list. -/
inductive Tree.Shows (fields : List String) : Tree → Members → Prop where
  | object {members : List (Key × Tree)} (sound : (readNames members).IsSound fields) :
      Shows fields (.object members none) (readNames members)
  | array {items : List Tree} (fits : items.length ≤ fields.length) :
      Shows fields (.array items none) (Record.positional fields items)

namespace Record

theorem mem_positional {items : List Tree} {entry : Except Problem String × Tree}
    (hmem : entry ∈ positional fields items) : ∃ name ∈ fields, entry.1 = .ok name := by
  induction fields generalizing items with
  | nil => cases hmem
  | cons field fields ih =>
      cases items with
      | nil => cases hmem
      | cons item items =>
          obtain rfl | hrest := List.mem_cons.mp hmem
          · exact ⟨field, List.mem_cons_self, rfl⟩
          · obtain ⟨name, hname, hentry⟩ := ih hrest
            exact ⟨name, List.mem_cons_of_mem _ hname, hentry⟩

/-- The items of a list are sound members, since a record has no two fields of one name. -/
theorem isSound_positional (hdistinct : fields.Nodup) (items : List Tree) :
    (positional fields items).IsSound fields where
  named := by
    intro entry hmem
    obtain ⟨name, hname, hentry⟩ := mem_positional hmem
    exact ⟨name, hentry, fun hmissing => absurd hname hmissing⟩
  once := by
    have honce : (positional fields items).Pairwise fun left right => left.1 ≠ right.1 := by
      induction hdistinct generalizing items with
      | nil => exact .nil
      | @cons field fields hnew _ ih =>
          cases items with
          | nil => exact .nil
          | cons item items =>
              refine .cons ?_ (ih items)
              intro entry hmem hsame
              obtain ⟨name, hname, hentry⟩ := mem_positional hmem
              rw [hentry, Except.ok.injEq] at hsame
              exact hnew name hname hsame
    exact honce.imp fun hne name _ hleft hright => hne (hleft.trans hright.symm)

end Record

theorem Tree.Shows.isSound {members : Members} (hdistinct : fields.Nodup)
    (hshows : Shows fields tree members) : members.IsSound fields := by
  cases hshows with
  | object sound => exact sound
  | array fits => exact Record.isSound_positional hdistinct _

/-- A record is read from the members that a tree has, if there are levels left. -/
theorem Record.decode_eq_ok_iff {record : Record A A} {depth : Nat} {value : A}
    (hdistinct : record.names.Nodup) :
    record.codec.decode (depth + 1) tree = .ok value ↔
      ∃ members, tree.Shows record.names members ∧ record.read depth members = .ok value := by
  constructor
  · intro hread
    cases tree with
    | object members tail =>
        obtain ⟨rfl, hsound, hvalue⟩ := readMembers_eq_ok_iff.mp hread
        exact ⟨readNames members, .object hsound, hvalue⟩
    | array items tail =>
        obtain ⟨htail, hsound, hvalue⟩ := readMembers_eq_ok_iff.mp hread
        split at htail
        · cases htail
        · next hfits =>
          cases htail
          exact ⟨positional record.names items, .array (Nat.not_lt.mp hfits), hvalue⟩
    | _ => cases hread
  · rintro ⟨members, hshows, hvalue⟩
    have hread : record.readMembers depth members none = .ok value :=
      readMembers_eq_ok_iff.mpr ⟨rfl, hshows.isSound hdistinct, hvalue⟩
    cases hshows with
    | object sound => exact hread
    | array fits =>
        change record.readMembers depth _ (if record.names.length < _ then _ else _) = _
        rwa [if_neg (Nat.not_lt.mpr fits)]

end Scorekeeper.Json
