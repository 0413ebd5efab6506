import Scorekeeper.Json.Record
import Scorekeeper.Proofs.Json.Variants
import Scorekeeper.Proofs.Outcome

/-!
# Lawful codecs

A codec is lawful for some forms when it reads back what it writes from all of them.  Some
things do come out otherwise, such as the entries of a map that has come in another order, so
the law names the relation between what was written and what is read.  The codecs that
documents are made of are lawful, and records of lawful fields are.
-/

namespace Scorekeeper.Json

variable {A B C : Type} {levels depth : Nat} {forms : Variance}

/-! ## Laws -/

/-- What the codec writes for a valid value is nested to at most so many levels, and from any of
its forms, of which the one that is written is one, the same value is read. -/
structure Codec.IsLawful (codec : Codec A) (forms : Variance) (levels : Nat) (valid : A → Prop)
    (same : A → A → Prop) : Prop where
  plain : ∀ value, valid value → (codec.encode value).IsPlain levels
  written : ∀ value, valid value → forms (codec.encode value) (codec.encode value).tree
  restores : ∀ (value : A) (tree : Tree) (depth : Nat), valid value → levels ≤ depth →
    forms (codec.encode value) tree →
      ∃ read, codec.decode depth tree = .ok read ∧ same value read

/-- The same law for what a record is made of. -/
structure Record.IsLawful (record : Record B A) (rules : List Rule) (levels : Nat)
    (valid : B → Prop) (same : B → A → Prop) : Prop where
  names : rules.map Rule.name = record.names
  plain : ∀ value, valid value → ∀ member ∈ record.write value, member.2.IsPlain levels
  written : ∀ value, valid value → List.Forall₂ (Rule.Admits Eq) rules (record.write value)
  restores : ∀ (value : B) (members : Members) (depth : Nat), valid value → levels ≤ depth →
    List.Forall₂ members.Has rules (record.write value) →
      ∃ read, record.read depth members = .ok read ∧ same value read

theorem IsPlain.mono {less : Nat} {value : Json} (hplain : value.IsPlain less)
    (hle : less ≤ levels) : value.IsPlain levels := by
  induction hplain generalizing levels with
  | null => exact .null
  | bool value => exact .bool value
  | int low high => exact .int low high
  | str value => exact .str value
  | @arr less items plain ih =>
      exact isPlain_arr_iff.mpr
        ⟨levels - 1, by omega, fun item hmem => ih item hmem (by omega)⟩
  | @obj less members distinct plain ih =>
      exact isPlain_obj_iff.mpr
        ⟨levels - 1, by omega, distinct, fun member hmem => ih member hmem (by omega)⟩

namespace Codec

variable {codec : Codec A} {valid : A → Prop} {same : A → A → Prop}

/-- The law holds for fewer values, at more levels, and with a weaker relation. -/
theorem IsLawful.weaken {less : Nat} {valid' : A → Prop} {same' : A → A → Prop}
    (hlawful : codec.IsLawful forms less valid same) (hle : less ≤ levels)
    (hvalid : ∀ value, valid' value → valid value)
    (hsame : ∀ value read, valid' value → same value read → same' value read) :
    codec.IsLawful forms levels valid' same' where
  plain value hv := (hlawful.plain value (hvalid value hv)).mono hle
  written value hv := hlawful.written value (hvalid value hv)
  restores value tree depth hv hdepth hform := by
    obtain ⟨read, hread, hsame'⟩ :=
      hlawful.restores value tree depth (hvalid value hv) (Nat.le_trans hle hdepth) hform
    exact ⟨read, hread, hsame value read hv hsame'⟩

/-- The law holds for reorderings if they are among the forms. -/
theorem IsLawful.narrow (hlawful : codec.IsLawful forms levels valid same)
    (hforms : ∀ value tree, Variance.reordered (codec.encode value) tree →
      forms (codec.encode value) tree) :
    codec.IsLawful .reordered levels valid same where
  plain := hlawful.plain
  written _ _ := Variance.reordered_tree _
  restores value tree depth hvalid hdepth hform :=
    hlawful.restores value tree depth hvalid hdepth (hforms value tree hform)

/-! ## Values without members -/

theorem isLawful_text : text.IsLawful .reordered 0 (fun _ => True) Eq where
  plain value _ := .str value
  written _ _ := Variance.reordered_tree _
  restores value tree depth _ _ hform := by
    obtain rfl := hform.eq_of_leaf (by rintro _ ⟨⟩) (by rintro _ ⟨⟩)
    refine ⟨value, ?_, rfl⟩
    change Piece.read (Piece.ofChars value.toList) = .ok value
    rw [read_ofChars, String.ofList_toList]

theorem isLawful_flag : flag.IsLawful .reordered 0 (fun _ => True) Eq where
  plain value _ := .bool value
  written _ _ := Variance.reordered_tree _
  restores value tree depth _ _ hform := by
    obtain rfl := hform.eq_of_leaf (by rintro _ ⟨⟩) (by rintro _ ⟨⟩)
    exact ⟨value, rfl, rfl⟩

theorem decode_integer {ofInt? : Int → Option A} {toInt : A → Int} {n : Int} {value : A}
    (hinteger : (Numeral.ofInt n).integer? = some n) (hvalue : ofInt? n = some value) :
    (integer ofInt? toInt).decode depth (.number (.ofInt n)) = .ok value := by
  simp only [integer, hinteger, hvalue]

theorem isLawful_word32 : word32.IsLawful .reordered 0 (fun _ => True) Eq := by
  have hrange (value : UInt32) :
      -Nat.pow 2 63 ≤ (value.toNat : Int) ∧ (value.toNat : Int) < UInt64.size := by
    have hlow : -(Nat.pow 2 63 : Int) ≤ 0 := by decide
    have hhigh : UInt32.size ≤ UInt64.size := by decide
    have hlt : value.toNat < UInt32.size := value.toNat_lt
    omega
  refine ⟨fun value _ => .int (hrange value).1 (hrange value).2,
    fun _ _ => Variance.reordered_tree _, ?_⟩
  intro value tree depth _ _ hform
  obtain rfl := hform.eq_of_leaf (by rintro _ ⟨⟩) (by rintro _ ⟨⟩)
  refine ⟨value, ?_, rfl⟩
  apply decode_integer (integer?_ofInt (hrange value).1 (hrange value).2)
  have hbounds : 0 ≤ (value.toNat : Int) ∧ (value.toNat : Int) < UInt32.size :=
    ⟨Int.natCast_nonneg _, Int.ofNat_lt.mpr value.toNat_lt⟩
  rw [if_pos hbounds, Int.toNat_natCast, UInt32.ofNat_toNat]

theorem isLawful_choice {ofName? : String → Option A} {name : A → String}
    (hnames : ∀ value, ofName? (name value) = some value) :
    (choice ofName? name).IsLawful .reordered 0 (fun _ => True) Eq where
  plain value _ := .str (name value)
  written _ _ := Variance.reordered_tree _
  restores value tree depth _ _ hform := by
    obtain rfl := hform.eq_of_leaf (by rintro _ ⟨⟩) (by rintro _ ⟨⟩)
    refine ⟨value, ?_, rfl⟩
    change chooseWith ofName? depth (.text (Piece.ofChars (name value).toList)) = _
    rw [chooseWith, read_ofChars, String.ofList_toList]
    simp only [bind, Except.bind, hnames]

/-! ## Values with members -/

theorem isLawful_any (levels : Nat) :
    any.IsLawful .reordered levels (IsPlain levels) Reordered where
  plain value hplain := hplain
  written _ _ := Variance.reordered_tree _
  restores value tree depth hplain hdepth hform := by
    obtain ⟨written, hreordered, rfl⟩ := hform
    obtain ⟨sorted, hsorted, hsame⟩ := (hplain.reordered hreordered).decodeAny_tree hdepth
    exact ⟨sorted, hsorted, hreordered.trans hsame⟩

/-- What is in order already comes back unchanged. -/
theorem isLawful_any_sorted (levels : Nat) :
    any.IsLawful .verbatim levels (fun value => value.IsPlain levels ∧ value.IsSorted) Eq where
  plain value hvalid := hvalid.1
  written _ _ := rfl
  restores value tree depth hvalid hdepth hform := by
    obtain rfl : tree = value.tree := hform
    exact ⟨value, hvalid.1.decodeAny_tree_of_isSorted hvalid.2 hdepth, rfl⟩

theorem IsLawful.optional (hlawful : codec.IsLawful forms levels valid same)
    (hnull : ∀ value, valid value → codec.encode value ≠ .null) (hforms : forms.KeepsNull) :
    codec.optional.IsLawful forms levels (fun value => ∀ some ∈ value, valid some)
      (Option.Rel same) where
  plain value hvalid := by
    cases value with
    | none => exact .null
    | some value => exact hlawful.plain value (hvalid value rfl)
  written value hvalid := by
    cases value with
    | none => exact hforms.null
    | some value => exact hlawful.written value (hvalid value rfl)
  restores value tree depth hvalid hdepth hform := by
    cases value with
    | none =>
        obtain rfl := (hforms.only _ _ hform).mpr rfl
        exact ⟨none, rfl, .none⟩
    | some value =>
        have hv := hvalid value rfl
        obtain ⟨read, hread, hsame⟩ := hlawful.restores value tree depth hv hdepth hform
        refine ⟨some read, ?_, .some hsame⟩
        have hne : tree ≠ .null := mt (hforms.only _ _ hform).mp (hnull value hv)
        simp only [Codec.optional, hread]
        rfl

theorem mapM_decode {values : List A} {trees : List Tree}
    (hlawful : codec.IsLawful forms levels valid same) (hvalid : ∀ value ∈ values, valid value)
    (hdepth : levels ≤ depth) (hitems : List.Forall₂ forms (values.map codec.encode) trees) :
    ∃ read, trees.mapM (codec.decode depth) = .ok read ∧ List.Forall₂ same values read := by
  induction values generalizing trees with
  | nil =>
      cases hitems
      exact ⟨[], rfl, .nil⟩
  | cons value values ih =>
      cases hitems with
      | cons hfirst hrest =>
          obtain ⟨hv, hvalues⟩ := List.forall_mem_cons.mp hvalid
          obtain ⟨read, hread, hsame⟩ := hlawful.restores value _ depth hv hdepth hfirst
          obtain ⟨others, hothers, hall⟩ := ih hvalues hrest
          refine ⟨read :: others, ?_, .cons hsame hall⟩
          rw [List.mapM_cons, hread, hothers]
          rfl

theorem IsLawful.listed (hlawful : codec.IsLawful forms levels valid same) :
    codec.list.IsLawful (.Listed forms) (levels + 1) (fun values => ∀ value ∈ values, valid value)
      (List.Forall₂ same) where
  plain values hvalid := by
    apply IsPlain.arr
    intro item hmem
    obtain ⟨value, hvalue, rfl⟩ := List.mem_map.mp hmem
    exact hlawful.plain value (hvalid value hvalue)
  written values hvalid :=
    Variance.listed_tree (List.forall_mem_map.mpr fun value hmem =>
      hlawful.written value (hvalid value hmem))
  restores values tree depth hvalid hdepth hform := by
    cases hform with
    | @mk _ trees hitems =>
        obtain ⟨depth, rfl⟩ : ∃ less, depth = less + 1 := ⟨depth - 1, by omega⟩
        obtain ⟨read, hread, hsame⟩ :=
          mapM_decode hlawful hvalid (Nat.le_of_succ_le_succ hdepth) hitems
        refine ⟨read, ?_, hsame⟩
        change (do
          let values ← trees.mapM (codec.decode depth)
          unlessProblem none values) = .ok read
        rw [hread]
        rfl

/-- A list of values that come back unchanged comes back unchanged. -/
theorem IsLawful.listed_eq (hlawful : codec.IsLawful forms levels valid Eq) :
    codec.list.IsLawful (.Listed forms) (levels + 1) (fun values => ∀ value ∈ values, valid value)
      Eq := by
  apply hlawful.listed.weaken (Nat.le_refl _)
  · exact fun _ hvalid => hvalid
  · intro values read _ hsame
    rwa [List.forall₂_eq_eq_eq] at hsame

theorem IsLawful.list_eq (hlawful : codec.IsLawful .reordered levels valid Eq) :
    codec.list.IsLawful .reordered (levels + 1) (fun values => ∀ value ∈ values, valid value)
      Eq :=
  hlawful.listed_eq.narrow fun _ _ =>
    Variance.listed_of_reordered fun _ _ other hother => ⟨other, hother, rfl⟩

/-! ## Maps -/

theorem putEntry_of_not_mem [BEq A] [LawfulBEq A] {key : A} {value : B}
    {entries : List (A × B)} (hkey : key ∉ entries.map Prod.fst) :
    putEntry key value entries = entries ++ [(key, value)] := by
  induction entries with
  | nil => rfl
  | cons entry entries ih =>
      obtain ⟨other, old⟩ := entry
      rw [List.map_cons, List.mem_cons, not_or] at hkey
      rw [putEntry, if_neg (by simpa using Ne.symm hkey.1), ih hkey.2]
      rfl

section Maps

variable [BEq A] {ofName? : String → Option A} {name : A → String}
  {codec : Codec B} {valid : B → Prop} (hnames : ∀ key, ofName? (name key) = some key)
  (hlawful : codec.IsLawful .reordered levels valid Eq)

include hnames hlawful

theorem isPlain_encode_entries {entries : List (A × B)}
    (hdistinct : (entries.map Prod.fst).Nodup) (hvalid : ∀ entry ∈ entries, valid entry.2) :
    ((Codec.entries ofName? name codec).encode entries).IsPlain (levels + 1) := by
  have hinjective : Function.Injective name := by
    intro left right hsame
    have hboth := congrArg ofName? hsame
    rw [hnames, hnames] at hboth
    exact Option.some.inj hboth
  apply IsPlain.obj
  · have hmapped := List.Nodup.map hinjective hdistinct
    simpa [Function.comp_def] using hmapped
  · intro member hmem
    obtain ⟨entry, hentry, rfl⟩ := List.mem_map.mp hmem
    exact hlawful.plain entry.2 (hvalid entry hentry)

variable [LawfulBEq A]

/-- Entries with different keys are read in the order in which they stand. -/
theorem decodeEntries_treeMembers (hdepth : levels ≤ depth) {entries : List (A × B)}
    (done : List (A × B)) {written : List (String × Json)}
    (hvalid : ∀ entry ∈ entries, valid entry.2)
    (hdistinct : ((done ++ entries).map Prod.fst).Nodup)
    (hmatches : List.Forall₂ Matches
      (entries.map fun entry => (name entry.1, codec.encode entry.2)) written) :
    decodeEntries ofName? (codec.decode depth) (treeMembers written) done =
      .ok (done ++ entries) := by
  induction entries generalizing done written with
  | nil =>
      cases hmatches
      rw [List.append_nil]
      rfl
  | cons entry entries ih =>
      obtain ⟨key, value⟩ := entry
      cases hmatches with
      | @cons _ member _ rest hfirst hrest =>
          obtain ⟨other, after⟩ := member
          obtain ⟨rfl, hafter⟩ := hfirst
          obtain ⟨hv, hvalues⟩ := List.forall_mem_cons.mp hvalid
          obtain ⟨_, hread, rfl⟩ :=
            hlawful.restores value after.tree depth hv hdepth ⟨after, hafter, rfl⟩
          have hfresh : key ∉ done.map Prod.fst := by
            intro hmem
            rw [List.map_append, List.nodup_append] at hdistinct
            exact hdistinct.2.2 key hmem key List.mem_cons_self rfl
          rw [List.append_cons] at hdistinct ⊢
          rw [treeMembers, decodeEntries, read_ofString]
          simp only [bind, Except.bind, hnames, hread]
          rw [putEntry_of_not_mem hfresh]
          exact ih _ hvalues hdistinct hrest

theorem decode_entries_of_matches {entries : List (A × B)} {written : List (String × Json)}
    (hdepth : levels + 1 ≤ depth) (hvalid : ∀ entry ∈ entries, valid entry.2)
    (hdistinct : (entries.map Prod.fst).Nodup)
    (hmatches : List.Forall₂ Matches
      (entries.map fun entry => (name entry.1, codec.encode entry.2)) written) :
    (Codec.entries ofName? name codec).decode depth (tree (.obj written)) = .ok entries := by
  obtain ⟨depth, rfl⟩ : ∃ less, depth = less + 1 := ⟨depth - 1, by omega⟩
  have hread := decodeEntries_treeMembers hnames hlawful (Nat.le_of_succ_le_succ hdepth) []
    hvalid hdistinct hmatches
  change (do
    let values ← decodeEntries ofName? (codec.decode depth) (treeMembers written) []
    unlessProblem none values) = .ok entries
  rw [hread]
  rfl

/-- A map is read as the same entries, in the order in which they have come. -/
theorem IsLawful.entries :
    (Codec.entries ofName? name codec).IsLawful .reordered (levels + 1)
      (fun values => (values.map Prod.fst).Nodup ∧ ∀ entry ∈ values, valid entry.2)
      List.Perm where
  plain values hvalid := isPlain_encode_entries hnames hlawful hvalid.1 hvalid.2
  written _ _ := Variance.reordered_tree _
  restores values tree depth hvalid hdepth hform := by
    obtain ⟨_, hreordered, rfl⟩ := hform
    obtain ⟨middle, rest, rfl, hperm, hmatches⟩ := hreordered.obj_cases
    -- the entries in the order in which they have come
    have hcome := congrFun₂
      (List.eq_map_comp_perm fun entry : A × B => (name entry.1, codec.encode entry.2))
      middle values
    obtain ⟨entries, rfl, hback⟩ := hcome.mpr hperm.symm
    have hentries := hback.symm
    exact ⟨entries, decode_entries_of_matches hnames hlawful hdepth
      (fun entry hmem => hvalid.2 entry (hentries.mem_iff.mpr hmem))
      ((hentries.map Prod.fst).nodup hvalid.1) hmatches, hentries⟩

/-- A map as it was written is read unchanged. -/
theorem IsLawful.entries_verbatim :
    (Codec.entries ofName? name codec).IsLawful .verbatim (levels + 1)
      (fun values => (values.map Prod.fst).Nodup ∧ ∀ entry ∈ values, valid entry.2) Eq where
  plain values hvalid := isPlain_encode_entries hnames hlawful hvalid.1 hvalid.2
  written _ _ := rfl
  restores values tree depth hvalid hdepth hform := by
    obtain rfl := hform
    exact ⟨values, decode_entries_of_matches hnames hlawful hdepth hvalid.2 hvalid.1
      (List.forall₂_same.mpr fun member _ => matches_refl member), rfl⟩

end Maps

end Codec

/-! ## Records -/

namespace Record

variable {valid : B → Prop} {rules : List Rule}

theorem isLawful_of (levels : Nat) (make : A) :
    (of make : Record B A).IsLawful [] levels (fun _ => True) fun _ read => read = make where
  names := rfl
  plain _ _ member hmem := by cases hmem
  written _ _ := .nil
  restores _ _ _ _ _ _ := ⟨make, rfl, rfl⟩

/-- What is read is made of the rest of the record and one field, each the same as before. -/
def Extends (same : B → (A → C) → Prop) (sameField : A → A → Prop) (get : B → A) (value : B)
    (read : C) : Prop :=
  ∃ make field, same value make ∧ sameField (get value) field ∧ read = make field

section Fields

variable {record : Record B (A → C)} {same : B → (A → C) → Prop}
  (hrecord : record.IsLawful rules levels valid same) {codec : Codec A} {less : Nat}
  {validField : A → Prop} {sameField : A → A → Prop}
  (hcodec : codec.IsLawful forms less validField sameField) (hle : less ≤ levels)
  (name : String)

include hrecord hcodec hle

/-- A lawful record with one more lawful field.  A default is the same as the values that are
written as it is. -/
theorem IsLawful.add (default? : Option A) (get : B → A)
    (hdefault : ∀ default ∈ default?, ∀ value, validField value →
      codec.encode default = codec.encode value → sameField value default) :
    (record.add name codec default? get).IsLawful
      (rules ++ [⟨name, default?.map codec.encode, forms⟩]) levels
      (fun value => valid value ∧ validField (get value)) (Extends same sameField get) where
  names := by
    rw [Record.add, List.map_append, hrecord.names]
    rfl
  plain value hvalid := by
    intro member hmem
    obtain hmem | hmem := List.mem_append.mp hmem
    · exact hrecord.plain value hvalid.1 member hmem
    · rw [List.mem_singleton.mp hmem]
      exact (hcodec.plain _ hvalid.2).mono hle
  written value hvalid := by
    refine List.rel_append (hrecord.written value hvalid.1) (.cons ⟨rfl, ?_⟩ .nil)
    rintro _ rfl
    exact hcodec.written _ hvalid.2
  restores value members depth hvalid hdepth hhas := by
    obtain ⟨hbefore, hnew⟩ := forall₂_append_singleton hhas
    obtain ⟨make, hmake, hsame⟩ :=
      hrecord.restores value members depth hvalid.1 hdepth hbefore
    have hfield : ∃ field, readField name codec default? depth members = .ok field ∧
        sameField (get value) field := by
      obtain ⟨place, tree, hlocate, hform⟩ | ⟨hmissing, hwritten⟩ := hnew
      · obtain ⟨field, hfield, hsameField⟩ := hcodec.restores (get value) tree depth hvalid.2
          (Nat.le_trans hle hdepth) hform
        refine ⟨field, ?_, hsameField⟩
        simp only [readField, hlocate, hfield]
      · obtain ⟨field, hdefault?, hencode⟩ := Option.map_eq_some_iff.mp hwritten
        refine ⟨field, ?_, hdefault field hdefault? _ hvalid.2 hencode⟩
        simp only [readField, hmissing, hdefault?]
    obtain ⟨field, hfield, hsameField⟩ := hfield
    refine ⟨make field, ?_, make, field, hsame, hsameField, rfl⟩
    rw [Record.add]
    simp only [hmake, hfield, apply]

theorem IsLawful.field (get : B → A) :
    (record.field name codec get).IsLawful (rules ++ [⟨name, none, forms⟩]) levels
      (fun value => valid value ∧ validField (get value)) (Extends same sameField get) :=
  hrecord.add hcodec hle name none get (by rintro _ ⟨⟩)

theorem IsLawful.fieldOr (default : A) (get : B → A)
    (hdefault : ∀ value, validField value → codec.encode default = codec.encode value →
      sameField value default) :
    (record.fieldOr name codec default get).IsLawful
      (rules ++ [⟨name, some (codec.encode default), forms⟩]) levels
      (fun value => valid value ∧ validField (get value)) (Extends same sameField get) :=
  hrecord.add hcodec hle name (some default) get (by rintro _ ⟨⟩; exact hdefault)

end Fields

/-- A record whose fields have different names makes a lawful codec. -/
theorem IsLawful.codec {record : Record A A} {valid : A → Prop} {same : A → A → Prop}
    (hrecord : record.IsLawful rules levels valid same) (hdistinct : record.names.Nodup) :
    record.codec.IsLawful (.Recorded rules) (levels + 1) valid same where
  plain value hvalid := by
    apply IsPlain.obj
    · rw [← map_name_eq_of_forall₂ (hrecord.written value hvalid), hrecord.names]
      exact hdistinct
    · exact hrecord.plain value hvalid
  written value hvalid := Variance.recorded_tree (hrecord.written value hvalid)
  restores value tree depth hvalid hdepth hform := by
    cases hform with
    | @mk _ kept unknown members hkeeps hunknown hmembers =>
        obtain ⟨depth, rfl⟩ : ∃ less, depth = less + 1 := ⟨depth - 1, by omega⟩
        rw [← hrecord.names] at hdistinct
        have hflaw := firstFlaw_of_perm hkeeps hdistinct hunknown hmembers
        have hhas := has_of_perm hkeeps hdistinct hunknown hmembers
        obtain ⟨read, hread, hsame⟩ :=
          hrecord.restores value _ depth hvalid (Nat.le_of_succ_le_succ hdepth) hhas
        refine ⟨read, ?_, hsame⟩
        change record.readMembers depth (readNames members) none = .ok read
        rw [readMembers, ← hrecord.names, hflaw, hread]

end Record

end Scorekeeper.Json
