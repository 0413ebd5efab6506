import Mathlib.Data.List.Nodup
import Scorekeeper.Json.Record
import Scorekeeper.Proofs.Json.Reordered

/-!
# Forms in which a value may come back

What was written may come back in another form: with the fields of a record in another
order, among members that no field has the name of, and without the fields that hold their
defaults.  A variance says which trees may stand for a written value.  There is one for
records, which takes a rule for each field, one for lists, and two for values that are not
looked into: as they were written, or with the members of objects in some order.
-/

namespace Scorekeeper.Json

/-- Which trees may stand for a value that was written. -/
abbrev Variance :=
  Json → Tree → Prop

namespace Variance

/-- The value as it was written. -/
def verbatim : Variance :=
  fun value tree => tree = value.tree

/-- The value with the members of its objects in some order. -/
def reordered : Variance :=
  fun value tree => ∃ written, Reordered value written ∧ tree = written.tree

/-- Forms of the items one by one. -/
inductive Listed (forms : Variance) : Json → Tree → Prop where
  | mk {items : List Json} {trees : List Tree} (hitems : List.Forall₂ forms items trees) :
      Listed forms (.arr items) (.array trees none)

end Variance

/-- A field of a record: its name, the value as which it may be left out, and the forms in which
its value may come back. -/
structure Rule where
  name : String
  default? : Option Json
  forms : Variance

/-- The fields that are kept of a written record, in their order. -/
inductive Keeps : List Rule → List (String × Json) → List (Key × Tree) → Prop where
  | nil : Keeps [] [] []
  | keep {rule : Rule} {rules : List Rule} {value : Json} {tree : Tree}
      {written : List (String × Json)} {kept : List (Key × Tree)}
      (hvalue : rule.forms value tree) (hrest : Keeps rules written kept) :
      Keeps (rule :: rules) ((rule.name, value) :: written)
        ((.ofString rule.name, tree) :: kept)
  | drop {rule : Rule} {rules : List Rule} {value : Json} {written : List (String × Json)}
      {kept : List (Key × Tree)} (hdefault : rule.default? = some value)
      (hrest : Keeps rules written kept) :
      Keeps (rule :: rules) ((rule.name, value) :: written) kept

/-- A member that is none of the fields, with any well-formed value. -/
structure IsUnknown (fields : List String) (member : Key × Tree) : Prop where
  name : ∃ name, member.1.read = .ok name ∧ name ∉ fields
  value : ∃ text, Spells member.2 text

/-- A record in any order of its members, some of them unknown, without some of the fields that
hold their defaults. -/
inductive Variance.Recorded (rules : List Rule) : Json → Tree → Prop where
  | mk {written : List (String × Json)} {kept unknown members : List (Key × Tree)}
      (hkeeps : Keeps rules written kept)
      (hunknown : ∀ member ∈ unknown, IsUnknown (rules.map Rule.name) member)
      (hmembers : members.Perm (kept ++ unknown)) :
      Recorded rules (.obj written) (.object members none)

variable {rules : List Rule} {written : List (String × Json)}
  {kept unknown members : List (Key × Tree)} {fields : List String}

theorem Key.ofString_injective : Function.Injective Key.ofString := by
  intro left right hsame
  have hread := congrArg Key.read hsame
  rw [read_ofString, read_ofString] at hread
  exact Except.ok.inj hread

/-! ## Forms of what is written -/

namespace Variance

/-- `null` may stand for `null`, and neither stands for or is stood for by anything else. -/
structure KeepsNull (forms : Variance) : Prop where
  null : forms .null .null
  only : ∀ value tree, forms value tree → (tree = .null ↔ value = .null)

theorem tree_eq_null_iff {value : Json} : value.tree = .null ↔ value = .null := by
  cases value <;> simp [tree]

theorem keepsNull_verbatim : verbatim.KeepsNull where
  null := rfl
  only := by
    rintro value _ rfl
    exact tree_eq_null_iff

theorem keepsNull_reordered : reordered.KeepsNull where
  null := ⟨.null, .refl _, rfl⟩
  only := by
    rintro value _ ⟨written, hwritten, rfl⟩
    rw [tree_eq_null_iff]
    refine ⟨fun hnull => ?_, ?_⟩
    · by_contra hne
      exact hwritten.ne_null hne hnull
    · rintro rfl
      exact hwritten.eq_of_leaf (by rintro _ ⟨⟩) (by rintro _ ⟨⟩)

theorem reordered_tree (value : Json) : reordered value value.tree :=
  ⟨value, .refl value, rfl⟩

/-- A value without items and members has no other order. -/
theorem reordered.eq_of_leaf {value : Json} {tree : Tree} (hreordered : reordered value tree)
    (hitems : ∀ items, value ≠ .arr items) (hmembers : ∀ members, value ≠ .obj members) :
    tree = value.tree := by
  obtain ⟨written, hwritten, rfl⟩ := hreordered
  rw [hwritten.eq_of_leaf hitems hmembers]

theorem listed_of_reordered {forms : Variance} {items : List Json} {tree : Tree}
    (hitems : ∀ item ∈ items, ∀ other, Reordered item other → forms item other.tree)
    (hreordered : reordered (.arr items) tree) : Listed forms (.arr items) tree := by
  obtain ⟨_, hvalue, rfl⟩ := hreordered
  obtain ⟨others, rfl, hothers⟩ := hvalue.arr_cases
  rw [tree, treeItems_eq_map]
  refine .mk (List.forall₂_map_right_iff.mpr ?_)
  clear hvalue
  induction hothers with
  | nil => exact .nil
  | cons hitem _ ih =>
      obtain ⟨hfirst, hrest⟩ := List.forall_mem_cons.mp hitems
      exact .cons (hfirst _ hitem) (ih hrest)

theorem listed_tree {forms : Variance} {items : List Json}
    (hitems : ∀ item ∈ items, forms item item.tree) :
    Listed forms (.arr items) (tree (.arr items)) := by
  rw [tree, treeItems_eq_map]
  exact .mk (List.forall₂_map_right_iff.mpr (List.forall₂_same.mpr hitems))

end Variance

/-- The rule is for the field, and every value related to the field's is one of its forms. -/
def Rule.Admits (R : Json → Json → Prop) (rule : Rule) (field : String × Json) : Prop :=
  rule.name = field.1 ∧ ∀ other, R field.2 other → rule.forms field.2 other.tree

theorem keeps_treeMembers {R : Json → Json → Prop} {others : List (String × Json)}
    (hadmits : List.Forall₂ (Rule.Admits R) rules written)
    (hothers : List.Forall₂ (fun before after => before.1 = after.1 ∧ R before.2 after.2)
      written others) :
    Keeps rules written (treeMembers others) := by
  induction hadmits generalizing others with
  | nil =>
      cases hothers
      exact .nil
  | @cons rule field rules written hfits _ ih =>
      cases hothers with
      | @cons _ other _ others hmatch hothers =>
          obtain ⟨name, value⟩ := field
          obtain ⟨_, after⟩ := other
          obtain ⟨rfl, hvalue⟩ := hmatch
          obtain ⟨rfl, hfits⟩ := hfits
          exact .keep (hfits after hvalue) (ih hothers)

theorem map_name_eq_of_forall₂ {R : Json → Json → Prop}
    (hadmits : List.Forall₂ (Rule.Admits R) rules written) :
    rules.map Rule.name = written.map Prod.fst := by
  induction hadmits with
  | nil => rfl
  | cons hfits _ ih => rw [List.map_cons, List.map_cons, hfits.1, ih]

namespace Variance

theorem recorded_tree (hadmits : List.Forall₂ (Rule.Admits Eq) rules written) :
    Recorded rules (.obj written) (tree (.obj written)) := by
  rw [tree]
  have hkeeps := keeps_treeMembers hadmits (List.forall₂_same.mpr fun _ _ => ⟨rfl, rfl⟩)
  exact .mk hkeeps (List.forall_mem_nil _) (by rw [List.append_nil])

theorem admits_reordered {name : String} {default? : Option Json} {value : Json} :
    Rule.Admits Reordered ⟨name, default?, reordered⟩ (name, value) :=
  ⟨rfl, fun other hother => ⟨other, hother, rfl⟩⟩

theorem recorded_of_reordered {tree : Tree}
    (hadmits : List.Forall₂ (Rule.Admits Reordered) rules written)
    (hreordered : reordered (.obj written) tree) : Recorded rules (.obj written) tree := by
  obtain ⟨_, hvalue, rfl⟩ := hreordered
  obtain ⟨middle, rest, rfl, hperm, hmatches⟩ := hvalue.obj_cases
  -- the changes of values are made before the rearrangement
  obtain ⟨others, hothers, hrest⟩ := List.perm_comp_forall₂ hperm hmatches
  refine .mk (keeps_treeMembers hadmits hothers) (List.forall_mem_nil _) ?_
  rw [List.append_nil, treeMembers_eq_map, treeMembers_eq_map]
  exact hrest.symm.map _

end Variance

/-! ## Looking for fields -/

/-- Members with their names read. -/
def readNames (members : List (Key × Tree)) : Members :=
  members.map fun member => (member.1.read, member.2)

namespace Members

variable {entries : Members} {name : String} {tree : Tree}

theorem locate_eq_none (hmissing : ∀ tree, (.ok name, tree) ∉ entries) :
    entries.locate name = none := by
  induction entries with
  | nil => rfl
  | cons entry entries ih =>
      have hrest : locate name entries = none :=
        ih fun tree hmem => hmissing tree (List.mem_cons_of_mem _ hmem)
      obtain ⟨other | other, value⟩ := entry
      · rw [locate, hrest]
        rfl
      · have hne : other ≠ name := by
          rintro rfl
          exact hmissing value List.mem_cons_self
        rw [locate, if_neg hne, hrest]
        rfl

/-- A member that is the only one of its name is found. -/
theorem exists_locate_eq_some (hmem : (.ok name, tree) ∈ entries)
    (honly : ∀ other, (.ok name, other) ∈ entries → other = tree) :
    ∃ place, entries.locate name = some (place, tree) := by
  induction entries with
  | nil => cases hmem
  | cons entry entries ih =>
      by_cases hfirst : ∃ value, entry = (.ok name, value)
      · obtain ⟨value, rfl⟩ := hfirst
        rw [honly value List.mem_cons_self]
        exact ⟨0, if_pos rfl⟩
      · have hrest : (.ok name, tree) ∈ entries := by
          obtain hsame | hrest := List.mem_cons.mp hmem
          · exact absurd ⟨tree, hsame.symm⟩ hfirst
          · exact hrest
        obtain ⟨place, hplace⟩ :=
          ih hrest fun other hother => honly other (List.mem_cons_of_mem _ hother)
        obtain ⟨other | other, value⟩ := entry
        · rw [locate, hplace]
          exact ⟨place + 1, rfl⟩
        · have hne : other ≠ name := by
            rintro rfl
            exact hfirst ⟨value, rfl⟩
          rw [locate, if_neg hne, hplace]
          exact ⟨place + 1, rfl⟩

/-- Not both members are the same field. -/
def Apart (fields : List String) (left right : Except Problem String × Tree) : Prop :=
  ∀ name ∈ fields, left.1 = .ok name → right.1 ≠ .ok name

/-- Members have no flaw if their names can be read, no field comes twice, and what is passed
over is well formed. -/
theorem firstFlaw_eq_none {place : Nat} {seen : List String}
    (hgood : ∀ entry ∈ entries, ∃ name, entry.1 = .ok name ∧ (name ∉ fields → entry.2.skip = none))
    (hapart : entries.Pairwise (Apart fields))
    (hfresh : ∀ entry ∈ entries, ∀ name ∈ seen, entry.1 ≠ .ok name) :
    entries.firstFlaw fields none place seen = none := by
  induction entries generalizing place seen with
  | nil => rfl
  | cons entry entries ih =>
      obtain ⟨hfirst, hrest⟩ := List.forall_mem_cons.mp hgood
      obtain ⟨hothers, hlater⟩ := List.pairwise_cons.mp hapart
      obtain ⟨hnew, hunseen⟩ := List.forall_mem_cons.mp hfresh
      obtain ⟨key, value⟩ := entry
      obtain ⟨name, rfl, hskip⟩ := hfirst
      rw [firstFlaw]
      by_cases hfield : name ∈ fields
      · have hnotSeen : name ∉ seen := fun hseen => hnew name hseen rfl
        rw [if_pos hfield, if_neg hnotSeen]
        apply ih hrest hlater
        intro other hmem earlier hseen
        obtain rfl | hseen := List.mem_cons.mp hseen
        · exact hothers other hmem _ hfield rfl
        · exact hunseen other hmem earlier hseen
      · rw [if_neg hfield, hskip hfield]
        exact ih hrest hlater hunseen

/-- The member of a field is found in one of its forms, or the field holds its default and is
missing. -/
def Has (members : Members) (rule : Rule) (field : String × Json) : Prop :=
  (∃ place tree, members.locate rule.name = some (place, tree) ∧ rule.forms field.2 tree) ∨
    members.locate rule.name = none ∧ rule.default? = some field.2

end Members

/-! ## Forms of records -/

theorem Keeps.exists_rule (hkeeps : Keeps rules written kept) {member : Key × Tree}
    (hmem : member ∈ kept) : ∃ rule ∈ rules, member.1 = .ofString rule.name := by
  induction hkeeps with
  | nil => cases hmem
  | @keep rule _ _ _ _ _ _ _ ih =>
      obtain rfl | hrest := List.mem_cons.mp hmem
      · exact ⟨rule, List.mem_cons_self, rfl⟩
      · obtain ⟨other, hother, hname⟩ := ih hrest
        exact ⟨other, List.mem_cons_of_mem _ hother, hname⟩
  | drop _ _ ih =>
      obtain ⟨other, hother, hname⟩ := ih hmem
      exact ⟨other, List.mem_cons_of_mem _ hother, hname⟩

theorem Keeps.notMem (hkeeps : Keeps rules written kept) {name : String}
    (hname : name ∉ rules.map Rule.name) (tree : Tree) : (.ofString name, tree) ∉ kept := by
  intro hmem
  obtain ⟨rule, hrule, hsame⟩ := hkeeps.exists_rule hmem
  rw [Key.ofString_injective hsame] at hname
  exact hname (List.mem_map_of_mem hrule)

/-- No field is kept twice. -/
theorem Keeps.nodup (hkeeps : Keeps rules written kept) (hdistinct : (rules.map Rule.name).Nodup) :
    (kept.map Prod.fst).Nodup := by
  induction hkeeps with
  | nil => exact .nil
  | @keep rule _ _ _ _ kept _ hrest ih =>
      rw [List.map_cons, List.nodup_cons] at hdistinct
      rw [List.map_cons, List.nodup_cons]
      refine ⟨fun hmem => ?_, ih hdistinct.2⟩
      obtain ⟨⟨_, tree⟩, hmem, rfl⟩ := List.mem_map.mp hmem
      exact hrest.notMem hdistinct.1 tree hmem
  | drop _ _ ih =>
      rw [List.map_cons, List.nodup_cons] at hdistinct
      exact ih hdistinct.2

/-- Every field is found among members whose fields are those that are kept.  By induction on
the rules; the fields further down are not those already found, since their names differ. -/
theorem Keeps.has (hkeeps : Keeps rules written kept) (hdistinct : (rules.map Rule.name).Nodup)
    {entries : Members}
    (hkept : ∀ name tree, (.ofString name, tree) ∈ kept → (.ok name, tree) ∈ entries)
    (honly : ∀ rule ∈ rules, ∀ tree, (.ok rule.name, tree) ∈ entries →
      (.ofString rule.name, tree) ∈ kept) :
    List.Forall₂ entries.Has rules written := by
  induction hkeeps with
  | nil => exact .nil
  | @keep rule rules value tree written kept hvalue hrest ih =>
      rw [List.map_cons, List.nodup_cons] at hdistinct
      obtain ⟨hfirst, hothers⟩ := List.forall_mem_cons.mp honly
      refine .cons (.inl ?_) (ih hdistinct.2 ?_ ?_)
      · have hunique : ∀ other, (.ok rule.name, other) ∈ entries → other = tree := by
          intro other hother
          obtain hsame | hmem := List.mem_cons.mp (hfirst other hother)
          · exact congrArg Prod.snd hsame
          · exact absurd hmem (hrest.notMem hdistinct.1 other)
        obtain ⟨place, hplace⟩ :=
          Members.exists_locate_eq_some (hkept _ _ List.mem_cons_self) hunique
        exact ⟨place, tree, hplace, hvalue⟩
      · exact fun name tree hmem => hkept name tree (List.mem_cons_of_mem _ hmem)
      · intro other hother tree hmem
        obtain hsame | hmem := List.mem_cons.mp (hothers other hother tree hmem)
        · have hname := Key.ofString_injective (congrArg Prod.fst hsame)
          rw [← hname] at hdistinct
          exact absurd (List.mem_map_of_mem hother) hdistinct.1
        · exact hmem
  | @drop rule rules value written kept hdefault hrest ih =>
      rw [List.map_cons, List.nodup_cons] at hdistinct
      obtain ⟨hfirst, hothers⟩ := List.forall_mem_cons.mp honly
      refine .cons (.inr ⟨?_, hdefault⟩) (ih hdistinct.2 hkept hothers)
      exact Members.locate_eq_none fun tree hmem =>
        hrest.notMem hdistinct.1 tree (hfirst tree hmem)

section Recorded

variable (hkeeps : Keeps rules written kept) (hdistinct : (rules.map Rule.name).Nodup)
  (hunknown : ∀ member ∈ unknown, IsUnknown (rules.map Rule.name) member)
  (hmembers : members.Perm (kept ++ unknown))

include hkeeps hdistinct hunknown hmembers

/-- Whatever the order of the members and whatever else is among them, every field is found. -/
theorem has_of_perm : List.Forall₂ (readNames members).Has rules written := by
  have hmem (member : Key × Tree) : member ∈ members ↔ member ∈ kept ∨ member ∈ unknown := by
    rw [hmembers.mem_iff, List.mem_append]
  apply hkeeps.has hdistinct
  · intro name tree hkept
    have hread := List.mem_map_of_mem (f := fun member : Key × Tree => (member.1.read, member.2))
      ((hmem _).mpr (.inl hkept))
    rw [read_ofString] at hread
    exact hread
  · intro rule hrule tree hentry
    obtain ⟨member, hmember, hsame⟩ := List.mem_map.mp hentry
    obtain ⟨hname, rfl⟩ := Prod.mk.inj hsame
    obtain hkept | hother := (hmem member).mp hmember
    · obtain ⟨found, _, hfound⟩ := hkeeps.exists_rule hkept
      rw [hfound, read_ofString, Except.ok.injEq] at hname
      rw [← hname, ← hfound]
      exact hkept
    · obtain ⟨name, hread, hfresh⟩ := (hunknown member hother).name
      rw [hread, Except.ok.injEq] at hname
      rw [hname] at hfresh
      exact absurd (List.mem_map_of_mem hrule) hfresh

/-- Such members have no flaw. -/
theorem firstFlaw_of_perm :
    (readNames members).firstFlaw (rules.map Rule.name) none 0 [] = none := by
  have hmem (member : Key × Tree) : member ∈ members ↔ member ∈ kept ∨ member ∈ unknown := by
    rw [hmembers.mem_iff, List.mem_append]
  apply Members.firstFlaw_eq_none
  · intro entry hentry
    obtain ⟨member, hmember, rfl⟩ := List.mem_map.mp hentry
    obtain hkept | hother := (hmem member).mp hmember
    · obtain ⟨rule, hrule, hname⟩ := hkeeps.exists_rule hkept
      refine ⟨rule.name, ?_, fun hmissing => absurd (List.mem_map_of_mem hrule) hmissing⟩
      rw [hname, read_ofString]
    · obtain ⟨⟨name, hread, -⟩, text, htext⟩ := hunknown member hother
      exact ⟨name, hread, fun _ => htext.skip_eq_none⟩
  · have hsymm {left right : Key × Tree} (hapart : Members.Apart (rules.map Rule.name)
        (left.1.read, left.2) (right.1.read, right.2)) :
        Members.Apart (rules.map Rule.name) (right.1.read, right.2) (left.1.read, left.2) :=
      fun name hname hright hleft => hapart name hname hleft hright
    rw [readNames, List.pairwise_map, hmembers.pairwise_iff hsymm, List.pairwise_append]
    -- what is unknown is apart from everything
    have hother {member : Key × Tree} (hmember : member ∈ unknown) (other : Key × Tree) :
        Members.Apart (rules.map Rule.name) (other.1.read, other.2) (member.1.read, member.2) := by
      obtain ⟨name, hread, hfresh⟩ := (hunknown member hmember).name
      intro field hfield _ hsame
      rw [hread, Except.ok.injEq] at hsame
      rw [hsame] at hfresh
      exact hfresh hfield
    refine ⟨?_, List.pairwise_of_forall_mem_list fun left _ right hright => hother hright left,
      fun left _ right hright => hother hright left⟩
    refine (List.pairwise_map.mp (hkeeps.nodup hdistinct)).imp_of_mem ?_
    intro left right hleft hright hne name _ hfirst hsecond
    obtain ⟨first, -, hleft⟩ := hkeeps.exists_rule hleft
    obtain ⟨second, -, hright⟩ := hkeeps.exists_rule hright
    rw [hleft, read_ofString, Except.ok.injEq] at hfirst
    rw [hright, read_ofString, Except.ok.injEq] at hsecond
    exact hne (by rw [hleft, hright, hfirst, hsecond])
  · exact fun _ _ => nofun

end Recorded

end Scorekeeper.Json
