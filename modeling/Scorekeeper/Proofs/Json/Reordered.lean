import Mathlib.Data.List.Perm.Basic
import Scorekeeper.Proofs.Json.Printed

/-!
# Values up to the order of members

A store gives back the value that it took, but the members of its objects may come in
another order.  One value is a reordering of another when neighbours have been swapped
in some objects of it, at any depth.  Reading any value sorts the members, which is one
such reordering.
-/

namespace Scorekeeper.Json

/-- The second value is the first with the members of some objects in another order. -/
inductive Reordered : Json → Json → Prop where
  | refl (value : Json) : Reordered value value
  | trans {first second third : Json} : Reordered first second → Reordered second third →
      Reordered first third
  | swap (front back : List (String × Json)) (left right : String × Json) :
      Reordered (.obj (front ++ left :: right :: back)) (.obj (front ++ right :: left :: back))
  | item (front back : List Json) {before after : Json} : Reordered before after →
      Reordered (.arr (front ++ before :: back)) (.arr (front ++ after :: back))
  | member (front back : List (String × Json)) (name : String) {before after : Json} :
      Reordered before after →
      Reordered (.obj (front ++ (name, before) :: back)) (.obj (front ++ (name, after) :: back))

/-- Two members of one name whose values are reorderings. -/
def Matches (before after : String × Json) : Prop :=
  before.1 = after.1 ∧ Reordered before.2 after.2

variable {levels : Nat} {value after : Json} {items others : List Json}
  {members rest : List (String × Json)}

theorem matches_refl (member : String × Json) : Matches member member :=
  ⟨rfl, .refl _⟩

theorem Matches.trans {first second third : String × Json} (hfirst : Matches first second)
    (hsecond : Matches second third) : Matches first third :=
  ⟨hfirst.1.trans hsecond.1, hfirst.2.trans hsecond.2⟩

theorem map_fst_eq_of_forall₂ (hmatches : List.Forall₂ Matches members rest) :
    members.map Prod.fst = rest.map Prod.fst := by
  induction hmatches with
  | nil => rfl
  | cons hmatch _ ih => rw [List.map_cons, List.map_cons, hmatch.1, ih]

/-- Two lists that differ in one place are related when what stands there is. -/
theorem forall₂_replace {A : Type} {R : A → A → Prop} (hrefl : ∀ a, R a a) (front back : List A)
    {before after : A} (hchange : R before after) :
    List.Forall₂ R (front ++ before :: back) (front ++ after :: back) := by
  have hsame (list : List A) : List.Forall₂ R list list :=
    List.forall₂_same.mpr fun a _ => hrefl a
  exact List.rel_append (hsame front) (.cons hchange (hsame back))

theorem forall₂_trans {A : Type} {R : A → A → Prop}
    (htrans : ∀ a b c, R a b → R b c → R a c) {first second third : List A}
    (hfirst : List.Forall₂ R first second) (hsecond : List.Forall₂ R second third) :
    List.Forall₂ R first third := by
  induction hfirst generalizing third with
  | nil => exact hsecond
  | cons hhead _ ih =>
      cases hsecond with
      | cons hnext hrest => exact .cons (htrans _ _ _ hhead hnext) (ih hrest)

theorem forall₂_append_singleton {A B : Type} {R : A → B → Prop} {left : List A} {right : List B}
    {a : A} {b : B} (hall : List.Forall₂ R (left ++ [a]) (right ++ [b])) :
    List.Forall₂ R left right ∧ R a b := by
  rw [← List.forall₂_reverse_iff, List.reverse_concat, List.reverse_concat,
    List.forall₂_cons, List.forall₂_reverse_iff] at hall
  exact hall.symm

namespace Reordered

/-! ## Making reorderings -/

theorem arr (hitems : List.Forall₂ Reordered items others) :
    Reordered (.arr items) (.arr others) := by
  have hbehind (front : List Json) :
      Reordered (.arr (front ++ items)) (.arr (front ++ others)) := by
    induction hitems generalizing front with
    | nil => exact .refl _
    | @cons before after items others hitem hitems ih =>
        apply (Reordered.item front items hitem).trans
        rw [List.append_cons, List.append_cons front after others]
        exact ih _
  exact hbehind []

theorem obj_of_perm (hperm : members.Perm rest) : Reordered (.obj members) (.obj rest) := by
  have hbehind (front : List (String × Json)) :
      Reordered (.obj (front ++ members)) (.obj (front ++ rest)) := by
    induction hperm generalizing front with
    | nil => exact .refl _
    | @cons member members rest hperm ih =>
        rw [List.append_cons, List.append_cons front member rest]
        exact ih _
    | swap left right back => exact .swap front back right left
    | trans hfirst hsecond ihfirst ihsecond => exact (ihfirst front).trans (ihsecond front)
  exact hbehind []

theorem obj_of_matches (hmembers : List.Forall₂ Matches members rest) :
    Reordered (.obj members) (.obj rest) := by
  have hbehind (front : List (String × Json)) :
      Reordered (.obj (front ++ members)) (.obj (front ++ rest)) := by
    induction hmembers generalizing front with
    | nil => exact .refl _
    | @cons before after members rest hmember hmembers ih =>
        obtain ⟨name, before⟩ := before
        obtain ⟨other, after⟩ := after
        obtain ⟨rfl, hvalue⟩ := hmember
        apply (Reordered.member front members name hvalue).trans
        rw [List.append_cons, List.append_cons front (name, after) rest]
        exact ih _
  exact hbehind []

/-! ## What a reordering looks like -/

theorem arr_cases (hreordered : Reordered (.arr items) after) :
    ∃ others, after = .arr others ∧ List.Forall₂ Reordered items others := by
  generalize hvalue : Json.arr items = value at hreordered
  induction hreordered generalizing items with
  | refl value =>
      subst hvalue
      exact ⟨items, rfl, List.forall₂_same.mpr fun item _ => .refl item⟩
  | trans _ _ ihfirst ihsecond =>
      obtain ⟨middle, rfl, hmiddle⟩ := ihfirst hvalue
      obtain ⟨others, rfl, hothers⟩ := ihsecond rfl
      exact ⟨others, rfl, forall₂_trans (R := Reordered) (fun _ _ _ => .trans) hmiddle hothers⟩
  | item front back hitem _ =>
      cases hvalue
      exact ⟨_, rfl, forall₂_replace Reordered.refl front back hitem⟩
  | swap front back left right => cases hvalue
  | member front back name hmember _ => cases hvalue

theorem obj_cases (hreordered : Reordered (.obj members) after) :
    ∃ middle rest, after = .obj rest ∧ members.Perm middle ∧
      List.Forall₂ Matches middle rest := by
  generalize hvalue : Json.obj members = value at hreordered
  induction hreordered generalizing members with
  | refl value =>
      subst hvalue
      exact ⟨members, members, rfl, .refl _,
        List.forall₂_same.mpr fun member _ => matches_refl member⟩
  | trans _ _ ihfirst ihsecond =>
      obtain ⟨middle, rest, rfl, hmiddle, hrest⟩ := ihfirst hvalue
      obtain ⟨second, last, rfl, hsecond, hlast⟩ := ihsecond rfl
      -- the second rearrangement is made before the first change of values
      have hback : List.Forall₂ (flip Matches) rest middle := hrest.flip
      obtain ⟨between, hbetween, hperm⟩ := List.perm_comp_forall₂ hsecond.symm hback
      have hforth : List.Forall₂ Matches between second := hbetween.flip
      exact ⟨between, last, rfl, hmiddle.trans hperm.symm,
        forall₂_trans (R := Matches) (fun _ _ _ => Matches.trans) hforth hlast⟩
  | swap front back left right =>
      cases hvalue
      exact ⟨_, _, rfl, (List.Perm.swap right left back).append_left front,
        List.forall₂_same.mpr fun member _ => matches_refl member⟩
  | member front back name hmember _ =>
      cases hvalue
      exact ⟨_, _, rfl, .refl _, forall₂_replace matches_refl front back ⟨rfl, hmember⟩⟩
  | item front back hitem _ => cases hvalue

/-- A value that is neither a list nor an object has no other order. -/
theorem eq_of_leaf (hreordered : Reordered value after)
    (hitems : ∀ items, value ≠ .arr items) (hmembers : ∀ members, value ≠ .obj members) :
    after = value := by
  induction hreordered with
  | refl value => rfl
  | trans _ _ ihfirst ihsecond =>
      obtain rfl := ihfirst hitems hmembers
      exact ihsecond hitems hmembers
  | swap front back left right => exact absurd rfl (hmembers _)
  | item front back _ _ => exact absurd rfl (hitems _)
  | member front back name _ _ => exact absurd rfl (hmembers _)

theorem ne_null (hreordered : Reordered value after) (hne : value ≠ .null) : after ≠ .null := by
  induction hreordered with
  | refl value => exact hne
  | trans _ _ ihfirst ihsecond => exact ihsecond (ihfirst hne)
  | swap front back left right => rintro ⟨⟩
  | item front back _ _ => rintro ⟨⟩
  | member front back name _ _ => rintro ⟨⟩

end Reordered

theorem isPlain_arr_iff :
    IsPlain levels (.arr items) ↔
      ∃ less, levels = less + 1 ∧ ∀ item ∈ items, IsPlain less item := by
  constructor
  · intro hplain
    cases hplain with
    | arr plain => exact ⟨_, rfl, plain⟩
  · rintro ⟨less, rfl, hitems⟩
    exact .arr hitems

theorem isPlain_obj_iff :
    IsPlain levels (.obj members) ↔
      ∃ less, levels = less + 1 ∧ (members.map Prod.fst).Nodup ∧
        ∀ member ∈ members, IsPlain less member.2 := by
  constructor
  · intro hplain
    cases hplain with
    | obj distinct plain => exact ⟨_, rfl, distinct, plain⟩
  · rintro ⟨less, rfl, hdistinct, hmembers⟩
    exact .obj hdistinct hmembers

/-- What documents hold in one order they hold in any other. -/
theorem IsPlain.reordered (hplain : value.IsPlain levels) (hreordered : Reordered value after) :
    after.IsPlain levels := by
  induction hreordered generalizing levels with
  | refl value => exact hplain
  | trans _ _ ihfirst ihsecond => exact ihsecond (ihfirst hplain)
  | swap front back left right =>
      have hperm := (List.Perm.swap right left back).append_left front
      rw [isPlain_obj_iff] at hplain ⊢
      obtain ⟨less, hlevels, hdistinct, hmembers⟩ := hplain
      refine ⟨less, hlevels, (hperm.map Prod.fst).nodup hdistinct, ?_⟩
      intro member hmem
      exact hmembers member (hperm.mem_iff.mpr hmem)
  | @item front back before after _ ih =>
      rw [isPlain_arr_iff] at hplain ⊢
      obtain ⟨less, hlevels, hitems⟩ := hplain
      refine ⟨less, hlevels, ?_⟩
      simp only [List.forall_mem_append, List.forall_mem_cons] at hitems ⊢
      exact ⟨hitems.1, ih hitems.2.1, hitems.2.2⟩
  | @member front back name before after _ ih =>
      rw [isPlain_obj_iff] at hplain ⊢
      obtain ⟨less, hlevels, hdistinct, hmembers⟩ := hplain
      refine ⟨less, hlevels, by simpa using hdistinct, ?_⟩
      simp only [List.forall_mem_append, List.forall_mem_cons] at hmembers ⊢
      exact ⟨hmembers.1, ih hmembers.2.1, hmembers.2.2⟩

/-! ## Sorting members -/

theorem insertMember_perm {name : String} (hname : name ∉ members.map Prod.fst) :
    (insertMember name value members).Perm ((name, value) :: members) := by
  induction members with
  | nil => exact .refl _
  | cons first members ih =>
      obtain ⟨other, old⟩ := first
      rw [List.map_cons, List.mem_cons, not_or] at hname
      rw [insertMember]
      split
      · exact .refl _
      · rw [if_neg hname.1]
        exact ((ih hname.2).cons _).trans (.swap _ _ _)

theorem sortMembers_perm (hdistinct : (members.map Prod.fst).Nodup) :
    (sortMembers members).Perm members := by
  have hfold (sorted members : List (String × Json))
      (hdistinct : ((sorted ++ members).map Prod.fst).Nodup) :
      (members.foldl (fun sorted member => insertMember member.1 member.2 sorted) sorted).Perm
        (sorted ++ members) := by
    induction members generalizing sorted with
    | nil => simp
    | cons member members ih =>
        have hperm : (sorted ++ member :: members).Perm
            (member :: sorted ++ members) := List.perm_middle
        have hnext := (hperm.map Prod.fst).nodup hdistinct
        have hinsert : (insertMember member.1 member.2 sorted).Perm (member :: sorted) := by
          apply insertMember_perm
          rw [List.cons_append, List.map_cons, List.nodup_cons, List.map_append,
            List.mem_append, not_or] at hnext
          exact hnext.1.1
        have hboth : (insertMember member.1 member.2 sorted ++ members).Perm
            (member :: sorted ++ members) := hinsert.append_right members
        exact (ih _ ((hboth.map Prod.fst).symm.nodup hnext)).trans
          (hboth.trans hperm.symm)
  exact hfold [] members hdistinct

/-! ## Reading any value -/

theorem decodeAnyItems_treeItems {R : Json → Json → Prop} (depth : Nat)
    (hitems : ∀ item ∈ items, ∃ sorted, Codec.decodeAny depth item.tree = .ok sorted ∧
      R item sorted) :
    ∃ others, Codec.decodeAnyItems depth (treeItems items) = .ok others ∧
      List.Forall₂ R items others := by
  induction items with
  | nil => exact ⟨[], rfl, .nil⟩
  | cons item items ih =>
      obtain ⟨⟨sorted, hsorted, hitem⟩, hrest⟩ := List.forall_mem_cons.mp hitems
      obtain ⟨others, hothers, hall⟩ := ih hrest
      refine ⟨sorted :: others, ?_, .cons hitem hall⟩
      rw [treeItems, Codec.decodeAnyItems, hsorted, hothers]
      rfl

theorem decodeAnyMembers_treeMembers {R : Json → Json → Prop} (depth : Nat)
    (hmembers : ∀ member ∈ members, ∃ sorted,
      Codec.decodeAny depth member.2.tree = .ok sorted ∧ R member.2 sorted) :
    ∃ rest, Codec.decodeAnyMembers depth (treeMembers members) = .ok rest ∧
      List.Forall₂ (fun before after => before.1 = after.1 ∧ R before.2 after.2) members rest := by
  induction members with
  | nil => exact ⟨[], rfl, .nil⟩
  | cons member members ih =>
      obtain ⟨⟨sorted, hsorted, hmember⟩, hrest⟩ := List.forall_mem_cons.mp hmembers
      obtain ⟨rest, hothers, hall⟩ := ih hrest
      obtain ⟨name, value⟩ := member
      refine ⟨(name, sorted) :: rest, ?_, .cons ⟨rfl, hmember⟩ hall⟩
      rw [treeMembers, Codec.decodeAnyMembers, read_ofString, hsorted, hothers]
      rfl

theorem decodeAny_tree_int {n : Int} (low : -Nat.pow 2 63 ≤ n) (high : n < UInt64.size)
    (depth : Nat) : Codec.decodeAny depth (tree (.int n)) = .ok (.int n) := by
  have hinteger := integer?_ofInt low high
  have hrange : (Numeral.ofInt n).inRange = true := by
    rw [Numeral.inRange, hinteger]
    rfl
  rw [tree, Codec.decodeAny, if_pos hrange, hinteger]

theorem decodeAny_tree_str (value : String) (depth : Nat) :
    Codec.decodeAny depth (tree (.str value)) = .ok (.str value) := by
  rw [tree, Codec.decodeAny, read_ofChars, String.ofList_toList]
  rfl

/-- Reading any value gives it with sorted members, which is a reordering of it. -/
theorem IsPlain.decodeAny_tree (hplain : value.IsPlain levels) {depth : Nat}
    (hdepth : levels ≤ depth) :
    ∃ sorted, Codec.decodeAny depth value.tree = .ok sorted ∧ Reordered value sorted := by
  induction hplain generalizing depth with
  | null => exact ⟨.null, rfl, .refl _⟩
  | bool value => exact ⟨.bool value, rfl, .refl _⟩
  | int low high => exact ⟨_, decodeAny_tree_int low high depth, .refl _⟩
  | str value => exact ⟨_, decodeAny_tree_str value depth, .refl _⟩
  | arr plain ih =>
      obtain ⟨depth, rfl⟩ : ∃ less, depth = less + 1 := ⟨depth - 1, by omega⟩
      obtain ⟨others, hothers, hmatch⟩ := decodeAnyItems_treeItems depth
        fun item hmem => ih item hmem (by omega)
      refine ⟨.arr others, ?_, .arr hmatch⟩
      rw [tree, Codec.decodeAny, hothers]
      rfl
  | obj distinct plain ih =>
      obtain ⟨depth, rfl⟩ : ∃ less, depth = less + 1 := ⟨depth - 1, by omega⟩
      obtain ⟨rest, hrest, hmatch⟩ := decodeAnyMembers_treeMembers depth
        fun member hmem => ih member hmem (by omega)
      refine ⟨.obj (sortMembers rest), ?_, ?_⟩
      · rw [tree, Codec.decodeAny, hrest]
        rfl
      · rw [map_fst_eq_of_forall₂ hmatch] at distinct
        exact (Reordered.obj_of_matches hmatch).trans
          (.obj_of_perm (sortMembers_perm distinct).symm)

/-! ## Values in order -/

/-- The members of all objects in the value have ascending names. -/
inductive IsSorted : Json → Prop where
  | null : IsSorted .null
  | bool (value : Bool) : IsSorted (.bool value)
  | int (n : Int) : IsSorted (.int n)
  | real (numeral : Numeral) : IsSorted (.real numeral)
  | str (value : String) : IsSorted (.str value)
  | arr {items : List Json} (sorted : ∀ item ∈ items, IsSorted item) : IsSorted (.arr items)
  | obj {members : List (String × Json)}
      (ascending : members.Pairwise fun left right => left.1 < right.1)
      (sorted : ∀ member ∈ members, IsSorted member.2) : IsSorted (.obj members)

theorem insertMember_of_forall_lt {name : String} (hlast : ∀ member ∈ members, member.1 < name) :
    insertMember name value members = members ++ [(name, value)] := by
  induction members with
  | nil => rfl
  | cons first members ih =>
      obtain ⟨other, old⟩ := first
      obtain ⟨hfirst, hrest⟩ := List.forall_mem_cons.mp hlast
      have hne : name ≠ other := fun hsame => String.lt_irrefl other (hsame ▸ hfirst)
      rw [insertMember, if_neg (String.lt_asymm hfirst), if_neg hne, ih hrest]
      rfl

theorem sortMembers_of_pairwise
    (hascending : members.Pairwise fun left right => left.1 < right.1) :
    sortMembers members = members := by
  have hfold (sorted members : List (String × Json))
      (hascending : (sorted ++ members).Pairwise fun left right => left.1 < right.1) :
      members.foldl (fun sorted member => insertMember member.1 member.2 sorted) sorted =
        sorted ++ members := by
    induction members generalizing sorted with
    | nil => simp
    | cons member members ih =>
        have hlast := (List.pairwise_append.mp hascending).2.2
        have hinsert : insertMember member.1 member.2 sorted = sorted ++ [member] :=
          insertMember_of_forall_lt fun other hmem =>
            hlast other hmem member List.mem_cons_self
        rw [List.append_cons] at hascending ⊢
        rw [List.foldl_cons, hinsert]
        exact ih _ hascending
  exact hfold [] members hascending

/-- A value in order is read unchanged. -/
theorem IsPlain.decodeAny_tree_of_isSorted (hplain : value.IsPlain levels)
    (hsorted : value.IsSorted) {depth : Nat} (hdepth : levels ≤ depth) :
    Codec.decodeAny depth value.tree = .ok value := by
  induction hplain generalizing depth with
  | null => rfl
  | bool value => rfl
  | int low high => exact decodeAny_tree_int low high depth
  | str value => exact decodeAny_tree_str value depth
  | arr plain ih =>
      cases hsorted with
      | arr hitems =>
          obtain ⟨depth, rfl⟩ : ∃ less, depth = less + 1 := ⟨depth - 1, by omega⟩
          obtain ⟨others, hothers, hall⟩ := decodeAnyItems_treeItems (R := Eq) depth
            fun item hmem => ⟨item, ih item hmem (hitems item hmem) (by omega), rfl⟩
          rw [List.forall₂_eq_eq_eq] at hall
          rw [tree, Codec.decodeAny, hothers, hall]
          rfl
  | obj distinct plain ih =>
      cases hsorted with
      | obj hascending hmembers =>
          obtain ⟨depth, rfl⟩ : ∃ less, depth = less + 1 := ⟨depth - 1, by omega⟩
          obtain ⟨rest, hrest, hall⟩ := decodeAnyMembers_treeMembers (R := Eq) depth
            fun member hmem => ⟨member.2, ih member hmem (hmembers member hmem) (by omega), rfl⟩
          simp only [← Prod.ext_iff, List.forall₂_eq_eq_eq] at hall
          rw [tree, Codec.decodeAny, hrest, ← hall]
          simp only [bind, Except.bind, unlessProblem, sortMembers_of_pairwise hascending]

end Scorekeeper.Json
