import Scorekeeper.Proofs.Json.Spelled

/-!
# Reading what was printed

The text of a value spells the tree of that value, whatever characters the strings in it
hold, and so it is read back as that tree.  This is shown for every value as it occurs in
documents: its numbers are 64-bit integers, the names in an object differ, and it is nested
to a known depth.
-/

namespace Scorekeeper.Json

open Text

/-- A value as documents hold them, of at most so many levels of lists and objects. -/
inductive IsPlain : Nat → Json → Prop where
  | null {levels : Nat} : IsPlain levels .null
  | bool {levels : Nat} (value : Bool) : IsPlain levels (.bool value)
  | int {levels : Nat} {n : Int} (low : -Nat.pow 2 63 ≤ n) (high : n < UInt64.size) :
      IsPlain levels (.int n)
  | str {levels : Nat} (value : String) : IsPlain levels (.str value)
  | arr {levels : Nat} {items : List Json} (plain : ∀ item ∈ items, IsPlain levels item) :
      IsPlain (levels + 1) (.arr items)
  | obj {levels : Nat} {members : List (String × Json)}
      (distinct : (members.map Prod.fst).Nodup)
      (plain : ∀ member ∈ members, IsPlain levels member.2) :
      IsPlain (levels + 1) (.obj members)

variable {levels : Nat} {value : Json}

/-! ## Strings -/

/-- A control character is written as a unit whose first two digits are zero. -/
theorem spellsText_control {n : Nat} (hlt : n < 32) {pieces : List Piece} {cs : List Char}
    (hrest : SpellsText pieces cs) :
    SpellsText (.char (Char.ofNat n) :: pieces)
      ('\\' :: 'u' :: '0' :: '0' :: hexDigit (n / 16) :: hexDigit (n % 16) :: cs) := by
  have hnumber : ∀ n < 32,
      hexNumber? [some '0', some '0', some (hexDigit (n / 16)), some (hexDigit (n % 16))] =
        some n := by
    decide
  have hpiece : pieceOfUnit n = .char (Char.ofNat n) := by
    rw [pieceOfUnit, if_neg (by omega), if_neg (by omega)]
  rw [← hpiece]
  exact .unit (hnumber n hlt) hrest

/-- The escape of a character spells it. -/
theorem spellsText_escapeChar (c : Char) {pieces : List Piece} {cs : List Char}
    (hrest : SpellsText pieces cs) : SpellsText (.char c :: pieces) (escapeChar c ++ cs) := by
  have hcode {n : Nat} (hn : c.toNat = n) : Char.ofNat n = c := by
    rw [← hn, Char.ofNat_toNat]
  rw [escapeChar]
  split
  · next hc =>
    subst hc
    exact .escape rfl hrest
  split
  · next hc =>
    subst hc
    exact .escape rfl hrest
  split
  · next hc =>
    rw [← hcode hc]
    exact .escape rfl hrest
  split
  · next hc =>
    rw [← hcode hc]
    exact .escape rfl hrest
  split
  · next hc =>
    rw [← hcode hc]
    exact .escape rfl hrest
  split
  · next hc =>
    rw [← hcode hc]
    exact .escape rfl hrest
  split
  · next hc =>
    rw [← hcode hc]
    exact .escape rfl hrest
  split
  · next hlt =>
    have hcontrol := spellsText_control hlt hrest
    rw [hcode rfl] at hcontrol
    exact hcontrol
  · next hquote hslash _ _ _ _ _ hhigh => exact .char hquote hslash hhigh hrest

theorem spellsText_ofChars (cs : List Char) :
    SpellsText (Piece.ofChars cs) (cs.flatMap escapeChar) := by
  induction cs with
  | nil => exact .nil
  | cons c cs ih => exact spellsText_escapeChar c ih

theorem spellsName_quote (name : String) :
    SpellsName (Piece.ofChars name.toList) (quote name.toList) :=
  .mk isBlank_nil isBlank_nil (spellsText_ofChars name.toList)

theorem read_ofChars (cs : List Char) :
    Piece.read (Piece.ofChars cs) = .ok (String.ofList cs) := by
  have hchars (cs : List Char) : Piece.chars? (Piece.ofChars cs) = some cs := by
    induction cs with
    | nil => rfl
    | cons c cs ih =>
        rw [Piece.ofChars] at ih ⊢
        rw [List.map_cons, Piece.chars?, ih]
        rfl
  rw [Piece.read, hchars]

theorem read_ofString (s : String) : Key.read (.ofString s) = .ok s := by
  rw [Key.ofString, Key.read, read_ofChars, String.ofList_toList]

/-! ## Numbers -/

theorem eq_zero_of_head?_digits {n : Nat} (hhead : (digits n).head? = some '0') : n = 0 := by
  induction n using Nat.strongRecOn with
  | ind n ih =>
      rw [digits, Nat.toDigits_eq_if (by decide)] at hhead
      split at hhead
      · next hlt =>
        have hdigit : ∀ n < 10, [n.digitChar].head? = some '0' → n = 0 := by decide
        exact hdigit n hlt hhead
      · next hge =>
        rw [List.head?_append, Option.or_of_isSome (by simp [Nat.toDigits_ne_nil])] at hhead
        have hzero := ih (n / 10) (by omega) hhead
        omega

theorem isDigits_digits (n : Nat) : IsDigits (digits n) := by
  refine ⟨Nat.toDigits_ne_nil, fun d hd => ?_⟩
  have hdigit := Nat.isDigit_of_mem_toDigits (by decide) (by decide) hd
  simpa [Char.isDigit, isDigit, Char.le_def] using hdigit

theorem spellsNumber_intDigits (n : Int) : SpellsNumber (.ofInt n) (intDigits n) := by
  have hzero : (digits n.natAbs).head? = some '0' → (digits n.natAbs).length = 1 := by
    intro hhead
    rw [eq_zero_of_head?_digits hhead]
    rfl
  have hspells := SpellsNumber.mk (decide (n < 0)) (isDigits_digits n.natAbs) hzero .absent .absent
  have hchars : signChars (decide (n < 0)) ++ (digits n.natAbs ++ ([] ++ [])) = intDigits n := by
    rw [intDigits, signChars]
    split <;> simp_all
  rw [hchars] at hspells
  exact hspells

theorem integer?_ofInt {n : Int} (hlow : -Nat.pow 2 63 ≤ n) (hhigh : n < UInt64.size) :
    (Numeral.ofInt n).integer? = some n := by
  have hvalue : natOfDigits (digits n.natAbs) = n.natAbs := Nat.ofDigitChars_ten_toDigits
  rw [Numeral.ofInt, Numeral.integer?]
  simp only [hvalue, decide_eq_true_eq]
  split
  · next hneg =>
    rw [if_pos (by omega)]
    congr 1
    omega
  · next hnonneg =>
    rw [if_pos (by omega)]
    congr 1
    omega

/-! ## Values -/

theorem printItems_eq (item : Json) (items : List Json) :
    item.print ++ printItems items = joined ((item :: items).map print) ++ [']'] := by
  induction items generalizing item with
  | nil => rfl
  | cons next items ih =>
      have hjoined : joined ((item :: next :: items).map print) =
          item.print ++ ',' :: joined ((next :: items).map print) := rfl
      rw [printItems, List.cons_append, ih, hjoined, List.append_assoc, List.cons_append]

/-- A member as it is printed. -/
def printedMember (member : String × Json) : SpelledMember where
  pieces := Piece.ofChars member.1.toList
  name := quote member.1.toList
  value := member.2.tree
  text := member.2.print

theorem printMembers_eq (member : String × Json) (members : List (String × Json)) :
    quote member.1.toList ++ ':' :: member.2.print ++ printMembers members =
      joined (((member :: members).map printedMember).map SpelledMember.chars) ++ ['}'] := by
  induction members generalizing member with
  | nil => rfl
  | cons next members ih =>
      have hjoined :
          joined (((member :: next :: members).map printedMember).map SpelledMember.chars) =
            (printedMember member).chars ++
              ',' :: joined (((next :: members).map printedMember).map SpelledMember.chars) :=
        rfl
      rw [printMembers, List.cons_append, List.cons_append, ih, hjoined,
        List.append_assoc (printedMember member).chars, List.cons_append]
      rfl

theorem treeItems_eq_map (items : List Json) : treeItems items = items.map tree := by
  induction items with
  | nil => rfl
  | cons item items ih => rw [treeItems, ih, List.map_cons]

theorem treeMembers_eq_map (members : List (String × Json)) :
    treeMembers members = members.map fun member => (.ofString member.1, member.2.tree) := by
  induction members with
  | nil => rfl
  | cons member members ih => rw [treeMembers, ih, List.map_cons]

theorem spells_arr {items : List Json} (hitems : ∀ item ∈ items, Spells item.tree item.print) :
    Spells (tree (.arr items)) (print (.arr items)) := by
  cases items with
  | nil => exact .noItems isBlank_nil
  | cons first items =>
      let printed := (first :: items).map fun item => (item.tree, item.print)
      have htrees : printed.map Prod.fst = treeItems (first :: items) := by
        rw [treeItems_eq_map, List.map_map]
        rfl
      have hprint : '[' :: (joined (printed.map Prod.snd) ++ [']']) =
          print (.arr (first :: items)) := by
        rw [print, List.cons_append, printItems_eq, List.map_map]
        rfl
      have hspells := @Spells.items printed (List.cons_ne_nil _ _) (List.forall_mem_map.mpr hitems)
      rw [htrees, hprint] at hspells
      exact hspells

theorem spells_obj {members : List (String × Json)}
    (hvalues : ∀ member ∈ members, Spells member.2.tree member.2.print) :
    Spells (tree (.obj members)) (print (.obj members)) := by
  cases members with
  | nil => exact .noMembers isBlank_nil
  | cons first members =>
      let printed := (first :: members).map printedMember
      have htrees : printed.map SpelledMember.entry = treeMembers (first :: members) := by
        rw [treeMembers_eq_map, List.map_map]
        rfl
      have hprint : '{' :: (joined (printed.map SpelledMember.chars) ++ ['}']) =
          print (.obj (first :: members)) := by
        rw [print, List.cons_append, List.cons_append, printMembers_eq]
      have hnames : ∀ member ∈ printed, SpellsName member.pieces member.name :=
        List.forall_mem_map.mpr fun member _ => spellsName_quote member.1
      have hspells := @Spells.members printed (List.cons_ne_nil _ _) hnames
        (List.forall_mem_map.mpr hvalues)
      rw [htrees, hprint] at hspells
      exact hspells

/-- The text of a value spells it. -/
theorem IsPlain.spells (hplain : value.IsPlain levels) : Spells value.tree value.print := by
  induction hplain with
  | null => exact .null
  | bool value =>
      cases value
      · exact .no
      · exact .yes
  | int low high => exact .number (spellsNumber_intDigits _)
  | str value => exact .text (spellsText_ofChars value.toList)
  | arr _ ih => exact spells_arr ih
  | obj _ _ ih => exact spells_obj ih

/-! ## Whole texts -/

namespace Codec

variable {A : Type}

theorem readText_text (codec : Codec A) (hplain : value.IsPlain levels) :
    codec.readText value.text = codec.decode depthLimit value.tree := by
  apply codec.readText_of_spells
  rw [Json.text, String.toList_ofList]
  exact hplain.spells

/-- Bytes that are a text in UTF-8 are read as that text. -/
theorem readBytes_text (codec : Codec A) (hplain : value.IsPlain levels) :
    codec.readBytes value.text.toByteArray = codec.decode depthLimit value.tree := by
  have hbytes : String.fromUTF8? value.text.toByteArray = some value.text := by
    rw [String.fromUTF8?, dif_pos value.text.isValidUTF8]
    rfl
  rw [readBytes, Source.ofBytes, hbytes]
  exact codec.readText_text hplain

end Codec

end Scorekeeper.Json
