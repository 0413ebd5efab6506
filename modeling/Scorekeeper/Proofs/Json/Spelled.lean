import Scorekeeper.Json.Codec

/-!
# Texts and what they spell

One value can be written in many ways: with white space between the tokens, with escapes in
its strings, with either exponent mark in its numbers.  The grammar here says which texts
spell a tree, without saying how they are read.  The reader is complete for it: it reads
every text as the tree that the text spells.  What follows a number decides where it ends,
so the induction is over texts that are followed by white space, a comma, a closing bracket
or nothing.
-/

namespace Scorekeeper.Json

open Text

/-! ## The grammar -/

/-- White space only. -/
def IsBlank (cs : List Char) : Prop :=
  ∀ c ∈ cs, Source.isSpace (some c) = true

/-- The text between the quotes of a string. -/
inductive SpellsText : List Piece → List Char → Prop where
  | nil : SpellsText [] []
  | char {c : Char} {pieces : List Piece} {cs : List Char} (hquote : c ≠ '"') (hslash : c ≠ '\\')
      (hcode : ¬c.toNat < 32) (hrest : SpellsText pieces cs) :
      SpellsText (.char c :: pieces) (c :: cs)
  | escape {e c : Char} {pieces : List Piece} {cs : List Char} (hescaped : escaped? e = some c)
      (hrest : SpellsText pieces cs) :
      SpellsText (.char c :: pieces) ('\\' :: e :: cs)
  | unit {d₁ d₂ d₃ d₄ : Char} {unit : Nat} {pieces : List Piece} {cs : List Char}
      (hunit : hexNumber? [some d₁, some d₂, some d₃, some d₄] = some unit)
      (hrest : SpellsText pieces cs) :
      SpellsText (pieceOfUnit unit :: pieces) ('\\' :: 'u' :: d₁ :: d₂ :: d₃ :: d₄ :: cs)

def IsDigits (ds : List Char) : Prop :=
  ds ≠ [] ∧ ∀ d ∈ ds, isDigit d = true

inductive SpellsFraction : Option (List Char) → List Char → Prop where
  | absent : SpellsFraction none []
  | present {ds : List Char} (hdigits : IsDigits ds) : SpellsFraction (some ds) ('.' :: ds)

inductive SpellsExponent : Option (Bool × List Char) → List Char → Prop where
  | absent : SpellsExponent none []
  | bare {mark : Char} {ds : List Char} (hmark : mark = 'e' ∨ mark = 'E')
      (hdigits : IsDigits ds) : SpellsExponent (some (false, ds)) (mark :: ds)
  | plus {mark : Char} {ds : List Char} (hmark : mark = 'e' ∨ mark = 'E')
      (hdigits : IsDigits ds) : SpellsExponent (some (false, ds)) (mark :: '+' :: ds)
  | minus {mark : Char} {ds : List Char} (hmark : mark = 'e' ∨ mark = 'E')
      (hdigits : IsDigits ds) : SpellsExponent (some (true, ds)) (mark :: '-' :: ds)

def signChars (negative : Bool) : List Char :=
  if negative then ['-'] else []

inductive SpellsNumber : Numeral → List Char → Prop where
  | mk (negative : Bool) {whole front back : List Char} {fraction : Option (List Char)}
      {exponent : Option (Bool × List Char)} (hwhole : IsDigits whole)
      (hzero : whole.head? = some '0' → whole.length = 1)
      (hfraction : SpellsFraction fraction front) (hexponent : SpellsExponent exponent back) :
      SpellsNumber { negative, whole, fraction, exponent }
        (signChars negative ++ (whole ++ (front ++ back)))

/-- The name of a member, with white space on both sides. -/
inductive SpellsName : List Piece → List Char → Prop where
  | mk {left cs right : List Char} {pieces : List Piece} (hleft : IsBlank left)
      (hright : IsBlank right) (htext : SpellsText pieces cs) :
      SpellsName pieces (left ++ '"' :: (cs ++ '"' :: right))

/-- Texts with commas between them. -/
def joined : List (List Char) → List Char
  | [] => []
  | [text] => text
  | text :: texts => text ++ ',' :: joined texts

/-- A member and the texts of its two parts. -/
structure SpelledMember where
  pieces : List Piece
  name : List Char
  value : Tree
  text : List Char

namespace SpelledMember

def chars (member : SpelledMember) : List Char :=
  member.name ++ ':' :: member.text

def entry (member : SpelledMember) : Key × Tree :=
  (.name member.pieces, member.value)

end SpelledMember

/-- The text of a value. -/
inductive Spells : Tree → List Char → Prop where
  | null : Spells .null ['n', 'u', 'l', 'l']
  | yes : Spells (.bool true) ['t', 'r', 'u', 'e']
  | no : Spells (.bool false) ['f', 'a', 'l', 's', 'e']
  | number {numeral : Numeral} {cs : List Char} (hnumber : SpellsNumber numeral cs) :
      Spells (.number numeral) cs
  | text {pieces : List Piece} {cs : List Char} (htext : SpellsText pieces cs) :
      Spells (.text pieces) ('"' :: (cs ++ ['"']))
  | noItems {blank : List Char} (hblank : IsBlank blank) :
      Spells (.array [] none) ('[' :: (blank ++ [']']))
  | items {items : List (Tree × List Char)} (hsome : items ≠ [])
      (hitems : ∀ item ∈ items, Spells item.1 item.2) :
      Spells (.array (items.map Prod.fst) none) ('[' :: (joined (items.map Prod.snd) ++ [']']))
  | noMembers {blank : List Char} (hblank : IsBlank blank) :
      Spells (.object [] none) ('{' :: (blank ++ ['}']))
  | members {members : List SpelledMember} (hsome : members ≠ [])
      (hnames : ∀ member ∈ members, SpellsName member.pieces member.name)
      (hvalues : ∀ member ∈ members, Spells member.value member.text) :
      Spells (.object (members.map SpelledMember.entry) none)
        ('{' :: (joined (members.map SpelledMember.chars) ++ ['}']))
  | padded {left cs right : List Char} {tree : Tree} (hleft : IsBlank left)
      (hright : IsBlank right) (hvalue : Spells tree cs) : Spells tree (left ++ (cs ++ right))

/-! ## White space -/

variable {rest : Source} {cs : List Char} {tree : Tree}

theorem isBlank_nil : IsBlank [] :=
  List.forall_mem_nil _

theorem skipSpace_append (hblank : IsBlank cs) (rest : Source) :
    Source.skipSpace (cs.map some ++ rest) = rest.skipSpace := by
  rw [Source.skipSpace, List.dropWhile_append_of_pos]
  · rfl
  · intro c hmem
    obtain ⟨char, hchar, rfl⟩ := List.mem_map.mp hmem
    exact hblank char hchar

theorem skipSpace_cons {c : Char} (hspace : Source.isSpace (some c) = false) (rest : Source) :
    Source.skipSpace (some c :: rest) = some c :: rest := by
  rw [Source.skipSpace, List.dropWhile_cons_of_neg]
  rw [hspace]
  decide

/-! ## Strings -/

theorem scanText_close (rest : Source) : scanText (some '"' :: rest) = .closed [] rest := by
  rw [scanText.eq_def]
  simp

theorem scanText_char {c : Char} (hquote : c ≠ '"') (hslash : c ≠ '\\')
    (hcode : ¬c.toNat < 32) (rest : Source) :
    scanText (some c :: rest) = (scanText rest).push (.char c) := by
  rw [scanText.eq_def]
  simp [hquote, hslash, hcode]

theorem scanText_escaped {e c : Char} (hescaped : escaped? e = some c) (rest : Source) :
    scanText (some '\\' :: some e :: rest) = (scanText rest).push (.char c) := by
  have hunit : e ≠ 'u' := by
    rintro rfl
    cases hescaped
  rw [scanText.eq_def]
  simp [hunit, hescaped]

theorem scanText_unit {d₁ d₂ d₃ d₄ : Char} {unit : Nat}
    (hunit : hexNumber? [some d₁, some d₂, some d₃, some d₄] = some unit) (rest : Source) :
    scanText (some '\\' :: some 'u' :: some d₁ :: some d₂ :: some d₃ :: some d₄ :: rest) =
      (scanText rest).push (pieceOfUnit unit) := by
  rw [scanText.eq_def]
  simp [hunit]

theorem SpellsText.scanText {pieces : List Piece} (hspells : SpellsText pieces cs)
    (rest : Source) :
    scanText (cs.map some ++ some '"' :: rest) = .closed pieces rest := by
  induction hspells with
  | nil => exact scanText_close rest
  | char hquote hslash hcode _ ih =>
      rw [List.map_cons, List.cons_append, scanText_char hquote hslash hcode, ih]
      rfl
  | escape hescaped _ ih =>
      rw [List.map_cons, List.map_cons, List.cons_append, List.cons_append,
        scanText_escaped hescaped, ih]
      rfl
  | unit hunit _ ih =>
      simp only [List.map_cons, List.cons_append]
      rw [scanText_unit hunit, ih]
      rfl

theorem SpellsName.scanKey {pieces : List Piece} {name : List Char}
    (hspells : SpellsName pieces name) (rest : Source) :
    scanKey (name.map some ++ some ':' :: rest) = (.name pieces, .ok rest) := by
  cases hspells with
  | @mk left cs right _ hleft hright htext =>
      have hscan := htext.scanText (right.map some ++ some ':' :: rest)
      have hafter : Source.skipSpace (right.map some ++ some ':' :: rest) = some ':' :: rest := by
        rw [skipSpace_append hright, skipSpace_cons (by decide)]
      simp only [List.map_append, List.map_cons, List.append_assoc, List.cons_append]
      rw [Json.scanKey, skipSpace_append hleft, skipSpace_cons (by decide)]
      simp only [if_true, hscan, hafter]

/-! ## Numbers -/

/-- Nothing in the source could continue a number. -/
def Closes (rest : Source) : Prop :=
  ∀ c, rest.head? = some c →
    c = some ',' ∨ c = some ']' ∨ c = some '}' ∨ Source.isSpace c = true

/-- No digit comes next. -/
def EndsDigits (rest : Source) : Prop :=
  ∀ c, rest.head? = some (some c) → isDigit c = false

theorem closes_nil : Closes [] :=
  nofun

theorem closes_cons {c : Char} (hc : c = ',' ∨ c = ']' ∨ c = '}') (rest : Source) :
    Closes (some c :: rest) := by
  rintro d hhead
  cases hhead
  obtain rfl | rfl | rfl := hc <;> simp

theorem Closes.append (hrest : Closes rest) (hblank : IsBlank cs) :
    Closes (cs.map some ++ rest) := by
  cases cs with
  | nil => exact hrest
  | cons c cs =>
      rintro d hhead
      cases hhead
      exact .inr (.inr (.inr (hblank c List.mem_cons_self)))

/-- The characters that may follow a number. -/
theorem Closes.cases {c : Option Char} (hrest : Closes (c :: rest)) :
    c = some ',' ∨ c = some ']' ∨ c = some '}' ∨ c = some ' ' ∨ c = some '\t' ∨ c = some '\n' ∨
      c = some '\r' := by
  have hc := hrest c rfl
  simpa only [Source.isSpace, Bool.or_eq_true, beq_iff_eq, or_assoc] using hc

theorem Closes.endsDigits (hrest : Closes rest) : EndsDigits rest := by
  intro c hhead
  cases rest with
  | nil => cases hhead
  | cons d rest =>
      cases hhead
      have hcases := hrest.cases
      simp only [Option.some.injEq] at hcases
      obtain rfl | rfl | rfl | rfl | rfl | rfl | rfl := hcases <;> rfl

theorem takeDigits_append {ds : List Char} (hdigits : ∀ d ∈ ds, isDigit d = true)
    (hrest : EndsDigits rest) : takeDigits (ds.map some ++ rest) = (ds, rest) := by
  induction ds with
  | nil =>
      cases rest with
      | nil => rfl
      | cons c rest =>
          cases c with
          | none => rfl
          | some c =>
              rw [List.map_nil, List.nil_append, takeDigits, hrest c rfl]
              rfl
  | cons d ds ih =>
      obtain ⟨hd, hds⟩ := List.forall_mem_cons.mp hdigits
      rw [List.map_cons, List.cons_append, takeDigits, if_pos hd, ih hds]

theorem IsDigits.someDigits {ds : List Char} (hdigits : IsDigits ds) (hrest : EndsDigits rest) :
    someDigits (ds.map some ++ rest) = .ok (ds, rest) := by
  rw [Json.someDigits, takeDigits_append hdigits.2 hrest]
  simp [hdigits.1]

theorem IsDigits.exists_cons {ds : List Char} (hdigits : IsDigits ds) :
    ∃ d more, ds = d :: more ∧ isDigit d = true := by
  obtain ⟨d, more, rfl⟩ := List.exists_cons_of_ne_nil hdigits.1
  exact ⟨d, more, rfl, hdigits.2 d List.mem_cons_self⟩

theorem SpellsExponent.endsDigits {exponent : Option (Bool × List Char)}
    (hspells : SpellsExponent exponent cs) (hrest : Closes rest) :
    EndsDigits (cs.map some ++ rest) := by
  cases hspells with
  | absent => exact hrest.endsDigits
  | bare hmark _ | plus hmark _ | minus hmark _ =>
      intro c hhead
      cases hhead
      obtain rfl | rfl := hmark <;> rfl

theorem SpellsFraction.endsDigits {fraction : Option (List Char)} {front : List Char}
    (hspells : SpellsFraction fraction front) (hrest : EndsDigits rest) :
    EndsDigits (front.map some ++ rest) := by
  cases hspells with
  | absent => exact hrest
  | present _ =>
      intro c hhead
      cases hhead
      rfl

theorem exponentSign_digits {ds : List Char} (hdigits : IsDigits ds) (rest : Source) :
    exponentSign (ds.map some ++ rest) = (false, ds.map some ++ rest) := by
  obtain ⟨d, more, rfl, hd⟩ := hdigits.exists_cons
  rw [List.map_cons, List.cons_append, exponentSign]
  · rintro _ hsign
    cases hsign
    cases hd
  · rintro _ hsign
    cases hsign
    cases hd

theorem SpellsExponent.exponentPart {exponent : Option (Bool × List Char)}
    (hspells : SpellsExponent exponent cs) (hrest : Closes rest) :
    exponentPart (cs.map some ++ rest) = .ok (exponent, rest) := by
  have hexponent {mark : Char} (hmark : mark = 'e' ∨ mark = 'E') {source after : Source}
      {negative : Bool} {ds : List Char} (hsign : exponentSign source = (negative, after))
      (hdigits : Json.someDigits after = .ok (ds, rest)) :
      Json.exponentPart (some mark :: source) = .ok (some (negative, ds), rest) := by
    have hsome : isExponentMark (some mark) = true := by
      obtain rfl | rfl := hmark <;> rfl
    rw [Json.exponentPart, if_pos hsome]
    simp only [hsign, hdigits, bind, Except.bind, pure, Except.pure]
  cases hspells with
  | absent =>
      cases rest with
      | nil => rfl
      | cons c rest =>
          obtain rfl | rfl | rfl | rfl | rfl | rfl | rfl := hrest.cases <;> rfl
  | bare hmark hdigits =>
      exact hexponent hmark (exponentSign_digits hdigits rest)
        (hdigits.someDigits hrest.endsDigits)
  | plus hmark hdigits =>
      exact hexponent hmark rfl (hdigits.someDigits hrest.endsDigits)
  | minus hmark hdigits =>
      exact hexponent hmark rfl (hdigits.someDigits hrest.endsDigits)

theorem SpellsFraction.fractionPart {fraction : Option (List Char)} {front : List Char}
    {exponent : Option (Bool × List Char)} (hspells : SpellsFraction fraction front)
    (hexponent : SpellsExponent exponent cs) (hrest : Closes rest) :
    fractionPart (front.map some ++ (cs.map some ++ rest)) =
      .ok (fraction, cs.map some ++ rest) := by
  have hends := hexponent.endsDigits hrest
  cases hspells with
  | absent =>
      cases hexponent with
      | absent =>
          cases rest with
          | nil => rfl
          | cons c rest =>
              obtain rfl | rfl | rfl | rfl | rfl | rfl | rfl := hrest.cases <;> rfl
      | bare hmark _ | plus hmark _ | minus hmark _ => obtain rfl | rfl := hmark <;> rfl
  | present hdigits =>
      rw [List.map_cons, List.cons_append, Json.fractionPart, hdigits.someDigits hends]
      rfl

theorem wholePart_digits {whole : List Char} (hwhole : IsDigits whole)
    (hzero : whole.head? = some '0' → whole.length = 1) (hrest : EndsDigits rest) :
    wholePart (whole.map some ++ rest) = .ok (whole, rest) := by
  have hgood : ¬(whole.head? = some '0' ∧ whole.length ≠ 1) := fun h => h.2 (hzero h.1)
  rw [wholePart, hwhole.someDigits hrest]
  exact if_neg hgood

theorem minusSign_digits {whole : List Char} (hwhole : IsDigits whole) (rest : Source) :
    minusSign (whole.map some ++ rest) = (false, whole.map some ++ rest) := by
  obtain ⟨d, more, rfl, hd⟩ := hwhole.exists_cons
  rw [List.map_cons, List.cons_append, minusSign]
  rintro _ hminus
  cases hminus
  cases hd

theorem SpellsNumber.scanNumber {numeral : Numeral} (hspells : SpellsNumber numeral cs)
    (hrest : Closes rest) : scanNumber (cs.map some ++ rest) = .ok (numeral, rest) := by
  cases hspells with
  | mk negative hwhole hzero hfraction hexponent =>
      have hends := hfraction.endsDigits (hexponent.endsDigits hrest)
      have hsign := minusSign_digits hwhole
      have hfront := wholePart_digits hwhole hzero hends
      have hmiddle := hfraction.fractionPart hexponent hrest
      have hback := hexponent.exponentPart hrest
      cases negative with
      | false =>
          simp only [signChars, Bool.false_eq_true, if_false, List.nil_append, List.map_append,
            List.append_assoc]
          simp only [Json.scanNumber, hsign, hfront, hmiddle, hback, bind, Except.bind, pure,
            Except.pure]
      | true =>
          simp only [signChars, if_true, List.map_append, List.map_cons, List.append_assoc,
            List.cons_append, List.nil_append]
          simp only [Json.scanNumber, minusSign, hfront, hmiddle, hback, bind, Except.bind, pure,
            Except.pure]

theorem SpellsNumber.exists_cons {numeral : Numeral} (hspells : SpellsNumber numeral cs) :
    ∃ c more, cs = c :: more ∧ beginsNumber c = true := by
  cases hspells with
  | mk negative hwhole _ _ _ =>
      obtain ⟨d, more, rfl, hd⟩ := hwhole.exists_cons
      cases negative with
      | false => exact ⟨d, _, rfl, by simp [beginsNumber, hd]⟩
      | true => exact ⟨'-', _, rfl, rfl⟩

/-- What begins a number begins nothing else. -/
theorem ne_of_beginsNumber {c : Char} (hc : beginsNumber c = true) {d : Char}
    (hd : beginsNumber d = false) : c ≠ d := by
  rintro rfl
  rw [hc] at hd
  cases hd

theorem isSpace_of_beginsNumber {c : Char} (hc : beginsNumber c = true) :
    Source.isSpace (some c) = false := by
  simp [Source.isSpace, ne_of_beginsNumber hc (d := ' ') rfl,
    ne_of_beginsNumber hc (d := '\t') rfl, ne_of_beginsNumber hc (d := '\n') rfl,
    ne_of_beginsNumber hc (d := '\r') rfl]

theorem readValue_of_beginsNumber {c : Char} (hc : beginsNumber c = true) (fuel : Nat)
    (rest : Source) :
    readValue (fuel + 1) (some c :: rest) = numberTree (some c :: rest) := by
  have hne {d : Char} (hd : beginsNumber d = false) : c ≠ d := ne_of_beginsNumber hc hd
  rw [readValue, skipSpace_cons (isSpace_of_beginsNumber hc)]
  simp [hc, hne (d := 'n') rfl, hne (d := 't') rfl, hne (d := 'f') rfl, hne (d := '"') rfl]

/-! ## Values -/

/-- The text is read as the tree, with enough fuel and whatever follows, up to white space. -/
def IsRead (tree : Tree) (cs : List Char) : Prop :=
  ∀ (fuel : Nat) (rest : Source), 2 * cs.length ≤ fuel → Closes rest →
    ∃ after, readValue fuel (cs.map some ++ rest) = (tree, some after) ∧
      Source.skipSpace after = Source.skipSpace rest

/-- White space in front of a value makes no difference. -/
theorem readValue_congr {source other : Source}
    (hsame : Source.skipSpace source = Source.skipSpace other) (fuel : Nat) :
    readValue fuel source = readValue fuel other := by
  cases fuel with
  | zero => rfl
  | succ fuel => rw [readValue, readValue, hsame]

theorem isRead_of_succ (hsome : cs ≠ [])
    (hread : ∀ fuel rest, 2 * cs.length ≤ fuel + 1 → Closes rest →
      readValue (fuel + 1) (cs.map some ++ rest) = (tree, some rest)) :
    IsRead tree cs := by
  intro fuel rest hfuel hrest
  have hpositive := List.length_pos_iff.mpr hsome
  obtain ⟨fuel, rfl⟩ : ∃ less, fuel = less + 1 := ⟨fuel - 1, by omega⟩
  exact ⟨rest, hread fuel rest hfuel hrest, rfl⟩

/-- A value begins with something that closes no list. -/
theorem Spells.exists_skipSpace_eq_cons (hspells : Spells tree cs) (rest : Source) :
    ∃ c more, Source.skipSpace (cs.map some ++ rest) = some c :: more ∧ c ≠ ']' := by
  induction hspells generalizing rest with
  | number hnumber =>
      obtain ⟨c, more, rfl, hc⟩ := hnumber.exists_cons
      exact ⟨c, _, skipSpace_cons (isSpace_of_beginsNumber hc) _,
        ne_of_beginsNumber hc rfl⟩
  | padded hleft hright hvalue ih =>
      rw [List.map_append, List.append_assoc, skipSpace_append hleft, List.map_append,
        List.append_assoc]
      exact ih _
  | _ => exact ⟨_, _, skipSpace_cons (by decide) _, by decide⟩

theorem Spells.ne_nil (hspells : Spells tree cs) : cs ≠ [] := by
  rintro rfl
  obtain ⟨c, more, hcons, -⟩ := hspells.exists_skipSpace_eq_cons []
  cases hcons

theorem joined_cons {text : List Char} {texts : List (List Char)} (hsome : texts ≠ []) :
    joined (text :: texts) = text ++ ',' :: joined texts := by
  obtain ⟨next, more, rfl⟩ := List.exists_cons_of_ne_nil hsome
  rfl

theorem exists_joined_eq_append (text : List Char) (texts : List (List Char)) :
    ∃ more, joined (text :: texts) = text ++ more := by
  cases texts with
  | nil => exact ⟨[], (List.append_nil _).symm⟩
  | cons next texts => exact ⟨_, rfl⟩

/-- The items of a list are read one after the other up to the closing bracket. -/
theorem readItems_joined {items : List (Tree × List Char)} (hsome : items ≠ [])
    (hitems : ∀ item ∈ items, IsRead item.1 item.2) {fuel : Nat}
    (hfuel : 2 * (joined (items.map Prod.snd)).length + 2 ≤ fuel) (rest : Source) :
    readItems fuel ((joined (items.map Prod.snd)).map some ++ some ']' :: rest) =
      (items.map Prod.fst, none, some rest) := by
  induction items generalizing fuel with
  | nil => exact absurd rfl hsome
  | cons item items ih =>
      obtain ⟨hitem, hitems⟩ := List.forall_mem_cons.mp hitems
      obtain ⟨fuel, rfl⟩ : ∃ less, fuel = less + 1 := ⟨fuel - 1, by omega⟩
      by_cases hlast : items = []
      · subst hlast
        obtain ⟨after, hread, hafter⟩ := hitem fuel (some ']' :: rest)
          (by rw [List.map_cons, List.map_nil, joined] at hfuel; omega)
          (closes_cons (by decide) rest)
        rw [skipSpace_cons (by decide)] at hafter
        rw [List.map_cons, List.map_nil, joined, readItems, hread]
        simp only [hafter]
        rfl
      · have hjoined : joined (item.2 :: items.map Prod.snd) =
            item.2 ++ ',' :: joined (items.map Prod.snd) :=
          joined_cons (mt List.map_eq_nil_iff.mp hlast)
        rw [List.map_cons, hjoined, List.length_append, List.length_cons] at hfuel
        obtain ⟨after, hread, hafter⟩ := hitem fuel
          (some ',' :: ((joined (items.map Prod.snd)).map some ++ some ']' :: rest))
          (by omega) (closes_cons (by decide) _)
        rw [skipSpace_cons (by decide)] at hafter
        rw [List.map_cons, hjoined, List.map_append, List.map_cons, List.append_assoc,
          List.cons_append, readItems, hread]
        simp only [hafter, if_true, ih hlast hitems (by omega : _ + 2 ≤ fuel)]
        rfl

/-- The members of an object, likewise. -/
theorem readMembers_joined {members : List SpelledMember} (hsome : members ≠ [])
    (hnames : ∀ member ∈ members, SpellsName member.pieces member.name)
    (hvalues : ∀ member ∈ members, IsRead member.value member.text) {fuel : Nat}
    (hfuel : 2 * (joined (members.map SpelledMember.chars)).length + 2 ≤ fuel)
    (rest : Source) :
    readMembers fuel
        ((joined (members.map SpelledMember.chars)).map some ++ some '}' :: rest) =
      (members.map SpelledMember.entry, none, some rest) := by
  induction members generalizing fuel with
  | nil => exact absurd rfl hsome
  | cons member members ih =>
      obtain ⟨hname, hnames⟩ := List.forall_mem_cons.mp hnames
      obtain ⟨hvalue, hvalues⟩ := List.forall_mem_cons.mp hvalues
      obtain ⟨fuel, rfl⟩ : ∃ less, fuel = less + 1 := ⟨fuel - 1, by omega⟩
      have hlength : member.chars.length = member.name.length + member.text.length + 1 := by
        rw [SpelledMember.chars, List.length_append, List.length_cons]
        omega
      by_cases hlast : members = []
      · subst hlast
        rw [List.map_cons, List.map_nil, joined] at hfuel
        obtain ⟨after, hread, hafter⟩ := hvalue fuel (some '}' :: rest) (by omega)
          (closes_cons (by decide) rest)
        rw [skipSpace_cons (by decide)] at hafter
        rw [List.map_cons, List.map_nil, joined, SpelledMember.chars, List.map_append,
          List.map_cons, List.append_assoc, List.cons_append, readMembers, hname.scanKey]
        simp only [hread, hafter]
        rfl
      · have hjoined : joined (member.chars :: members.map SpelledMember.chars) =
            member.chars ++ ',' :: joined (members.map SpelledMember.chars) :=
          joined_cons (mt List.map_eq_nil_iff.mp hlast)
        rw [List.map_cons, hjoined, List.length_append, List.length_cons] at hfuel
        obtain ⟨after, hread, hafter⟩ := hvalue fuel
          (some ',' :: ((joined (members.map SpelledMember.chars)).map some ++
            some '}' :: rest))
          (by omega) (closes_cons (by decide) _)
        rw [skipSpace_cons (by decide)] at hafter
        rw [List.map_cons, hjoined, SpelledMember.chars, List.append_assoc, List.cons_append,
          List.map_append, List.map_cons, List.map_append, List.map_cons, List.append_assoc,
          List.cons_append, List.append_assoc, List.cons_append, readMembers, hname.scanKey]
        simp only [hread, hafter, if_true, ih hlast hnames hvalues (by omega : _ + 2 ≤ fuel)]
        rfl

theorem exists_joined_eq_cons {items : List (Tree × List Char)} (hsome : items ≠ [])
    (hitems : ∀ item ∈ items, Spells item.1 item.2) (rest : Source) :
    ∃ c more, Source.skipSpace ((joined (items.map Prod.snd)).map some ++ rest) = some c :: more ∧
      c ≠ ']' := by
  obtain ⟨item, items, rfl⟩ := List.exists_cons_of_ne_nil hsome
  obtain ⟨more, hmore⟩ := exists_joined_eq_append item.2 (items.map Prod.snd)
  rw [List.map_cons, hmore, List.map_append, List.append_assoc]
  exact (hitems item List.mem_cons_self).exists_skipSpace_eq_cons _

theorem exists_joined_eq_quote {members : List SpelledMember} (hsome : members ≠ [])
    (hnames : ∀ member ∈ members, SpellsName member.pieces member.name) (rest : Source) :
    ∃ more, Source.skipSpace ((joined (members.map SpelledMember.chars)).map some ++ rest) =
      some '"' :: more := by
  obtain ⟨member, members, rfl⟩ := List.exists_cons_of_ne_nil hsome
  obtain ⟨more, hmore⟩ := exists_joined_eq_append member.chars
    (members.map SpelledMember.chars)
  have hname := hnames member List.mem_cons_self
  rw [List.map_cons, hmore, SpelledMember.chars]
  generalize member.name = name at hname
  cases hname with
  | mk hleft hright htext =>
      simp only [List.map_append, List.map_cons, List.append_assoc, List.cons_append]
      rw [skipSpace_append hleft, skipSpace_cons (by decide)]
      exact ⟨_, rfl⟩

/-- A text between an opening and a closing mark. -/
theorem map_some_close (mark close : Char) (cs : List Char) (rest : Source) :
    (mark :: (cs ++ [close])).map some ++ rest =
      some mark :: (cs.map some ++ some close :: rest) := by
  simp

theorem readValue_noItems {source : Source} (hclose : source.skipSpace = some ']' :: rest)
    (fuel : Nat) : readValue (fuel + 1) (some '[' :: source) = (.array [] none, some rest) := by
  rw [readValue, skipSpace_cons (by decide)]
  simp [hclose, beginsNumber, isDigit]

theorem readValue_noMembers {source : Source} (hclose : source.skipSpace = some '}' :: rest)
    (fuel : Nat) : readValue (fuel + 1) (some '{' :: source) = (.object [] none, some rest) := by
  rw [readValue, skipSpace_cons (by decide)]
  simp [hclose, beginsNumber, isDigit]

theorem readValue_items {source : Source} {items : List Tree} {after : Option Source}
    {c : Char} {more : Source} {fuel : Nat}
    (hstart : Source.skipSpace source = some c :: more) (hopen : c ≠ ']')
    (hread : readItems fuel source = (items, none, after)) :
    readValue (fuel + 1) (some '[' :: source) = (.array items none, after) := by
  rw [readValue, skipSpace_cons (by decide)]
  simp [hstart, hopen, hread, beginsNumber, isDigit]

theorem readValue_members {source : Source} {members : List (Key × Tree)}
    {after : Option Source} {more : Source} {fuel : Nat}
    (hstart : Source.skipSpace source = some '"' :: more)
    (hread : readMembers fuel source = (members, none, after)) :
    readValue (fuel + 1) (some '{' :: source) = (.object members none, after) := by
  rw [readValue, skipSpace_cons (by decide)]
  simp [hstart, hread, beginsNumber, isDigit]

/-- Every text is read as the tree that it spells. -/
theorem Spells.isRead (hspells : Spells tree cs) : IsRead tree cs := by
  induction hspells with
  | null => exact isRead_of_succ (by decide) fun _ _ _ _ => rfl
  | yes => exact isRead_of_succ (by decide) fun _ _ _ _ => rfl
  | no => exact isRead_of_succ (by decide) fun _ _ _ _ => rfl
  | number hnumber =>
      apply isRead_of_succ (Spells.number hnumber).ne_nil
      intro fuel rest _ hrest
      have hscan := hnumber.scanNumber hrest
      obtain ⟨c, more, rfl, hc⟩ := hnumber.exists_cons
      rw [List.map_cons, List.cons_append] at hscan ⊢
      rw [readValue_of_beginsNumber hc, numberTree, hscan]
  | @text pieces cs htext =>
      apply isRead_of_succ (List.cons_ne_nil _ _)
      intro fuel rest _ _
      have hscan : textTree (cs.map some ++ some '"' :: rest) = (.text pieces, some rest) := by
        rw [textTree, htext.scanText rest]
      rw [map_some_close, readValue, skipSpace_cons (by decide)]
      exact hscan
  | @noItems blank hblank =>
      apply isRead_of_succ (List.cons_ne_nil _ _)
      intro fuel rest _ _
      rw [map_some_close]
      apply readValue_noItems
      rw [skipSpace_append hblank, skipSpace_cons (by decide)]
  | @items items hsome hitems ih =>
      apply isRead_of_succ (List.cons_ne_nil _ _)
      intro fuel rest hfuel _
      rw [List.length_cons, List.length_append, List.length_singleton] at hfuel
      have hread := readItems_joined hsome ih (by omega : _ + 2 ≤ fuel) rest
      obtain ⟨c, more, hstart, hopen⟩ := exists_joined_eq_cons hsome hitems (some ']' :: rest)
      rw [map_some_close]
      exact readValue_items hstart hopen hread
  | @noMembers blank hblank =>
      apply isRead_of_succ (List.cons_ne_nil _ _)
      intro fuel rest _ _
      rw [map_some_close]
      apply readValue_noMembers
      rw [skipSpace_append hblank, skipSpace_cons (by decide)]
  | @members members hsome hnames hvalues ih =>
      apply isRead_of_succ (List.cons_ne_nil _ _)
      intro fuel rest hfuel _
      rw [List.length_cons, List.length_append, List.length_singleton] at hfuel
      have hread := readMembers_joined hsome hnames ih (by omega : _ + 2 ≤ fuel) rest
      obtain ⟨more, hstart⟩ := exists_joined_eq_quote hsome hnames (some '}' :: rest)
      rw [map_some_close]
      exact readValue_members hstart hread
  | @padded left cs right tree hleft hright hvalue ih =>
      intro fuel rest hfuel hrest
      rw [List.length_append, List.length_append] at hfuel
      obtain ⟨after, hread, hafter⟩ := ih fuel (right.map some ++ rest) (by omega)
        (hrest.append hright)
      have hsame : Source.skipSpace ((left ++ (cs ++ right)).map some ++ rest) =
          Source.skipSpace (cs.map some ++ (right.map some ++ rest)) := by
        rw [List.map_append, List.append_assoc, skipSpace_append hleft, List.map_append,
          List.append_assoc]
      rw [skipSpace_append hright] at hafter
      exact ⟨after, (readValue_congr hsame fuel).trans hread, hafter⟩

theorem skipItems_eq_none {items : List Tree} (hitems : ∀ item ∈ items, item.skip = none) :
    Tree.skipItems items = none := by
  induction items with
  | nil => rfl
  | cons item items ih =>
      obtain ⟨hitem, hitems⟩ := List.forall_mem_cons.mp hitems
      rw [Tree.skipItems, hitem, ih hitems]
      rfl

theorem skipMembers_eq_none {members : List SpelledMember}
    (hvalues : ∀ member ∈ members, member.value.skip = none) :
    Tree.skipMembers (members.map SpelledMember.entry) = none := by
  induction members with
  | nil => rfl
  | cons member members ih =>
      obtain ⟨hvalue, hvalues⟩ := List.forall_mem_cons.mp hvalues
      rw [List.map_cons, SpelledMember.entry, Tree.skipMembers, hvalue, ih hvalues]
      rfl

/-- What a text spells is passed over without a problem. -/
theorem Spells.skip_eq_none (hspells : Spells tree cs) : tree.skip = none := by
  induction hspells with
  | null | yes | no | number _ | text _ => rfl
  | noItems _ | noMembers _ => rfl
  | items hsome hitems ih =>
      have hall := skipItems_eq_none (List.forall_mem_map.mpr ih)
      rw [Tree.skip, hall]
      rfl
  | members hsome hnames hvalues ih =>
      rw [Tree.skip, skipMembers_eq_none ih]
      rfl
  | padded _ _ _ ih => exact ih

/-! ## Whole texts -/

namespace Codec

variable {A : Type}

/-- A text is decoded as the tree that it spells. -/
theorem readSource_of_spells (codec : Codec A) (hspells : Spells tree cs) :
    codec.readSource (cs.map some) = codec.decode depthLimit tree := by
  obtain ⟨after, hread, hafter⟩ :=
    hspells.isRead (2 * (cs.map some).length + 2) [] (by simp) closes_nil
  have hempty : Source.skipSpace after = [] := hafter
  rw [List.append_nil] at hread
  rw [readSource, readFirst, hread]
  simp only [hempty]
  cases codec.decode depthLimit tree <;> rfl

theorem readText_of_spells (codec : Codec A) {text : String} (hspells : Spells tree text.toList) :
    codec.readText text = codec.decode depthLimit tree :=
  codec.readSource_of_spells hspells

end Codec

end Scorekeeper.Json
