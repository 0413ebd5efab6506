/-!
# Decimal and hexadecimal numerals

Numbers in ids, paths, settings and documents are written in plain decimal
digits.  `readUnsigned` is the reader used where a person types a number: one
leading plus sign and leading zeros are allowed, and a value above the bound is
refused rather than wrapped.
-/

namespace Scorekeeper.Text

def isDigit (c : Char) : Bool :=
  '0' ≤ c && c ≤ '9'

/-- A digit of a lower-case hexadecimal numeral. -/
def isLowerHex (c : Char) : Bool :=
  isDigit c || ('a' ≤ c && c ≤ 'f')

def digits (n : Nat) : List Char :=
  Nat.toDigits 10 n

/-- The number written by `cs`, which should be digits. -/
def natOfDigits (cs : List Char) : Nat :=
  Nat.ofDigitChars 10 cs 0

/-- A sign is written only in front of a negative number. -/
def intDigits (n : Int) : List Char :=
  if n < 0 then '-' :: digits n.natAbs else digits n.natAbs

def dropPlus : List Char → List Char
  | '+' :: rest => rest
  | cs => cs

/-- Reads an unsigned number of at most `bound`. -/
def readUnsigned (bound : Nat) (cs : List Char) : Option Nat :=
  let ds := dropPlus cs
  if ds ≠ [] ∧ ds.all isDigit = true ∧ natOfDigits ds ≤ bound then some (natOfDigits ds) else none

/-- The lower-case hexadecimal digit of `n`, which should be below 16. -/
def hexDigit (n : Nat) : Char :=
  if n < 10 then Char.ofNat (48 + n) else Char.ofNat (87 + n)

/-- The value of a hexadecimal digit in either case. -/
def hexValue? (c : Char) : Option Nat :=
  if isDigit c then some (c.toNat - 48)
  else if 'a' ≤ c && c ≤ 'f' then some (c.toNat - 87)
  else if 'A' ≤ c && c ≤ 'F' then some (c.toNat - 55)
  else none

/-- Two hexadecimal digits for each byte, most significant first. -/
def hexOfBytes (bytes : List UInt8) : List Char :=
  bytes.flatMap fun b => [hexDigit (b.toNat / 16), hexDigit (b.toNat % 16)]

theorem digits_injective {left right : Nat} (heq : digits left = digits right) :
    left = right := by
  calc
    left = Nat.ofDigitChars 10 (digits left) 0 := Nat.ofDigitChars_ten_toDigits.symm
    _ = Nat.ofDigitChars 10 (digits right) 0 := by rw [heq]
    _ = right := Nat.ofDigitChars_ten_toDigits

theorem isLowerHex_hexDigit {n : Nat} (h : n < 16) : isLowerHex (hexDigit n) = true := by
  have hall : ∀ m, m < 16 → isLowerHex (hexDigit m) = true := by decide
  exact hall n h

theorem isLowerHex_of_mem_hexOfBytes {bytes : List UInt8} {c : Char}
    (h : c ∈ hexOfBytes bytes) : isLowerHex c = true := by
  simp only [hexOfBytes, List.mem_flatMap, List.mem_cons, List.not_mem_nil, or_false] at h
  obtain ⟨b, -, rfl | rfl⟩ := h
  · have := b.toNat_lt
    exact isLowerHex_hexDigit (by omega)
  · exact isLowerHex_hexDigit (Nat.mod_lt _ (by decide))

theorem length_hexOfBytes (bytes : List UInt8) : (hexOfBytes bytes).length = 2 * bytes.length := by
  induction bytes with
  | nil => rfl
  | cons b bytes ih =>
    simp only [hexOfBytes, List.flatMap_cons, List.length_append, List.length_cons,
      List.length_nil] at ih ⊢
    omega

end Scorekeeper.Text
