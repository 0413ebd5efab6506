import Scorekeeper.Text.Numeral

/-!
# Numerals of the document format

A number in a document is kept as it was written: a sign, digits, perhaps a
fraction and an exponent.  It counts as an integer only if it is written as one
and fits a 64-bit word.  Any other numeral stands for a binary64 value, and is
refused when that value is out of range.
-/

namespace Scorekeeper.Json

open Text

/-- A number as written.  The digit lists are not empty, and `whole` has no leading zero. -/
structure Numeral where
  negative : Bool
  whole : List Char
  fraction : Option (List Char)
  /-- The digits of the exponent, after whether it is negative. -/
  exponent : Option (Bool × List Char)
  deriving DecidableEq, Repr

namespace Numeral

def ofInt (n : Int) : Numeral :=
  { negative := decide (n < 0), whole := digits n.natAbs, fraction := none, exponent := none }

/-- The numeral as text. -/
def chars (numeral : Numeral) : List Char :=
  (if numeral.negative then ['-'] else [])
    ++ numeral.whole
    ++ (match numeral.fraction with
        | some ds => '.' :: ds
        | none => [])
    ++ (match numeral.exponent with
        | some (negative, ds) => 'e' :: (if negative then '-' :: ds else ds)
        | none => [])

/-- The integer that the numeral writes.  A minus sign in front of zero makes it no integer. -/
def integer? (numeral : Numeral) : Option Int :=
  match numeral.fraction, numeral.exponent with
  | none, none =>
    let n := natOfDigits numeral.whole
    if numeral.negative then
      if 1 ≤ n ∧ n ≤ Nat.pow 2 63 then some (-(n : Int)) else none
    else if n < UInt64.size then some (n : Int) else none
  | _, _ => none

/-- Appends digits to `n` as long as the result fits a 64-bit word; also the number of digits
that were left over. -/
def accumulate : List Char → Nat → Nat × Nat
  | [], n => (n, 0)
  | d :: ds, n =>
    let next := 10 * n + natOfDigits [d]
    if next < UInt64.size then accumulate ds next else (n, ds.length + 1)

/-- `n` rounded to its `bits` leading binary digits, a half going to the even neighbour. -/
def roundToBits (bits n : Nat) : Nat :=
  let shift := n.log2 + 1 - bits
  let unit := Nat.pow 2 shift
  let quotient := n / unit
  let rest := 2 * (n % unit)
  if unit < rest ∨ (rest = unit ∧ quotient % 2 = 1) then (quotient + 1) * unit else quotient * unit

/-- Whether `significand · 10^exponent`, worked out in binary64, is finite.  The factors are
rounded to 53 bits before they are multiplied. -/
def isFinite (significand : Nat) (exponent : Int) : Bool :=
  if significand = 0 ∨ exponent < 0 then true
  else if 308 < exponent then false
  else
    decide (roundToBits 53 significand * roundToBits 53 (Nat.pow 10 exponent.toNat)
      < (Nat.pow 2 54 - 1) * Nat.pow 2 970)

/-- Whether the numeral is in range.  Only the leading digits that fit a 64-bit word count, and
an exponent beyond 31 bits is out of range unless it is negative or the number is zero. -/
def inRange (numeral : Numeral) : Bool :=
  numeral.integer?.isSome ||
    (let (head, dropped) := accumulate numeral.whole 0
     let (significand, scale) :=
      match numeral.fraction with
      | none => (head, (dropped : Int))
      | some ds =>
        let (significand, left) := accumulate ds head
        (significand, (dropped : Int) - (ds.length - left : Nat))
     match numeral.exponent with
     | none => isFinite significand scale
     | some (negative, ds) =>
      let e := natOfDigits ds
      if Nat.pow 2 31 ≤ e then negative || significand == 0
      else isFinite significand (if negative then scale - e else scale + e))

end Numeral

end Scorekeeper.Json
