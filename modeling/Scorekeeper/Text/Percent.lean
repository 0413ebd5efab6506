import Scorekeeper.Text.Numeral

/-!
# Percent signs

In addresses a percent sign and two hexadecimal digits stand for a byte.
-/

namespace Scorekeeper.Text

def bytesOfChar (c : Char) : List UInt8 :=
  (String.singleton c).toByteArray.data.toList

/-- The bytes that a text stands for.  A percent sign without two digits after it stands for
itself. -/
def percentDecode : List Char → List UInt8
  | '%' :: a :: b :: rest =>
    match hexValue? a, hexValue? b with
    | some high, some low => UInt8.ofNat (16 * high + low) :: percentDecode rest
    | _, _ => 37 :: percentDecode (a :: b :: rest)
  | c :: rest => bytesOfChar c ++ percentDecode rest
  | [] => []

/-- The text that a text stands for, if its bytes are the bytes of one. -/
def percentText? (cs : List Char) : Option String :=
  String.fromUTF8? ⟨(percentDecode cs).toArray⟩

end Scorekeeper.Text
