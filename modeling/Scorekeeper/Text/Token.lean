import Scorekeeper.Text.Numeral

/-!
# Tokens

Names in media types and in headers are tokens, for which the case of a letter
does not count.
-/

namespace Scorekeeper.Text

/-- The characters that tokens are made of. -/
def isTokenChar (c : Char) : Bool :=
  isDigit c || ('a' ≤ c && c ≤ 'z') || ('A' ≤ c && c ≤ 'Z')
    || ['!', '#', '$', '&', '\x27', '*', '+', '-', '.', '^', '_', '\x60', '|', '~', '%'].contains c

def toLower (cs : List Char) : List Char :=
  cs.map Char.toLower

end Scorekeeper.Text
