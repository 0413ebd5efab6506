import Scorekeeper.CardError
import Scorekeeper.Digest.Sha256
import Scorekeeper.Text.Blank
import Scorekeeper.Text.Numeral

/-!
# Userspaces

A userspace is named by the first sixteen hexadecimal digits of the digest of a
passphrase.  The passphrase is trimmed first, so blanks around it do not open a
different space.  The name is a label and protects nothing.
-/

namespace Scorekeeper

open Text

structure UserspaceId where
  chars : List Char
  lowerHex : ∀ c ∈ chars, isLowerHex c = true
  length_eq : chars.length = 16
  deriving DecidableEq

namespace UserspaceId

def text (id : UserspaceId) : String :=
  String.ofList id.chars

def ofPassphrase (passphrase : String) : Except CardError UserspaceId :=
  let phrase := trim passphrase
  if phrase.isEmpty then .error .blankPassphrase
  else
    let digest := Digest.Sha256.digest phrase.toByteArray.data.toList
    .ok
      { chars := (hexOfBytes digest).take 16
        lowerHex := fun _ hc => isLowerHex_of_mem_hexOfBytes (List.mem_of_mem_take hc)
        length_eq := by
          simp [length_hexOfBytes, digest, Digest.Sha256.length_digest] }

end UserspaceId

end Scorekeeper
