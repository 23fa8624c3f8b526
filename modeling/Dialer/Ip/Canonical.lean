import Dialer.Ip
import Dialer.Text.Digits

/-!
# The canonical text of an address

Octets are written in decimal, groups in lower-case hexadecimal without leading
zeros. Of the runs of two or more zero groups the longest is left out, the first of
several equally long ones. An address whose first groups are five zeros and `ffff`
keeps its last two groups as octets.
-/

namespace Dialer.Ip

/-- Where the longest run of zero groups begins, and its length; the first of
several. `here` is the position of the list's head. -/
def longestZeros (here : Nat) : List UInt16 → Nat × Nat
  | [] => (0, 0)
  | g :: rest =>
    let run := ((g :: rest).takeWhile (· == 0)).length
    let later := longestZeros (here + 1) rest
    if run ≥ later.2 ∧ run > 0 then (here, run) else later

/-- Octets between points. -/
def dottedText (octets : List Nat) : String :=
  ".".intercalate (octets.map Nat.repr)

/-- Groups between colons. -/
def colonText (groups : List UInt16) : String :=
  ":".intercalate (groups.map fun g => String.ofList (Nat.toDigits 16 g.toNat))

/-- The canonical text. -/
def canonical : Ip → String
  | .v4 octets => dottedText (octets.toList.map UInt8.toNat)
  | .v6 groups =>
    match groups.toList with
    | [0, 0, 0, 0, 0, 0xffff, x, y] =>
      "::ffff:" ++ dottedText [x.toNat / 256, x.toNat % 256, y.toNat / 256, y.toNat % 256]
    | groups =>
      let (start, run) := longestZeros 0 groups
      if run > 1 then
        colonText (groups.take start) ++ "::" ++ colonText (groups.drop (start + run))
      else
        colonText groups

end Dialer.Ip
