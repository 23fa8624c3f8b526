import Dialer.Ip
import Dialer.Text.Digits

/-!
# Reading internet addresses

* Four octets: decimal numbers up to 255 between points, without leading zeros.
* Eight groups: up to four hexadecimal digits between colons. The last two groups
  may be written as four octets, and one run of zero groups may be left out, which
  leaves two colons in its place.

A reader takes a text to what it read and the rest of the text, or to nothing;
`Ip.read?` asks for the whole text. A socket address is an address with a port: a
decimal number below `2 ^ 16`, with any number of leading zeros. An address of eight
groups then stands in brackets and may carry a numeric scope.
-/

namespace Dialer.Ip

open Dialer.Text

/-- Reads one character. -/
def readChar (c : Char) : List Char → Option (List Char)
  | [] => none
  | x :: rest => if x = c then some rest else none

/-- Reads a decimal octet. -/
def readOctet (s : List Char) : Option (Nat × List Char) :=
  let (digits, rest) := spanDigits 10 s
  let value := ofDigits 10 digits
  if digits.isEmpty ∨ digits.length > 3 ∨ value > 255 then none
  else if digits.head? = some '0' ∧ digits.length > 1 then none
  else some (value, rest)

/-- Reads a hexadecimal group. -/
def readGroup (s : List Char) : Option (Nat × List Char) :=
  let (digits, rest) := spanDigits 16 s
  if digits.isEmpty ∨ digits.length > 4 then none
  else some (ofDigits 16 digits, rest)

/-- Reads four octets. -/
def readOctets (s : List Char) : Option (List Nat × List Char) := do
  let (a, s) ← readOctet s
  let s ← readChar '.' s
  let (b, s) ← readOctet s
  let s ← readChar '.' s
  let (c, s) ← readOctet s
  let s ← readChar '.' s
  let (d, s) ← readOctet s
  return ([a, b, c, d], s)

/-- The two groups that four octets stand for. -/
def groupsOfOctets (octets : List Nat) : List Nat :=
  [octets.getD 0 0 * 256 + octets.getD 1 0, octets.getD 2 0 * 256 + octets.getD 3 0]

/-- What is read at the front of a text by `readGroups`. -/
structure Groups where
  groups : List Nat
  /-- Were the last two groups written as octets? -/
  dotted : Bool
  rest : List Char

/-- Reads up to `room` groups, all but the first after a colon, and stops before the
first that is not there. Four octets may close the sequence if there is room for two
groups. -/
def readGroups (first : Bool) : Nat → List Char → Groups
  | 0, s => ⟨[], false, s⟩
  | room + 1, s =>
    let item : Option (List Char) := if first then some s else readChar ':' s
    match item with
    | none => ⟨[], false, s⟩
    | some body =>
      match (if room > 0 then readOctets body else none) with
      | some (octets, rest) => ⟨groupsOfOctets octets, true, rest⟩
      | none =>
        match readGroup body with
        | none => ⟨[], false, s⟩
        | some (g, rest) =>
          let more := readGroups false room rest
          ⟨g :: more.groups, more.dotted, more.rest⟩

/-- Reads eight groups, or fewer with one run of zeros left out. -/
def readV6 (s : List Char) : Option (Ip × List Char) := do
  let head := readGroups true 8 s
  if head.groups.length = 8 then
    return (ofGroups head.groups, head.rest)
  else if head.dotted then
    none
  else
    let rest ← readChar ':' head.rest
    let rest ← readChar ':' rest
    let tail := readGroups true (7 - head.groups.length) rest
    let zeros := List.replicate (8 - head.groups.length - tail.groups.length) 0
    return (ofGroups (head.groups ++ zeros ++ tail.groups), tail.rest)

/-- Reads an address of either family. -/
def readAny (s : List Char) : Option (Ip × List Char) :=
  match readOctets s with
  | some (octets, rest) => some (ofOctets octets, rest)
  | none => readV6 s

/-- The address that a text is, if it is one. -/
def read? (s : List Char) : Option Ip :=
  match readAny s with
  | some (ip, []) => some ip
  | _ => none

/-- Reads a decimal number below a bound. -/
def readBelow (bound : Nat) (s : List Char) : Option (Nat × List Char) :=
  let (digits, rest) := spanDigits 10 s
  let value := ofDigits 10 digits
  if digits.isEmpty ∨ value ≥ bound then none else some (value, rest)

/-- Reads a scope, if there is one. -/
def readScope (s : List Char) : List Char :=
  match readChar '%' s with
  | none => s
  | some rest =>
    match readBelow UInt32.size rest with
    | none => s
    | some (_, rest) => rest

/-- Reads an address with its port. -/
def readSocket (s : List Char) : Option (Ip × Nat × List Char) :=
  match readOctets s with
  | some (octets, rest) => do
    let rest ← readChar ':' rest
    let (port, rest) ← readBelow UInt16.size rest
    return (ofOctets octets, port, rest)
  | none => do
    let rest ← readChar '[' s
    let (ip, rest) ← readV6 rest
    let rest ← readChar ']' (readScope rest)
    let rest ← readChar ':' rest
    let (port, rest) ← readBelow UInt16.size rest
    return (ip, port, rest)

/-- Is the text an address with a port? -/
def isSocketAddress (s : List Char) : Bool :=
  match readSocket s with
  | some (_, _, []) => true
  | _ => false

end Dialer.Ip
