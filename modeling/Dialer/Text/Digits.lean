/-!
# Digits

Reading natural numbers in a base up to sixteen. A run of digits is taken as long
as it goes (`span`) and its value is the usual positional one (`ofDigits`). What a
number may look like beyond that — how long, with leading zeros or not, up to which
value — is a question for each format that uses it.
-/

namespace Dialer.Text

/-- The value of a character as a digit, letters standing for ten to fifteen. -/
def digitValue (c : Char) : Nat :=
  if '0' ≤ c ∧ c ≤ '9' then c.toNat - '0'.toNat
  else if 'a' ≤ c ∧ c ≤ 'f' then c.toNat - 'a'.toNat + 10
  else if 'A' ≤ c ∧ c ≤ 'F' then c.toNat - 'A'.toNat + 10
  else 16

/-- Is the character a digit of the base? -/
def isDigitOf (base : Nat) (c : Char) : Bool :=
  digitValue c < base

/-- The value of a run of digits, the most significant first. -/
def ofDigits (base : Nat) (digits : List Char) : Nat :=
  digits.foldl (fun n c => n * base + digitValue c) 0

/-- The longest run of digits at the front, and the rest. -/
def spanDigits (base : Nat) (s : List Char) : List Char × List Char :=
  (s.takeWhile (isDigitOf base), s.dropWhile (isDigitOf base))

/-- The value of a text that consists of decimal digits, and of at least one. A plus
sign may stand in front. -/
def unsigned? (s : List Char) : Option Nat :=
  let digits := match s with
    | '+' :: rest => rest
    | s => s
  if digits.isEmpty || digits.any (fun c => !isDigitOf 10 c) then none
  else some (ofDigits 10 digits)

/-- `unsigned?` for values below a bound. -/
def unsignedBelow? (bound : Nat) (s : List Char) : Option Nat :=
  (unsigned? s).filter (· < bound)

end Dialer.Text
