import Dialer.Config.Value
import Dialer.Text.Digits

/-!
# Numbers of documents

Whole numbers of 64 bits with a sign, in decimal or, without a sign, in base 16, 8 or 2;
numbers in floating point with a fraction, an exponent or both; and the names `inf` and
`nan`. Single underscores may stand between digits. A decimal number has no leading zeros,
apart from those of an exponent.
-/

namespace Dialer.Document

open Dialer.Text

/-- Reads digits behind a first one; an underscore may stand before each. -/
def moreDigits (base : Nat) : List Char → List Char × List Char
  | '_' :: c :: rest =>
    if isDigitOf base c then
      let (digits, rest) := moreDigits base rest
      (c :: digits, rest)
    else ([], '_' :: c :: rest)
  | c :: rest =>
    if isDigitOf base c then
      let (digits, rest) := moreDigits base rest
      (c :: digits, rest)
    else ([], c :: rest)
  | [] => ([], [])

/-- Reads one or more digits, with underscores between them. -/
def readDigits (base : Nat) : List Char → Option (List Char × List Char)
  | [] => none
  | c :: rest =>
    if isDigitOf base c then
      let (digits, rest) := moreDigits base rest
      some (c :: digits, rest)
    else none

/-- Reads a sign, if there is one: is it a minus? -/
def readSign : List Char → Bool × List Char
  | '-' :: rest => (true, rest)
  | '+' :: rest => (false, rest)
  | s => (false, s)

/-- Reads the digits of a decimal number without leading zeros. -/
def readDecimal : List Char → Option (List Char × List Char)
  | '0' :: rest => some (['0'], rest)
  | s => readDigits 10 s

/-- A whole number, if it has 64 bits. -/
def integer? (negative : Bool) (n : Nat) : Option Value :=
  if negative then
    if n ≤ 1 <<< 63 then some (.integer (-(n : Int))) else none
  else
    if n < 1 <<< 63 then some (.integer n) else none

/-- Reads a whole number. -/
def readInteger (s : List Char) : Option (Value × List Char) :=
  let based (base : Nat) (rest : List Char) : Option (Value × List Char) := do
    let (digits, rest) ← readDigits base rest
    return (← integer? false (ofDigits base digits), rest)
  match s with
  | '0' :: 'x' :: rest => based 16 rest
  | '0' :: 'o' :: rest => based 8 rest
  | '0' :: 'b' :: rest => based 2 rest
  | s => do
    let (negative, rest) := readSign s
    let (digits, rest) ← readDecimal rest
    return (← integer? negative (ofDigits 10 digits), rest)

/-- Reads a fraction, if there is one: its digits. -/
def readFraction : List Char → Option (List Char × List Char)
  | '.' :: rest => readDigits 10 rest
  | s => some ([], s)

/-- Reads an exponent, if there is one. -/
def readExponent : List Char → Option (Int × List Char)
  | c :: rest =>
    if c = 'e' ∨ c = 'E' then do
      let (negative, rest) := readSign rest
      let (digits, rest) ← readDigits 10 rest
      let n : Int := ofDigits 10 digits
      return (if negative then -n else n, rest)
    else some (0, c :: rest)
  | [] => some (0, [])

/-- The floating-point number nearest to digits times a power of ten. Beyond the range of
floating point the power does not matter. -/
def nearest (digits : List Char) (exponent : Int) : Float :=
  let n := ofDigits 10 digits
  let digits := digits.dropWhile (· == '0')
  let magnitude := digits.length + exponent
  if n = 0 ∨ magnitude < -400 then 0.0
  else if magnitude > 400 then 1.0 / 0.0
  else if exponent < 0 then Float.ofScientific n true exponent.natAbs
  else Float.ofScientific n false exponent.natAbs

/-- Reads a number with a fraction or an exponent. One that is too large is refused; with a
minus it is taken for negative infinity. -/
def readDecimalFloat (s : List Char) : Option (Value × List Char) := do
  let (negative, rest) := readSign s
  let (whole, rest) ← readDecimal rest
  let (fraction, behind) ← readFraction rest
  let (exponent, behind) ← readExponent behind
  if behind.length = rest.length then
    none
  else
    let size := nearest (whole ++ fraction) (exponent - fraction.length)
    if negative then return (.float (-size), behind)
    else if size.isInf then none
    else return (.float size, behind)

/-- Reads the name of a number that is not finite. -/
def readSpecial (s : List Char) : Option (Value × List Char) :=
  let (negative, rest) := readSign s
  match rest with
  | 'i' :: 'n' :: 'f' :: rest =>
    some (.float (if negative then -1.0 / 0.0 else 1.0 / 0.0), rest)
  | 'n' :: 'a' :: 'n' :: rest => some (.float (0.0 / 0.0), rest)
  | _ => none

/-- Reads a number. -/
def readNumber (s : List Char) : Option (Value × List Char) :=
  readDecimalFloat s <|> readSpecial s <|> readInteger s

end Dialer.Document
