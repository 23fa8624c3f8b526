import Dialer.Text.Digits

/-!
# Dates and times of documents

A date, a time of day, or a date and a time with or without an offset. They are checked and
passed over: nothing in a configuration has a use for them.
-/

namespace Dialer.Document

open Dialer.Text

/-- Reads exactly so many digits. -/
def readFixed (width : Nat) (s : List Char) : Option (Nat × List Char) :=
  let digits := s.take width
  if digits.length = width ∧ digits.all (isDigitOf 10) then
    some (ofDigits 10 digits, s.drop width)
  else none

/-- Reads two digits of a number in a range. -/
def readWithin (low high : Nat) (s : List Char) : Option (Nat × List Char) :=
  (readFixed 2 s).filter fun (n, _) => low ≤ n && n ≤ high

/-- Passes one character. -/
def pass (c : Char) : List Char → Option (List Char)
  | [] => none
  | x :: rest => if x = c then some rest else none

/-- Has the year a 29th of February? -/
def isLeap (year : Nat) : Bool :=
  year % 4 == 0 && (year % 100 != 0 || year % 400 == 0)

/-- The days of a month. -/
def daysOf (year month : Nat) : Nat :=
  if month = 2 then if isLeap year then 29 else 28
  else if month = 4 ∨ month = 6 ∨ month = 9 ∨ month = 11 then 30
  else 31

/-- Passes a date. -/
def skipDate (s : List Char) : Option (List Char) := do
  let (year, s) ← readFixed 4 s
  let s ← pass '-' s
  let (month, s) ← readWithin 1 12 s
  let s ← pass '-' s
  let (_, s) ← readWithin 1 (daysOf year month) s
  return s

/-- Passes a fraction of a second, if there is one. -/
def skipFraction : List Char → Option (List Char)
  | '.' :: rest =>
    match spanDigits 10 rest with
    | ([], _) => none
    | (_, rest) => some rest
  | s => some s

/-- Passes hours and minutes. -/
def skipMinutes (s : List Char) : Option (List Char) := do
  let (_, s) ← readWithin 0 23 s
  let s ← pass ':' s
  let (_, s) ← readWithin 0 59 s
  return s

/-- Passes a time of day. -/
def skipTime (s : List Char) : Option (List Char) := do
  let s ← skipMinutes s
  let s ← pass ':' s
  let (_, s) ← readWithin 0 60 s
  skipFraction s

/-- Passes an offset, if there is one. -/
def skipOffset : List Char → Option (List Char)
  | 'Z' :: rest | 'z' :: rest => some rest
  | '+' :: rest | '-' :: rest => skipMinutes rest
  | s => some s

/-- Passes the time behind a date, if there is one. -/
def skipTimeOfDate (s : List Char) : List Char :=
  match s with
  | c :: rest =>
    if c = 'T' ∨ c = 't' ∨ c = ' ' then ((skipTime rest).bind skipOffset).getD s else s
  | [] => s

/-- Passes a date or a time. -/
def skipMoment (s : List Char) : Option (List Char) :=
  match skipDate s with
  | some rest => some (skipTimeOfDate rest)
  | none => skipTime s

end Dialer.Document
