import Dialer.Document.Blank
import Dialer.Text.Digits

/-!
# Quoted texts of documents

Four forms: basic texts between double quotes, in which a backslash begins an escape;
literal texts between single quotes, in which nothing does; and either of them between three
quotes, which may run over several lines.

A line end right behind three opening quotes is left out, every other one counts as a line
feed, and one or two quotes may stand before three closing ones. In a basic text of several
lines, a backslash at the end of a line takes away all blanks and line ends behind it.

A reader begins behind the opening quotes and goes behind the closing ones.
-/

namespace Dialer.Document

open Dialer.Text

/-- The character of a code point, if it is one that text can hold. -/
def charOf? (n : Nat) : Option Char :=
  if n < 0xd800 ∨ (0xdfff < n ∧ n < 0x110000) then some (Char.ofNat n) else none

/-- The character that hexadecimal digits stand for. -/
def hexChar? (digits : List Char) : Option Char :=
  if digits.all (isDigitOf 16) then charOf? (ofDigits 16 digits) else none

/-- What a letter behind a backslash stands for. -/
def letterEscape? : Char → Option Char
  | 'b' => some '\x08'
  | 'f' => some '\x0c'
  | 'n' => some '\n'
  | 'r' => some '\r'
  | 't' => some '\t'
  | '"' => some '"'
  | '\\' => some '\\'
  | _ => none

/-- Puts a character in front of what was read. -/
def put (c : Char) (r : List Char × List Char) : List Char × List Char :=
  (c :: r.1, r.2)

/-- Reads the rest of a basic text. -/
def readBasic : List Char → Option (List Char × List Char)
  | [] => none
  | '"' :: rest => some ([], rest)
  | '\\' :: 'u' :: a :: b :: c :: d :: rest => do
    return put (← hexChar? [a, b, c, d]) (← readBasic rest)
  | '\\' :: 'U' :: a :: b :: c :: d :: e :: f :: g :: h :: rest => do
    return put (← hexChar? [a, b, c, d, e, f, g, h]) (← readBasic rest)
  | '\\' :: c :: rest => do
    return put (← letterEscape? c) (← readBasic rest)
  | c :: rest => if isPlain c && c != '\\' then (readBasic rest).map (put c) else none

/-- Reads the rest of a literal text. -/
def readLiteral : List Char → Option (List Char × List Char)
  | [] => none
  | '\'' :: rest => some ([], rest)
  | c :: rest => if isPlain c then (readLiteral rest).map (put c) else none

/-- What stands behind three closing quotes: up to two more belong to the text. -/
def closing (quote : Char) (rest : List Char) : List Char × List Char :=
  let extra := (rest.takeWhile (· == quote)).take 2
  (extra, rest.drop extra.length)

/-- Whether a backslash has taken effect. -/
inductive Folding where
  /-- It has not. -/
  | off
  /-- The line still has to end. -/
  | sought
  /-- The line has ended; blanks and line ends are taken away. -/
  | on
deriving DecidableEq, Repr

/-- Reads the rest of a basic text of several lines. -/
def readBasicLines : Folding → List Char → Option (List Char × List Char)
  | _, [] => none
  | .sought, c :: rest =>
    if isBlank c then readBasicLines .sought rest
    else if c = '\n' then readBasicLines .on rest
    else if c = '\r' && rest.head? == some '\n' then readBasicLines .sought rest
    else none
  | .on, '\n' :: rest => readBasicLines .on rest
  | .on, ' ' :: rest => readBasicLines .on rest
  | .on, '\t' :: rest => readBasicLines .on rest
  | .on, '\r' :: '\n' :: rest => readBasicLines .on rest
  | _, '"' :: '"' :: '"' :: rest => some (closing '"' rest)
  | _, '\\' :: 'u' :: a :: b :: c :: d :: rest => do
    return put (← hexChar? [a, b, c, d]) (← readBasicLines .off rest)
  | _, '\\' :: 'U' :: a :: b :: c :: d :: e :: f :: g :: h :: rest => do
    return put (← hexChar? [a, b, c, d, e, f, g, h]) (← readBasicLines .off rest)
  | _, '\\' :: c :: rest =>
    if isBlank c || c == '\n' || c == '\r' then
      readBasicLines .sought (c :: rest)
    else do
      return put (← letterEscape? c) (← readBasicLines .off rest)
  | _, '\n' :: rest => (readBasicLines .off rest).map (put '\n')
  | _, '\r' :: '\n' :: rest => (readBasicLines .off rest).map (put '\n')
  | _, c :: rest =>
    if isPlain c && c != '\\' then (readBasicLines .off rest).map (put c) else none

/-- Reads the rest of a literal text of several lines. -/
def readLiteralLines : List Char → Option (List Char × List Char)
  | [] => none
  | '\'' :: '\'' :: '\'' :: rest => some (closing '\'' rest)
  | '\n' :: rest => (readLiteralLines rest).map (put '\n')
  | '\r' :: '\n' :: rest => (readLiteralLines rest).map (put '\n')
  | c :: rest => if isPlain c then (readLiteralLines rest).map (put c) else none

/-- Passes the line end right behind opening quotes, if there is one. -/
def skipFirstNewline (s : List Char) : List Char :=
  (newline? s).getD s

/-- Reads a text on one line, from its opening quote on. -/
def readQuoted : List Char → Option (List Char × List Char)
  | '"' :: rest => readBasic rest
  | '\'' :: rest => readLiteral rest
  | _ => none

/-- Reads a text of any form, from its opening quotes on. -/
def readText : List Char → Option (List Char × List Char)
  | '"' :: '"' :: '"' :: rest => readBasicLines .off (skipFirstNewline rest)
  | '\'' :: '\'' :: '\'' :: rest => readLiteralLines (skipFirstNewline rest)
  | s => readQuoted s

end Dialer.Document
