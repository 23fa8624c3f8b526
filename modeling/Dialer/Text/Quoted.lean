import Dialer.Text.Visible

/-!
# Quoted text

A text inside a diagnostic stands between double quotes. The quote and the
backslash are preceded by a backslash, tab, line feed, carriage return and the null
character have a letter (or digit) of their own, and every other character that is
not shown as itself is written by its code point in lower-case hexadecimal digits.
-/

namespace Dialer.Text

/-- The hexadecimal digits of a number, lower case, without leading zeros. -/
def hex (n : Nat) : List Char :=
  Nat.toDigits 16 n

/-- The escape for a character that is written by its code point. -/
def codePointEscape (c : Char) : List Char :=
  ['\\', 'u', '\x7b'] ++ hex c.toNat ++ ['\x7d']

/-- What stands for one character between the quotes. -/
def quotedChar (c : Char) : List Char :=
  match c with
  | '\x00' => ['\\', '0']
  | '\t' => ['\\', 't']
  | '\r' => ['\\', 'r']
  | '\n' => ['\\', 'n']
  | '"' => ['\\', '"']
  | '\\' => ['\\', '\\']
  | c => if isVisible c then [c] else codePointEscape c

/-- A text between quotes. -/
def quoted (s : String) : String :=
  String.ofList ('"' :: (s.toList.flatMap quotedChar) ++ ['"'])

/-- A list between brackets, its members separated by commas. -/
def bracketed (members : List String) : String :=
  "[" ++ ", ".intercalate members ++ "]"

/-- A record that shows some of its fields: the name, the fields shown, and two
points for the rest. -/
def openRecord (name : String) (fields : List (String × String)) : String :=
  name ++ " \x7b " ++ ", ".intercalate ((fields.map fun f => f.1 ++ ": " ++ f.2) ++ [".."]) ++ " \x7d"

/-- A record that shows all of its fields. -/
def closedRecord (name : String) (fields : List (String × String)) : String :=
  name ++ " \x7b " ++ ", ".intercalate (fields.map fun f => f.1 ++ ": " ++ f.2) ++ " \x7d"

end Dialer.Text
