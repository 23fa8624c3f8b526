/-!
# Texts and lists in JSON

A text is written between double quotes. The quote and the backslash are preceded
by a backslash, five control characters have a letter of their own, the other
control characters are written with four lower-case hexadecimal digits, and
everything else stands for itself.
-/

namespace Dialer.Text

/-- Four hexadecimal digits of a number below `2 ^ 16`. -/
def hex4 (n : Nat) : List Char :=
  let digits := Nat.toDigits 16 n
  List.replicate (4 - digits.length) '0' ++ digits

/-- What stands for one character between the quotes. -/
def jsonChar (c : Char) : List Char :=
  match c with
  | '"' => ['\\', '"']
  | '\\' => ['\\', '\\']
  | '\x08' => ['\\', 'b']
  | '\x0c' => ['\\', 'f']
  | '\n' => ['\\', 'n']
  | '\r' => ['\\', 'r']
  | '\t' => ['\\', 't']
  | c => if c.toNat < 32 then ['\\', 'u'] ++ hex4 c.toNat else [c]

/-- A text as JSON. -/
def jsonString (s : String) : String :=
  String.ofList ('"' :: (s.toList.flatMap jsonChar) ++ ['"'])

/-- A list whose members are written already. -/
def jsonArray (members : List String) : String :=
  "[" ++ ",".intercalate members ++ "]"

/-- An object whose members are written already. -/
def jsonObject (fields : List (String × String)) : String :=
  "\x7b" ++ ",".intercalate (fields.map fun f => jsonString f.1 ++ ":" ++ f.2) ++ "\x7d"

end Dialer.Text
