/-!
# Blanks, comments and line ends

What stands between the parts of a document. A reader takes the text before it to the text
behind it. A line ends with a line feed, which a carriage return may precede; a comment runs
to the end of its line and holds no control character but the tab.
-/

namespace Dialer.Document

/-- Is the character a space or a tab? -/
def isBlank (c : Char) : Bool :=
  c == ' ' || c == '\t'

/-- May the character stand in a comment or a literal text: no control character but the tab? -/
def isPlain (c : Char) : Bool :=
  c == '\t' || (' ' ≤ c && c != '\x7f')

/-- Passes spaces and tabs. -/
def skipBlanks (s : List Char) : List Char :=
  s.dropWhile isBlank

/-- Passes a comment, if there is one. -/
def skipComment : List Char → List Char
  | '#' :: rest => rest.dropWhile isPlain
  | s => s

/-- Passes a line end. -/
def newline? : List Char → Option (List Char)
  | '\n' :: rest => some rest
  | '\r' :: '\n' :: rest => some rest
  | _ => none

/-- Passes a line end or the end of the document. -/
def lineEnd? : List Char → Option (List Char)
  | [] => some []
  | s => newline? s

/-- Passes the rest of a line: blanks and a comment. -/
def restOfLine? (s : List Char) : Option (List Char) :=
  lineEnd? (skipComment (skipBlanks s))

/-- Passes blanks, comments and line ends; each comment has its line end. The text is at most
as long as the number given. -/
def skipLines : Nat → List Char → Option (List Char)
  | 0, s => some s
  | n + 1, s =>
    match skipBlanks s with
    | '#' :: rest => (newline? (rest.dropWhile isPlain)).bind (skipLines n)
    | '\n' :: rest => skipLines n rest
    | '\r' :: rest => (newline? ('\r' :: rest)).bind (skipLines n)
    | s => some s

/-- Passes blanks, comments and line ends. -/
def skipFiller (s : List Char) : Option (List Char) :=
  skipLines s.length s

end Dialer.Document
