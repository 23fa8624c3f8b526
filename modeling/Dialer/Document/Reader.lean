import Dialer.Document.Item

/-!
# Reading configuration files

A file is a text in UTF-8 that is a document: lines with a header, with a key and its value,
with a comment, or with nothing. The header of a line holds for the keys below it, up to the
next header. A mark of the byte order at the front is passed over.

The format is TOML 1.0.
-/

namespace Dialer.Document

/-- A document read so far: the header that holds, and all tables. -/
structure Draft where
  header : List String
  root : Entries

/-- Reads the rest of a header that opens a table. -/
def readHeader (d : Draft) (s : List Char) : Option (Draft × List Char) := do
  let (path, key, rest) ← readPath s
  let rest ← restOfLine? (← pass ']' rest)
  return (⟨path ++ [key], ← d.root.openTable path key⟩, rest)

/-- Reads the rest of a header that opens the next table of an array. -/
def readArrayHeader (d : Draft) (s : List Char) : Option (Draft × List Char) := do
  let (path, key, rest) ← readPath s
  let rest ← restOfLine? (← pass ']' (← pass ']' rest))
  return (⟨path ++ [key], ← d.root.openNext path key⟩, rest)

/-- Reads a key and its value. -/
def readSetting (d : Draft) (s : List Char) : Option (Draft × List Char) := do
  let (path, key, rest) ← readPath s
  let (value, rest) ← readValue depthLimit (skipBlanks (← pass '=' rest))
  let rest ← restOfLine? rest
  return ({ d with root := ← d.root.add d.header path key value }, rest)

/-- Reads a line that does not begin with blanks. -/
def readLine (d : Draft) (s : List Char) : Option (Draft × List Char) :=
  match s with
  | '[' :: '[' :: rest => readArrayHeader d rest
  | '[' :: rest => readHeader d rest
  | '#' :: _ | '\n' :: _ | '\r' :: _ => (restOfLine? s).map fun rest => (d, rest)
  | s => readSetting d s

/-- Reads lines to the end of the text, which is shorter than the number given. -/
def readLines : Nat → Draft → List Char → Option Draft
  | 0, _, _ => none
  | n + 1, d, s =>
    match skipBlanks s with
    | [] => some d
    | s => (readLine d s).bind fun (d, rest) => readLines n d rest

/-- The text behind a mark of the byte order. -/
def skipMark : List Char → List Char
  | '\ufeff' :: rest => rest
  | s => s

/-- The value of a document. -/
def read? (text : String) : Option Value :=
  let s := skipMark text.toList
  (readLines (s.length + 1) ⟨[], []⟩ s).map fun d => .table (entryValues d.root)

end Dialer.Document
