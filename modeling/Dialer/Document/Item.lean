import Dialer.Document.Key
import Dialer.Document.Moment
import Dialer.Document.Number
import Dialer.Document.Tree

/-!
# Values of documents

Texts, numbers, truth values, dates and times, arrays and inline tables. An array may run
over several lines and end with a comma; an inline table may do neither. Arrays and inline
tables nest less than eighty deep.
-/

namespace Dialer.Document

/-- What reads something at the front of a text. -/
abbrev Reader (α : Type) := List Char → Option (α × List Char)

/-- Reads a value that holds no other. -/
def readScalar (s : List Char) : Option (Value × List Char) :=
  match s with
  | '"' :: _ | '\'' :: _ =>
    (readText s).map fun (text, rest) => (.text (String.ofList text), rest)
  | 't' :: 'r' :: 'u' :: 'e' :: rest => some (.bool true, rest)
  | 'f' :: 'a' :: 'l' :: 's' :: 'e' :: rest => some (.bool false, rest)
  | s =>
    match skipMoment s with
    | some rest => some (.moment, rest)
    | none => readNumber s

/-- Reads the rest of an array; the text is shorter than the number given. -/
def readArrayRest (read : Reader Value) : Nat → Reader (List Value)
  | 0, _ => none
  | n + 1, s => do
    match ← skipFiller s with
    | ']' :: rest => return ([], rest)
    | s =>
      let (value, rest) ← read s
      match ← skipFiller rest with
      | ',' :: rest =>
        let (values, rest) ← readArrayRest read n rest
        return (value :: values, rest)
      | ']' :: rest => return ([value], rest)
      | _ => none

/-- Reads an entry of an inline table and adds it to the others. -/
def readEntry (read : Reader Value) (entries : Entries) : Reader Entries := fun s => do
  let (path, key, rest) ← readPath s
  let rest ← pass '=' rest
  let (value, rest) ← read (skipBlanks rest)
  return (← Entries.addTo path key value .header entries, skipBlanks rest)

/-- Reads the entries of an inline table, of which there is one at least; the text is shorter
than the number given. -/
def readEntries (read : Reader Value) : Nat → Entries → Reader Entries
  | 0, _, _ => none
  | n + 1, entries, s => do
    let (entries, rest) ← readEntry read entries s
    match rest with
    | ',' :: rest => readEntries read n entries rest
    | '\x7d' :: rest => return (entries, rest)
    | _ => none

/-- Reads the rest of an inline table. -/
def readTableRest (read : Reader Value) (s : List Char) : Option (Entries × List Char) :=
  match skipBlanks s with
  | '\x7d' :: rest => some ([], rest)
  | s => readEntries read (s.length + 1) [] s

/-- Reads a value that nests at most so deep. -/
def readValue : Nat → Reader Value
  | 0, s => readScalar s
  | depth + 1, s =>
    match s with
    | '[' :: rest =>
      (readArrayRest (readValue depth) (rest.length + 1) rest).map fun (values, rest) =>
        (.list values, rest)
    | '\x7b' :: rest =>
      (readTableRest (readValue depth) rest).map fun (entries, rest) =>
        (.table (entryValues entries), rest)
    | s => readScalar s

/-- How deep arrays and inline tables may nest. -/
def depthLimit : Nat := 79

end Dialer.Document
