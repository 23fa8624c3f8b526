import Dialer.Document.Quoted

/-!
# Keys

A key is bare, of letters, digits, underscores and dashes, or quoted on one line. Keys
between points form a path; blanks may stand around each key. A path has fewer than eighty
keys.
-/

namespace Dialer.Document

/-- May the character stand in a bare key? -/
def isBare (c : Char) : Bool :=
  c.isAlphanum || c == '_' || c == '-'

/-- Reads a bare key. -/
def readBare (s : List Char) : Option (List Char × List Char) :=
  let key := s.takeWhile isBare
  if key.isEmpty then none else some (key, s.dropWhile isBare)

/-- Reads one key. -/
def readKey (s : List Char) : Option (String × List Char) :=
  let read := match s with
    | '"' :: _ | '\'' :: _ => readQuoted s
    | _ => readBare s
  read.map fun (key, rest) => (String.ofList key, rest)

/-- The keys of a path, fewer than this. -/
def pathLimit : Nat := 80

/-- Reads a path of fewer keys than a number. -/
def readPathBelow : Nat → List Char → Option (List String × List Char)
  | 0, _ => none
  | 1, _ => none
  | n + 2, s => do
    let (key, rest) ← readKey (skipBlanks s)
    match skipBlanks rest with
    | '.' :: rest => do
      let (keys, rest) ← readPathBelow (n + 1) rest
      return (key :: keys, rest)
    | rest => return ([key], rest)

/-- Reads a path: the keys before the last, the last key, and the rest. -/
def readPath (s : List Char) : Option (List String × String × List Char) := do
  let (keys, rest) ← readPathBelow pathLimit s
  return (keys.dropLast, ← keys.getLast?, rest)

end Dialer.Document
