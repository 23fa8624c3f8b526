import Dialer.Config.Value

/-!
# Trees of tables

A document fills a tree of tables line by line. What may still be added to a table depends
on how it came about (`Origin`):

* a table of its own header, or one written out as a value, is not opened by a header again,
  and no path of a key leads through it;
* a table that was only passed through by a header's path may still get its own header;
* a table that came about by the path of a key is open to more such paths, and to no header.

An array of tables stands for its last table. A path may not lead through any other value.
-/

namespace Dialer.Document

/-- How a table came about. -/
inductive Origin where
  | header
  | passing
  | keyPath
deriving DecidableEq, Repr

/-- A node of the tree. -/
inductive Node where
  | leaf (value : Value)
  | table (origin : Origin) (entries : List (String × Node))
  | tables (items : List (List (String × Node)))

/-- What a table holds. -/
abbrev Entries := List (String × Node)

namespace Entries

/-- The node under a key. -/
def find? (key : String) : Entries → Option Node
  | [] => none
  | (k, node) :: rest => if k = key then some node else find? key rest

/-- Puts a node under a key, in place of an older one. -/
def put (key : String) (node : Node) : Entries → Entries
  | [] => [(key, node)]
  | (k, old) :: rest => if k = key then (k, node) :: rest else (k, old) :: put key node rest

/-- Changes the last of several tables. -/
def changeLast (f : Entries → Option Entries) : List Entries → Option (List Entries)
  | [] => none
  | [last] => (f last).map fun last => [last]
  | entries :: rest => (changeLast f rest).map (entries :: ·)

/-- The origin of a table that a path makes. -/
def madeBy (ofKey : Bool) : Origin :=
  if ofKey then .keyPath else .passing

/-- Changes the table at the end of a path, of a key or of a header. -/
def within (ofKey : Bool) (f : Origin → Entries → Option Entries) :
    List String → Origin → Entries → Option Entries
  | [], origin, entries => f origin entries
  | key :: path, _, entries =>
    match find? key entries with
    | none =>
      (within ofKey f path (madeBy ofKey) []).map fun made =>
        put key (.table (madeBy ofKey) made) entries
    | some (.leaf _) => none
    | some (.table origin inner) =>
      if ofKey ∧ origin = .header then none
      else (within ofKey f path origin inner).map fun changed =>
        put key (.table origin changed) entries
    | some (.tables items) =>
      (changeLast (within ofKey f path .header) items).map fun items =>
        put key (.tables items) entries

/-- Adds a value under a path and a key to a table. The path has to end at a table that came
about by such a path, and the key has to be new. -/
def addTo (path : List String) (key : String) (value : Value) (origin : Origin)
    (entries : Entries) : Option Entries :=
  within true (fun origin entries =>
    if path.isEmpty = decide (origin = .keyPath) then none
    else if (find? key entries).isSome then none
    else some (put key (.leaf value) entries)) path origin entries

/-- Adds a value to the table of a header. -/
def add (header path : List String) (key : String) (value : Value) (root : Entries) :
    Option Entries :=
  within false (addTo path key value) header .header root

/-- Opens a table by its header. -/
def openTable (path : List String) (key : String) (root : Entries) : Option Entries :=
  within false (fun _ entries =>
    match find? key entries with
    | none => some (put key (.table .header []) entries)
    | some (.table .passing inner) => some (put key (.table .header inner) entries)
    | some _ => none) path .header root

/-- Opens the next table of an array by its header. -/
def openNext (path : List String) (key : String) (root : Entries) : Option Entries :=
  within false (fun _ entries =>
    match find? key entries with
    | none => some (put key (.tables [[]]) entries)
    | some (.tables items) => some (put key (.tables (items ++ [[]])) entries)
    | some _ => none) path .header root

end Entries

mutual

/-- The value of a node. -/
def Node.toValue : Node → Value
  | .leaf value => value
  | .table _ entries => .table (entryValues entries)
  | .tables items => .list (tableValues items)

/-- The values under the keys of a table. -/
def entryValues : List (String × Node) → List (String × Value)
  | [] => []
  | (key, node) :: rest => (key, node.toValue) :: entryValues rest

/-- The values of several tables. -/
def tableValues : List (List (String × Node)) → List Value
  | [] => []
  | entries :: rest => .table (entryValues entries) :: tableValues rest

end

end Dialer.Document
