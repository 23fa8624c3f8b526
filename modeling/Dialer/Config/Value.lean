/-!
# Configuration documents

A document read from a configuration file or another structured source is a tree of
values. The source does not matter to the schema, apart from the rules in `Dialect`.
-/

namespace Dialer

/-- A value of a document. -/
inductive Value where
  | null
  | bool (value : Bool)
  | integer (value : Int)
  | float (value : Float)
  | text (value : String)
  /-- A date, a time, or both. -/
  | moment
  | list (items : List Value)
  | table (entries : List (String × Value))
deriving Inhabited

namespace Value

/-- Is there nothing in the value? -/
def isNull : Value → Bool
  | .null => true
  | _ => false

/-- Is it a list or a table without members? -/
def isVacant : Value → Bool
  | .list [] => true
  | .table [] => true
  | _ => false

/-- The value under a key of a list of entries. -/
def find? (key : String) : List (String × Value) → Option Value
  | [] => none
  | (k, v) :: rest => if k = key then some v else find? key rest

end Value

/-- Where sources of documents differ. -/
structure Dialect where
  /-- May a list that stands for a section have more members than the section has fields? -/
  allowsSurplus : Bool
  /-- What may be said about a choice that is written as a table with one key. -/
  saysNothing : Value → Bool

namespace Dialect

/-- Documents in JSON. -/
def json : Dialect := ⟨false, Value.isNull⟩

/-- Configuration files. -/
def file : Dialect := ⟨true, Value.isVacant⟩

end Dialect

end Dialer
