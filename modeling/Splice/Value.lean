/-
**Values.**

A value is what a JSON document holds and what a template sees: nothing, a truth value, an integer
of any size, a double, a text, a list, or a record. A record keeps its fields in the order in which
their names first occurred. A template may also come upon objects of other kinds, which are known by
numbers.

* `Record.find?`, `Record.put`: the field of a name, and a record with one field set.
-/

import Splice.Number.Binary64

namespace Splice

/-- A value. -/
inductive Value where
  | nothing
  | truth (value : Bool)
  | whole (value : Int)
  | real (value : Binary64)
  | text (value : Text)
  | list (values : List Value)
  | record (fields : List (Text × Value))
  | object (key : Nat)
  deriving Inhabited

/-- Named values in order, no name twice. -/
abbrev Record := List (Text × Value)

namespace Record

/-- The value of a name. -/
def find? (record : Record) (name : Text) : Option Value := record.lookup name

/-- The record with one name set: a name that is there keeps its place. -/
def put (record : Record) (name : Text) (value : Value) : Record :=
  match record with
  | [] => [(name, value)]
  | (other, old) :: rest =>
    if other = name then (name, value) :: rest else (other, old) :: put rest name value

/-- The record of a list of fields in which the last value of a name counts. -/
def ofFields (fields : List (Text × Value)) : Record :=
  fields.foldl (fun record (name, value) => record.put name value) []

end Record

end Splice
