/-
**Entries of edit scripts.**

An edit script is a list of entries. An entry says where an edit begins and, by a length or by an
end, how far it reaches; with neither it is an insertion. Its text stands for itself or is a
template.

* `Entry.reach`: the signed length of an entry;
* `Entry.ofValue`, `Script.ofValue`: the entry and the script of a value, or all that is wrong;
* `Script.parse`: the script of a JSON document.
-/

import Splice.Schema.Reading
import Splice.Json.Reader

namespace Splice

/-- An entry of an edit script. -/
structure Entry where
  start : Int
  length : Option Int
  stop : Option Int
  text : Text
  isTemplate : Bool
  deriving DecidableEq, Repr

namespace Entry

/-- The signed length of an entry: the length if it is given, else the way to the end,
else nothing. -/
def reach (entry : Entry) : Int :=
  match entry.length, entry.stop with
  | some length, _ => length
  | none, some stop => stop - entry.start
  | none, none => 0

/-- What is said of a length and an end that do not fit together. -/
def disagreement (start length stop : Int) : Text :=
  Text.withNumbers [start, length, stop]
    (Text.concat ["length ", Text.decimal length, " and end ", Text.decimal stop,
      " disagree for start ", Text.decimal start])

/-- What is said when a length and an end are given that do not fit together. -/
def disagreement? (entry : Entry) : Option Text :=
  match entry.length, entry.stop with
  | some length, some stop =>
    if entry.start + length = stop then none else some (disagreement entry.start length stop)
  | _, _ => none

variable [Schema]

/-- The entry of a record. Length and end are compared only when every field is in order. -/
def ofRecord (record : Record) : Checked Entry :=
  let start := Schema.required record "start" Schema.whole
  let length := Schema.optional record "length" none (Schema.nullable Schema.whole)
  let stop := Schema.optional record "end" none (Schema.nullable Schema.whole)
  let text := Schema.optional record "text" [] Schema.text
  let isTemplate := Schema.optional record "template" false Schema.truth
  match start.both (length.both (stop.both (text.both isTemplate))) with
  | .error issues => .error issues
  | .ok (start, length, stop, text, isTemplate) =>
    let entry : Entry := ⟨start, length, stop, text, isTemplate⟩
    match entry.disagreement? with
    | some message => .error [⟨[], Schema.refused message, .record record⟩]
    | none => .ok entry

/-- The entry of a value. -/
def ofValue (value : Value) : Checked Entry := Schema.record "EditSpec" ofRecord value

end Entry

/-- An edit script. -/
abbrev Script := List Entry

namespace Script

/-- Why a document is no edit script. -/
inductive Fault where
  | json (fault : Json.Fault) (document : Text)
  | invalid (issues : List Issue)

/-- Whether a document is nested too deep to be read. -/
def Fault.isDepth : Fault → Bool
  | .json fault _ => fault.cause.isDepth
  | .invalid _ => false

/-- How reports call an edit script. -/
def subject : String := "list[function-after[_check_extent(), EditSpec]]"

variable [Schema]

/-- The script of a value. -/
def ofValue (value : Value) : Checked Script := Schema.list Entry.ofValue value

/-- The script of a JSON document. -/
def parse [Limits] (document : Text) : Except Fault Script :=
  match Json.read document with
  | .error fault => .error (.json fault document)
  | .ok value => (ofValue value).mapError .invalid

/-- The text of a fault. -/
def Fault.message : Fault → Text
  | .json fault document => fault.message document
  | .invalid issues => Schema.report subject issues

end Script

end Splice
