/-
**Values read as positions, locations, edits, drafts and entries.**

The parts of a draft can be read from values themselves, each from a record of its own. A value holds
no replacement, so that an edit takes its replacement from elsewhere, and a draft takes no edits. An
entry, which can be changed after it has been read, can be told to keep the number one under a name.

* `Position.ofOffset`, `Location.between`: the position of an offset, which must not be negative, and
  the location between two;
* `Position.ofValue`, `Location.ofValue`, `Edit.ofValue`, `Draft.ofValue`: what values hold;
* `Entry.fields`, `Entry.withOne`: the fields of an entry, and those of one that has been changed.
-/

import Splice.Draft
import Splice.Location
import Splice.Standard.Reading
import Splice.Standard.Setting

namespace Splice

open Standard (field leaf record whole)

namespace Position

/-- An integer that is not negative. -/
def offsetOf (value : Value) : Except IssueKind Int := do
  let number ← whole value
  if number < 0 then throw .negative else return number

/-- The position of an offset, in the first line. -/
def ofOffset (offset : Int) : Checked Position :=
  ((leaf offsetOf (.whole offset)).under (.name "offset")).map fun offset => ⟨offset, 1, 0⟩

/-- The position of a record. -/
def ofRecord (fields : Record) : Checked Position :=
  let offset := field fields "offset" none (leaf offsetOf)
  let line := field fields "line" (some 1) (leaf whole)
  let column := field fields "column" (some 0) (leaf whole)
  (offset.both (line.both column)).map fun (offset, line, column) => ⟨offset, line, column⟩

/-- The position of a value. -/
def ofValue (value : Value) : Checked Position := record "Position" ofRecord value

/-- The fields of a position. -/
def fields (position : Position) : Record :=
  [("offset", .whole position.offset), ("line", .whole position.line),
    ("column", .whole position.column)]

end Position

namespace Location

/-- The location of a record. -/
def ofRecord (fields : Record) : Checked Location :=
  let first := field fields "start" none Position.ofValue
  let last := field fields "end" none Position.ofValue
  (first.both last).map fun (first, last) => ⟨first, last⟩

/-- The location of a value. -/
def ofValue (value : Value) : Checked Location := record "SourceLocation" ofRecord value

/-- The location between two offsets. The first offset is examined first, alone. -/
def between (first last : Int) : Checked Location := do
  let first ← Position.ofOffset first
  let last ← Position.ofOffset last
  return ⟨first, last⟩

end Location

namespace Edit

/-- The range and the order that a record gives for an edit whose replacement comes from elsewhere.
A replacement in the record itself is an issue. -/
def ofRecord (replacement : Replacement) (fields : Record) : Checked Edit :=
  let number (name : String) := field fields name none (leaf whole)
  let render := field fields "render" (some replacement) (leaf fun _ => .error .notCallable)
  ((number "start").both ((number "end").both ((number "order").both render))).map
    fun (start, stop, order, replacement) => ⟨⟨start, stop⟩, order, replacement⟩

/-- The edit of a value, with a replacement from elsewhere. -/
def ofValue (replacement : Replacement) (value : Value) : Checked Edit :=
  record "Patch" (ofRecord replacement) value

end Edit

namespace Draft

/-- The text of a record, for a draft whose edits come from elsewhere: every edit in the record has
an issue. -/
def ofRecord (fields : Record) : Checked Draft :=
  let editOfRecord (fields : Record) : Checked Unit :=
    let number (name : String) := field fields name none (leaf whole)
    let render : Checked Unit := field fields "render" none (leaf fun _ => .error .notCallable)
    ((number "start").both ((number "end").both ((number "order").both render))).map fun _ => ()
  let edits : Value → Checked Unit
    | .list values =>
      (Checked.indexed (values.map (record "Patch" editOfRecord))).map fun _ => ()
    | value => .error [⟨[], .notTuple, value⟩]
  let content := field fields "value" none (leaf Standard.text)
  (content.both (field fields "patches" (some ()) edits)).map fun (content, _) => .ofText content

/-- The draft of a value. -/
def ofValue (value : Value) : Checked Draft := record "Workspace" ofRecord value

end Draft

namespace Entry

/-- A number that may be missing as a value. -/
def numberOrNothing : Option Int → Value
  | none => .nothing
  | some number => .whole number

/-- The fields of an entry, and its signed length. -/
def fields (entry : Entry) : Record :=
  [("start", .whole entry.start), ("length", numberOrNothing entry.length),
    ("end", numberOrNothing entry.stop), ("text", .text entry.text),
    ("template", .truth entry.isTemplate), ("span", .whole entry.reach)]

/-- The names that only tell something: the signed length, the fields beyond the known ones, and the
names of the fields that were given. -/
def readOnlyNames : List Text := ["span", "model_extra", "model_fields_set"]

/-- The fields of an entry one of which has been set to one, unchecked: a text may so become
a number. -/
def withOne (entry : Entry) (name : Text) : Except Setting.Fault Record :=
  match Setting.reserved? name with
  | some fault => .error fault
  | none =>
    if Setting.isPrivate name then .ok entry.fields
    else if name = Text.ofString "start" then .ok { entry with start := 1 }.fields
    else if name = Text.ofString "length" then .ok { entry with length := some 1 }.fields
    else if name = Text.ofString "end" then .ok { entry with stop := some 1 }.fields
    else if name = Text.ofString "text" ∨ name = Text.ofString "template" then
      .ok (entry.fields.put name (.whole 1))
    else if readOnlyNames.contains name then .error (.readOnly name)
    else .error (.unknown name)

end Entry

end Splice
