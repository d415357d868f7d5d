/-
**Expanding templates.**

A field looks its head up among named values, follows its path, converts what it finds, and lays it
out by its format. A format that holds fields is expanded first, by the same values; formats inside
such a format may not hold fields again.

* `expand`: the text of a template, or its first fault in the order of expansion;
* `Path.follow`: the part of a value to which a path leads.
-/

import Splice.Template.Layout
import Splice.Template.Markup

namespace Splice.Template

variable [Objects]

/-- The part of a value to which a step leads. -/
def Step.apply : Step → Value → Except Fault Value
  | .attribute name, value => Objects.attributeOf value name
  | .position index, .object key => Objects.part key (.whole index)
  | .item name, .object key => Objects.part key (.text name)
  | .position index, .text points =>
    match points[index]? with
    | some point => .ok (.text [point])
    | none => .error .pastText
  | .position index, .list values =>
    match values[index]? with
    | some value => .ok value
    | none => .error .pastList
  | .position index, .record _ => .error (.missingIndex index)
  | .item _, .text _ => .error .textByName
  | .item _, .list _ => .error .listByName
  | .item name, .record fields =>
    match Record.find? fields name with
    | some value => .ok value
    | none => .error (.missingName name)
  | _, value => .error (.noParts value.typeName)

/-- The value at the end of a path. -/
def Path.follow (path : Path) (value : Value) : Except Fault Value := do
  let found ← path.steps.foldlM (fun value step => step.apply value) value
  match path.flaw with
  | some fault => throw fault
  | none => return found

/-- The value that a field names. A head that is empty or a number names nothing. -/
def Field.find (field : Field) (values : Record) : Except Fault Value := do
  let index ← index? field.head
  if field.head.isEmpty ∨ index.isSome then throw .positional
  match values.find? field.head with
  | none => throw (.missingName field.head)
  | some value => (Path.read field.tail).follow value

variable [Limits]

/-- A value converted by the letter behind `!`. -/
def convert : Option CodePoint → Value → Except Fault Value
  | none, value => .ok value
  | some (.scalar '\x00'), value => .ok value
  | some (.scalar 'r'), value => (value.shown Limits.levels).map .text
  | some (.scalar 's'), value => value.asText.map .text
  | some (.scalar 'a'), value =>
    (value.shown Limits.levels).map fun shown => .text shown.inAscii
  | some letter, _ => .error (.unknownConversion letter)

/-- The text of a field, given how to expand a format. -/
def Field.expand (field : Field) (values : Record) (expandFormat : Text → Except Fault Text) :
    Except Fault Text := do
  let found ← field.find values
  let value ← convert field.conversion found
  let format ← if field.nested then expandFormat field.format else pure field.format
  formatted value format

/-- The text of pieces, given how to expand a format. -/
def expandPieces (values : Record) (expandFormat : Text → Except Fault Text) :
    List Piece → Except Fault Text
  | [] => .ok []
  | .literal point :: rest => (expandPieces values expandFormat rest).map (point :: ·)
  | .field field :: rest => do
    let text ← field.expand values expandFormat
    let others ← expandPieces values expandFormat rest
    return text ++ others

/-- The text of a template that may hold fields to a depth. -/
def expandTo (values : Record) : Nat → Text → Except Fault Text
  | 0, _ => .error .nestedTooDeep
  | depth + 1, template => do
    let markup := Markup.read template
    let text ← expandPieces values (expandTo values depth) markup.pieces
    match markup.flaw with
    | some fault => throw fault
    | none => return text

/-- The text of a template. -/
def expand (template : Text) (values : Record) : Except Fault Text := expandTo values 2 template

end Splice.Template
