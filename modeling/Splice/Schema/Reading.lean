/-
**Reading values by type.**

A reader takes a value for an integer, a truth value or a text, or says what is wrong with it. A
record is read field by field, and the issues of all its fields are reported in the order in which
the fields are declared; a list is read element by element, each with its issues under its index.

What counts as an integer or a truth value, and what issues are called, is a matter of the library
that reads values. It is a parameter, together with what holds of every such library.

* `Checked`: a result, or all that is wrong; `Checked.both`, `Checked.indexed`: several of them;
* `Schema`: the readers;
* `Schema.required`, `Schema.optional`: the field of a name, without and with a default.
-/

import Splice.Schema.Issue

namespace Splice

/-- A result, or all that is wrong. -/
abbrev Checked (α : Type) := Except (List Issue) α

/-- Two results, or the issues of both. -/
def Checked.both {α β : Type} (first : Checked α) (second : Checked β) : Checked (α × β) :=
  match first, second with
  | .ok a, .ok b => .ok (a, b)
  | .error issues, .ok _ => .error issues
  | .ok _, .error issues => .error issues
  | .error issues, .error others => .error (issues ++ others)

/-- A result for each element, or the issues of all. -/
def Checked.all {α : Type} : List (Checked α) → Checked (List α)
  | [] => .ok []
  | first :: rest =>
    (Checked.both first (Checked.all rest)).map fun (value, values) => value :: values

/-- A result whose issues lie at a step. -/
def Checked.under {α : Type} (item : PathItem) (checked : Checked α) : Checked α :=
  checked.mapError (·.map (Issue.under item))

/-- Results in a row, their issues each under its index. -/
def Checked.indexed {α : Type} (checks : List (Checked α)) : Checked (List α) :=
  Checked.all (checks.mapIdx fun index checked => checked.under (.index index))

/-- The readers of values.

* `whole`, `truth`, `text`: single values. Integers, truth values and texts are read as what they are,
  and nothing but a text is one; whatever else is taken for an integer stands for one that is short
  enough to be written.
* `nullable`: a value that may also be nothing.
* `field`: the field of a name, read by itself; without it there is a default, or it is missing.
* `record`, `list`: the fields of a record, and the elements of a list.
* `refused`: what is wrong with a record that is refused by a check of its own.
* `report`: the report of all issues of a value that was to be of a given kind. -/
class Schema where
  whole : Value → Except IssueKind Int
  truth : Value → Except IssueKind Bool
  text : Value → Except IssueKind Text
  nullable {α : Type} (reader : Value → Except IssueKind α) : Value → Except IssueKind (Option α)
  field {α : Type} (record : Record) (name : String) (default : Option α)
    (reader : Value → Except IssueKind α) : Checked α
  record {α : Type} (name : String) (reader : Record → Checked α) : Value → Checked α
  list {α : Type} (reader : Value → Checked α) : Value → Checked (List α)
  missing : IssueKind
  notRecord (name : String) : IssueKind
  notList : IssueKind
  refused (message : Text) : IssueKind
  report (subject : String) (issues : List Issue) : Text
  whole_whole (number : Int) : whole (.whole number) = .ok number
  writable_of_whole {value : Value} {number : Int} (other : ∀ given, value ≠ .whole given)
    (read : whole value = .ok number) : writable number = true
  truth_truth (flag : Bool) : truth (.truth flag) = .ok flag
  text_ok_iff (value : Value) (content : Text) : text value = .ok content ↔ value = .text content
  nullable_nothing {α : Type} (reader : Value → Except IssueKind α) :
    nullable reader .nothing = .ok none
  nullable_of_ne {α : Type} (reader : Value → Except IssueKind α) {value : Value}
    (given : value ≠ .nothing) : nullable reader value = (reader value).map some
  field_of_find {α : Type} {fields : Record} {name : String} (default : Option α)
    (reader : Value → Except IssueKind α) {value : Value} (found : fields.find? name = some value) :
    field fields name default reader =
      (reader value).mapError fun kind => [⟨[.name name], kind, value⟩]
  field_of_default {α : Type} {fields : Record} {name : String} (default : α)
    (reader : Value → Except IssueKind α) (lacking : fields.find? name = none) :
    field fields name (some default) reader = .ok default
  field_of_missing {α : Type} {fields : Record} {name : String}
    (reader : Value → Except IssueKind α) (lacking : fields.find? name = none) :
    field fields name none reader = .error [⟨[.name name], missing, .record fields⟩]
  record_record {α : Type} (name : String) (reader : Record → Checked α) (fields : Record) :
    record name reader (.record fields) = reader fields
  record_of_ne {α : Type} (name : String) (reader : Record → Checked α) {value : Value}
    (other : ∀ fields, value ≠ .record fields) :
    record name reader value = .error [⟨[], notRecord name, value⟩]
  list_list {α : Type} (reader : Value → Checked α) (values : List Value) :
    list reader (.list values) = Checked.indexed (values.map reader)
  list_of_ne {α : Type} (reader : Value → Checked α) {value : Value}
    (other : ∀ values, value ≠ .list values) : list reader value = .error [⟨[], notList, value⟩]

namespace Schema

variable [Schema] {α : Type}

/-- The field of a name, which must be there. -/
def required (record : Record) (name : String) (reader : Value → Except IssueKind α) : Checked α :=
  field record name none reader

/-- The field of a name, or a default. -/
def optional (record : Record) (name : String) (default : α)
    (reader : Value → Except IssueKind α) : Checked α :=
  field record name (some default) reader

end Schema

end Splice
