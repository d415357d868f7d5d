/-
**Setting a name of a record.**

A record that has been read can be told to keep the number one under a name. Names that begin with
an underscore are private: what a record keeps under such a name is no field of it and shows
nowhere. Some private names are reserved for what every record has, and a number does not fit there.
Other names are fields, and cannot be set when the record is unchangeable.

* `Setting.reserved?`: why a reserved name cannot be set;
* `Setting.Fault`: why a name cannot be set;
* `Setting.setFrozen`: the attempt to set a name of an unchangeable record.
-/

import Splice.Standard.Issues

namespace Splice

namespace Setting

/-- Why a name of a record cannot be set to a number. -/
inductive Fault where
  | frozen (name : Text)
  | unknown (name : Text)
  | readOnly (name : Text)
  | unwritable (name : Text)
  | shared (name : Text)
  | kindNeeded
  | tableNeeded
  deriving DecidableEq, Repr

/-- The text of a fault, for a record of a kind. -/
def Fault.message (kind : String) : Fault → Text
  | .frozen _ => IssueKind.frozen.message
  | .unknown name => Text.concat ["\"", kind, "\" object has no field \"", name, "\""]
  | .readOnly name => Text.concat ["property '", name, "' of '", kind, "' object has no setter"]
  | .unwritable name =>
    Text.concat ["attribute '", name, "' of '", kind, "' objects is not writable"]
  | .shared name =>
    Text.concat ["'", name, "' is a ClassVar of \x60", kind,
      "\x60 and cannot be set on an instance. ",
      "If you want to set a value on the class, use \x60", kind, ".", name, " = value\x60."]
  | .kindNeeded => "__class__ must be set to a class, not 'int' object"
  | .tableNeeded => "__dict__ must be set to a dictionary, not a 'int'"

/-- The issue that an unchangeable field is. -/
def frozenIssue (name : Text) : Issue :=
  ⟨[.name (String.ofList (Utf8.legible name))], .frozen, .whole 1⟩

/-- Why a reserved name cannot be set: those of the kind of a record, of the table of what it keeps,
of the references to it and of the fields that were given, and those that all records of a kind have
in common. -/
def reserved? (name : Text) : Option Fault :=
  if name = Text.ofString "__class__" then some .kindNeeded
  else if name = Text.ofString "__dict__" then some .tableNeeded
  else if name = Text.ofString "__weakref__" then some (.unwritable name)
  else if name = Text.ofString "__fields_set__" then some (.readOnly name)
  else if name = Text.ofString "__class_vars__" ∨ name = Text.ofString "__private_attributes__" ∨
      name = Text.ofString "__signature__" then
    some (.shared name)
  else none

/-- Whether a name is private. -/
def isPrivate (name : Text) : Bool := name.head? = some (.scalar '_')

/-- The attempt to set a name of an unchangeable record: only a private name can be set. -/
def setFrozen (name : Text) : Except Fault Unit :=
  match reserved? name with
  | some fault => .error fault
  | none => if isPrivate name then .ok () else .error (.frozen name)

end Setting

end Splice
