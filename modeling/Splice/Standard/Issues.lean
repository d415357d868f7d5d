/-
**Issues by name, and their report.**

What a reader of values finds wrong has a fixed name and text. A report has the way to each issue, its
text and name, and the value found, of which a long one is abridged; a value that cannot be displayed
is only said to be so.

* `IssueKind.missing`, `IssueKind.notWhole` and the others: what can be wrong;
* `Issue.report`: the lines that report issues.
-/

import Splice.Encoding.Utf8
import Splice.Schema.Issue
import Splice.Template.Display

namespace Splice

namespace IssueKind

/-- A field is missing. -/
def missing : IssueKind := ⟨"missing", "Field required"⟩

/-- A value is no list. -/
def notList : IssueKind := ⟨"list_type", "Input should be a valid list"⟩

/-- A value is no tuple. -/
def notTuple : IssueKind := ⟨"tuple_type", "Input should be a valid tuple"⟩

/-- A value is no text. -/
def notText : IssueKind := ⟨"string_type", "Input should be a valid string"⟩

/-- A text holds a surrogate. -/
def notUnicode : IssueKind :=
  ⟨"string_unicode",
    "Input should be a valid string, unable to parse raw data as a unicode string"⟩

/-- A value is nothing that can be called. -/
def notCallable : IssueKind := ⟨"callable_type", "Input should be callable"⟩

/-- A value is no record of the given name. -/
def notRecord (name : String) : IssueKind :=
  ⟨"model_type", Text.concat ["Input should be a valid dictionary or instance of ", name]⟩

/-- A record is unchangeable. -/
def frozen : IssueKind := ⟨"frozen_instance", "Instance is frozen"⟩

/-- An integer is negative that must not be. -/
def negative : IssueKind := ⟨"greater_than_equal", "Input should be greater than or equal to 0"⟩

/-- A record is refused by a check of its own. -/
def refused (message : Text) : IssueKind :=
  ⟨"value_error", Text.concat ["Value error, ", message]⟩

/-- A value is no integer. -/
def notWhole : IssueKind := ⟨"int_type", "Input should be a valid integer"⟩

/-- A double is no integer. -/
def fractional : IssueKind :=
  ⟨"int_from_float", "Input should be a valid integer, got a number with a fractional part"⟩

/-- A double is infinite or undefined. -/
def notFinite : IssueKind := ⟨"finite_number", "Input should be a finite number"⟩

/-- A text spells no integer. -/
def unreadableWhole : IssueKind :=
  ⟨"int_parsing", "Input should be a valid integer, unable to parse string as an integer"⟩

/-- A spelled integer is too long. -/
def oversizedWhole : IssueKind :=
  ⟨"int_parsing_size", "Unable to parse input string as an integer, exceeded maximum size"⟩

/-- A value is no truth value. -/
def notTruth : IssueKind := ⟨"bool_type", "Input should be a valid boolean"⟩

/-- A text or an integer stands for no truth value. -/
def unreadableTruth : IssueKind :=
  ⟨"bool_parsing", "Input should be a valid boolean, unable to interpret input"⟩

end IssueKind

variable [Objects] [Limits]

/-- The displayed form of a value in a report. -/
def Value.displayed (value : Value) : Text :=
  match value.shown Limits.levels with
  | .ok shown => shown
  | .error _ => Text.concat ["<unprintable ", value.typeName, " object>"]

namespace Issue

/-- A step of a way as a text. -/
def shownItem : PathItem → Text
  | .name name => name
  | .index index => Text.digits 10 index

/-- A text of more than fifty octets cut to what fits in its first 25 and in its last 24. -/
def abridged (text : Text) : Text :=
  if 50 < Utf8.size text then
    Utf8.beginning 25 text ++ Text.ofString "..." ++ Utf8.ending 24 text
  else text

/-- The lines of one issue: the way to it, unless it is empty, and what is wrong. -/
def lines (issue : Issue) : List Text :=
  let place : List Text :=
    if issue.path.isEmpty then [] else [Text.joined [.scalar '.'] (issue.path.map shownItem)]
  place ++
    [Text.concat ["  ", issue.kind.message, " [type=", issue.kind.code, ", input_value=",
      abridged issue.input.displayed, ", input_type=", issue.input.typeName, "]"]]

/-- The report of all issues of a value that was to be of a given kind. -/
def report (subject : String) (issues : List Issue) : Text :=
  let count : Text :=
    Text.digits 10 issues.length ++
      Text.ofString
        (if issues.length = 1 then " validation error for " else " validation errors for ")
  Text.joined [.scalar '\n'] ((count ++ Text.ofString subject) :: issues.flatMap lines)

end Issue

end Splice
