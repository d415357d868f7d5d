/-
**Edits.**

An edit puts a replacement in the place of a range of a text. Its order tells when it was
registered. An edit of an empty range is an insertion. The order of precedence puts an edit that
wraps a range before everything inside it.

* `Span.directed`: the range between an offset and the one that lies a signed length away;
* `Span.within`: whether a range lies in a text of a given size;
* `Edit.precedes`: ascending by start; at one start insertions first, then longer ranges first; then
  by order.
-/

import Splice.Replacement

namespace Splice

/-- The range of offsets from `start` up to `stop`. -/
structure Span where
  start : Int
  stop : Int
  deriving DecidableEq, Repr

namespace Span

/-- The range between an offset and the one that lies a signed length away. -/
def directed (start length : Int) : Span := ⟨min start (start + length), max start (start + length)⟩

/-- The distance from start to stop. -/
def length (span : Span) : Int := span.stop - span.start

/-- Whether the range is empty. -/
def isPoint (span : Span) : Bool := span.start = span.stop

/-- Whether the range lies in a text of a given size. -/
def within (span : Span) (size : Nat) : Bool :=
  0 ≤ span.start && span.start ≤ span.stop && span.stop ≤ size

end Span

/-- A replacement for a range, with its place in the order of registration. -/
structure Edit where
  span : Span
  order : Int
  replacement : Replacement

namespace Edit

/-- Where the range begins. -/
abbrev start (edit : Edit) : Int := edit.span.start

/-- Where the range ends. -/
abbrev stop (edit : Edit) : Int := edit.span.stop

/-- Whether the edit replaces nothing. -/
abbrev isInsertion (edit : Edit) : Bool := edit.span.isPoint

/-- By what edits are sorted: start, insertions first, longer ranges first, order. -/
def rank (edit : Edit) : Int × Nat × Int × Int :=
  if edit.isInsertion then (edit.start, 0, 0, edit.order)
  else (edit.start, 1, -edit.span.length, edit.order)

/-- Whether the first edit may stand before the second. -/
def precedes (first second : Edit) : Bool :=
  let (start, sort, length, order) := first.rank
  let (otherStart, otherSort, otherLength, otherOrder) := second.rank
  start < otherStart || (start = otherStart &&
    (sort < otherSort || (sort = otherSort &&
      (length < otherLength || (length = otherLength && order ≤ otherOrder)))))

/-- Edits in order of precedence; edits that rank alike keep their places. -/
def sorted (edits : List Edit) : List Edit := edits.mergeSort precedes

/-- The numbers of an edit: its order and its range. -/
def numbers (edit : Edit) : List Int := [edit.order, edit.start, edit.stop]

/-- Whether the numbers of an edit can be written. A merge writes those of the edits that it drops and of
those that clash, so it is meant for edits whose numbers can be written, as the edits of a text can. -/
def isWritable (edit : Edit) : Bool := edit.numbers.all writable

/-- An edit in one line: its order and its range. -/
def summary (edit : Edit) : Text :=
  Text.concat [Text.decimal edit.order, ": ", Text.decimal edit.start, " ", Text.decimal edit.stop]

/-- An edit as a tag: its order and its half-open range. -/
def tag (edit : Edit) : Text :=
  Text.concat [Text.decimal edit.order, "@[", Text.decimal edit.start, ", ",
    Text.decimal edit.stop, ")"]

end Edit

end Splice
