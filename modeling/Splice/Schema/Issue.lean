/-
**Issues.**

An issue is what is wrong with one place of a value: the way to the place, what is wrong, and the
value found there. What is wrong has a name and a text.

* `Issue`, `IssueKind`: the parts of an issue;
* `Issue.under`: an issue seen from further outside.
-/

import Splice.Value

namespace Splice

/-- A step from a value to a part of it. -/
inductive PathItem where
  | name (name : String)
  | index (index : Nat)
  deriving DecidableEq, Repr

/-- What is wrong with a value: its name and its text. -/
structure IssueKind where
  code : String
  message : Text
  deriving DecidableEq, Repr

/-- What is wrong with one place of a value. -/
structure Issue where
  path : List PathItem
  kind : IssueKind
  input : Value

/-- The issue seen from a value that has the examined one at a step. -/
def Issue.under (item : PathItem) (issue : Issue) : Issue :=
  { issue with path := item :: issue.path }

end Splice
