/-
**Drafts.**

A draft is a text together with the edits registered for it, in the order of registration. Neither
is ever changed: adding an edit gives a new draft.

* `Draft.add`: a draft with one edit more, whose range must lie in the text;
* `Draft.nextOrder`: one more than every order in use, and one when none is;
* `Draft.read`: the part of the text in a range, whatever edits there are;
* `Draft.plan`: the edits that take effect.
-/

import Splice.Failure

namespace Splice

/-- A text and the edits registered for it. -/
structure Draft where
  text : Text
  edits : List Edit

namespace Draft

/-- A text without edits. -/
def ofText (text : Text) : Draft := ⟨text, []⟩

/-- One more than every order in use, and one when none is. -/
def nextOrder (draft : Draft) : Int := ((draft.edits.map Edit.order).max?.getD 0) + 1

/-- The draft with one edit more. -/
def add (draft : Draft) (edit : Edit) : Except Failure Draft :=
  if edit.span.within draft.text.length then .ok { draft with edits := draft.edits ++ [edit] }
  else .error (.outside edit.span draft.text.length)

/-- The part of the text in a range. -/
def read (draft : Draft) (start length : Int) : Except Failure Text :=
  let stop := start + length
  if start < 0 ∨ length < 0 ∨ (draft.text.length : Int) < stop then
    .error (.outside ⟨start, stop⟩ draft.text.length)
  else .ok (draft.text.slice start stop)

/-- The edits that take effect, and those that are dropped. -/
def plan (draft : Draft) : Plan := .ofEdits draft.edits

end Draft

end Splice
