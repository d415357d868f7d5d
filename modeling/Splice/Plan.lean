/-
**Plans.**

A plan settles which edits take effect. Edits are taken in order of precedence. One that begins
before the end of the replacement kept last is dropped when it is an insertion or lies inside it,
and clashes with it otherwise; every other edit is kept.

* `Plan.sweep`: the plan of edits that stand in order, behind the replacement kept last;
* `Plan.ofEdits`: the plan of edits in any order;
* `Drop`, `Clash`: an edit dropped because of a kept one, and two replacements that cross.
-/

import Splice.Edit

namespace Splice

/-- An edit that is dropped, and the kept replacement that it lies in. -/
structure Drop where
  edit : Edit
  outer : Edit

/-- Two replacements of which neither contains the other: the one kept, and the one that met it. -/
structure Clash where
  first : Edit
  second : Edit

/-- The text of a clash, in which the numbers of both edits are written. -/
def Clash.message (clash : Clash) : Text :=
  let shown (edit : Edit) : Text :=
    Text.concat ["[", Text.decimal edit.start, ", ", Text.decimal edit.stop, ") (order ",
      Text.decimal edit.order, ")"]
  Text.withNumbers (clash.second.numbers ++ clash.first.numbers)
    (Text.concat ["Patch ", shown clash.second, " partially overlaps patch ", shown clash.first])

/-- The edits that take effect, or the first clash, and the edits dropped on the way. -/
structure Plan where
  drops : List Drop
  result : Except Clash (List Edit)

namespace Plan

/-- A plan that keeps one more edit in front. -/
def keep (edit : Edit) (plan : Plan) : Plan := ⟨plan.drops, plan.result.map (edit :: ·)⟩

/-- A plan that drops one more edit in front. -/
def drop (edit outer : Edit) (plan : Plan) : Plan := ⟨⟨edit, outer⟩ :: plan.drops, plan.result⟩

/-- The replacement that an edit begins inside of, given the one kept last. -/
def obstacle? (last : Option Edit) (edit : Edit) : Option Edit :=
  last.filter fun outer => edit.start < outer.stop

/-- The plan of edits in order of precedence. -/
def sweep (last : Option Edit) : List Edit → Plan
  | [] => ⟨[], .ok []⟩
  | edit :: rest =>
    match obstacle? last edit with
    | some outer =>
      if edit.isInsertion || edit.stop ≤ outer.stop then drop edit outer (sweep last rest)
      else ⟨[], .error ⟨outer, edit⟩⟩
    | none => keep edit (sweep (if edit.isInsertion then last else some edit) rest)

/-- The plan of edits in any order. -/
def ofEdits (edits : List Edit) : Plan := sweep none (Edit.sorted edits)

end Plan

end Splice
