/-
**Events.**

What the program reports about its work, in the order in which it happens.

* `Event`: the events and their parts;
* `Event.level`, `Event.title`, `Event.fields`: how an event is reported;
* `Plan.events`: the events of a plan, one for each dropped edit.
-/

import Splice.Plan

namespace Splice

/-- The levels of events that occur. -/
inductive EventLevel where
  | debug
  | info
  deriving DecidableEq, Repr

/-- Something worth reporting. -/
inductive Event where
  | registered (edit : Edit)
  | loaded (count : Nat)
  | dropped (drop : Drop)
  | emitting (registered applied : Nat)

namespace Event

/-- The level of an event: dropped insertions and loaded scripts are more than details. -/
def level : Event → EventLevel
  | .registered _ | .emitting _ _ => .debug
  | .loaded _ => .info
  | .dropped drop => if drop.edit.isInsertion then .info else .debug

/-- The title of an event. -/
def title : Event → String
  | .registered _ => "Registered patch"
  | .loaded _ => "Registered edits"
  | .dropped drop =>
    if drop.edit.isInsertion then "Dropping insertion inside replacement"
    else "Dropping contained patch"
  | .emitting _ _ => "Emitting workspace"

/-- The parts of an event. -/
def fields : Event → Record
  | .registered edit =>
    [("order", .whole edit.order), ("start", .whole edit.start), ("end", .whole edit.stop)]
  | .loaded count => [("count", .whole count)]
  | .dropped drop => [("patch", .text drop.edit.tag), ("outer", .text drop.outer.tag)]
  | .emitting all kept => [("registered", .whole all), ("applied", .whole kept)]

end Event

/-- The events of a plan. -/
def Plan.events (plan : Plan) : List Event := plan.drops.map .dropped

end Splice
