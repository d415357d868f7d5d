/-
**The standard journal.**

An event is reported as a record in one line: its parts, its title, its level, and a stamp of the time.

* `Event.line`: the line of an event;
* `Threshold.admits`: whether events of a level are reported;
* `Standard.journal`: the journal.
-/

import Splice.Command.Journal
import Splice.Json.Writer

namespace Splice

/-- The line of an event. -/
def Event.line (stamp : Text) (event : Event) : Text :=
  Json.write (.record (event.fields ++
    [(Text.ofString "event", .text (Text.ofString event.title)),
      (Text.ofString "level", .text (Text.ofString event.level.word)),
      (Text.ofString "timestamp", .text stamp)]))

/-- Whether events of a level are reported. -/
def Threshold.admits (threshold : Threshold) (level : EventLevel) : Bool := threshold ≤ level.severity

/-- The standard journal. -/
abbrev Standard.journal : Journal where
  admits := Threshold.admits
  line := Event.line
  admits_iff _ _ := by simp [Threshold.admits]

end Splice
