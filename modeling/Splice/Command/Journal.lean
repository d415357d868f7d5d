/-
**The journal.**

Events are reported on the error stream, one line each, when their level reaches the threshold. The
threshold is named by a word in any case; a word that names none, and the absence of one, stand for
warnings, which no event reaches.

How events are written is a matter of the library that writes them, and a parameter.

* `Threshold.named`: the threshold of a word;
* `Journal`: which events are reported, and as what lines.
-/

import Splice.Event

namespace Splice

/-- The least severity that is reported. -/
abbrev Threshold := Nat

/-- The severity of events of a level. -/
def EventLevel.severity : EventLevel → Nat
  | .debug => 10
  | .info => 20

/-- The name of a level. -/
def EventLevel.word : EventLevel → String
  | .debug => "debug"
  | .info => "info"

namespace Threshold

/-- The words for thresholds. -/
def words : List (String × Threshold) :=
  [("CRITICAL", 50), ("FATAL", 50), ("ERROR", 40), ("WARN", 30), ("WARNING", 30), ("INFO", 20),
    ("DEBUG", 10), ("NOTSET", 0)]

/-- The threshold of warnings. -/
def warnings : Threshold := 30

/-- The threshold that lets every detail through. -/
def details : Threshold := 10

/-- A code point in upper case, as far as it can become an ASCII letter. -/
def raised : CodePoint → CodePoint
  | .scalar 'ı' => .scalar 'I'
  | .scalar 'ſ' => .scalar 'S'
  | .scalar char => .scalar char.toUpper
  | point => point

/-- The threshold of a word. -/
def named (word : Text) : Threshold :=
  let word := word.map raised
  ((words.find? fun (name, _) => Text.ofString name = word).map (·.2)).getD warnings

end Threshold

/-- What the journal does with events: whether one of a level is reported, and the line of an event, given
a stamp of the time. An event is reported when its severity reaches the threshold. -/
class Journal where
  admits : Threshold → EventLevel → Bool
  line : Text → Event → Text
  admits_iff (threshold : Threshold) (level : EventLevel) :
    admits threshold level = true ↔ threshold ≤ level.severity

end Splice
