/-
**Failures.**

Everything that can go wrong with an operation on a text and its edits.

* `Failure`: the causes;
* `Failure.message`: the text of a failure;
* `Failure.outside`: a range that does not lie in its text, as long as its offsets can be written.
-/

import Splice.Encoding.Codec
import Splice.Plan
import Splice.Script.Entry

namespace Splice

/-- Why an operation fails. -/
inductive Failure where
  | range (span : Span) (size : Nat)
  | overlap (clash : Clash)
  | render (fault : RenderFault)
  | charsetName (fault : Charset.NameFault)
  | unencodable (fault : Codec.Fault)
  | undecodable (fault : Utf8.Fault)
  | sink (message : Text)
  | script (fault : Script.Fault)
  | invalid (issues : List Issue)
  | tooManyDigits

namespace Failure

/-- A range that does not lie in a text. Reporting it writes its offsets, which fails when one of
them has too many digits. -/
def outside (span : Span) (size : Nat) : Failure :=
  if writable span.start && writable span.stop then .range span size else .tooManyDigits

/-- The text of a failure. -/
def message [Schema] : Failure → Text
  | .range span size =>
    Text.concat ["Range [", Text.decimal span.start, ", ", Text.decimal span.stop,
      ") is outside the original text (length ", Text.digits 10 size, ")"]
  | .overlap clash => clash.message
  | .render fault => fault.message
  | .charsetName fault => fault.message
  | .unencodable fault => fault.message
  | .undecodable fault => fault.message
  | .sink message => message
  | .script fault => fault.message
  | .invalid issues => Schema.report "" issues
  | .tooManyDigits => Text.tooLong

end Failure

end Splice
