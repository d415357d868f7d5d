/-
**The encoding of the output.**

A text can be written to the output as a whole or piece by piece. Piece by piece every chunk is
written in the encoding that was asked for. As a whole the text is written as the console prints it, whatever
the encoding: its name is only looked up. So the two ways differ in when they go through, and where both
do on a console of UTF-8, the octets are the same just when there are none or the encoding writes the text as
UTF-8 does.

* `Codec.octetsUpTo`: the octets of texts up to the first one that cannot be encoded;
* `Command.streamToOutput_output`: the chunks that come to the output piece by piece;
* `run_printed`: two runs that differ in nothing but the way of writing;
* `run_printed_ne`: a letter that comes out in one octet, and in two.
-/

import Mathlib
import Splice.Proofs.BesideUtf8
import Splice.Proofs.Emptied

namespace Splice

/-! ### Octets up to a failure -/

namespace Codec

/-- The octets of texts, each on its own, up to the first text for which there are none. -/
def octetsUpTo (codec : Codec) : List Text → Bytes
  | [] => []
  | text :: rest =>
    match codec.encode text with
    | .ok row => row ++ codec.octetsUpTo rest
    | .error _ => []

variable {codec : Codec} {texts back : List Text} {text : Text} {rows : List Bytes}

theorem octetsUpTo_append (encoded : codec.Encodes texts rows) (back : List Text) :
    codec.octetsUpTo (texts ++ back) = rows.flatten ++ codec.octetsUpTo back := by
  induction encoded with
  | nil => rfl
  | cons here _ ih =>
    rw [List.cons_append, octetsUpTo, here, ih, List.flatten_cons, List.append_assoc]

theorem octetsUpTo_of_encodes (encoded : codec.Encodes texts rows) :
    codec.octetsUpTo texts = rows.flatten := by
  have whole := octetsUpTo_append encoded []
  rw [List.append_nil] at whole
  rw [whole, octetsUpTo, List.append_nil]

theorem octetsUpTo_of_fails {fault : Codec.Fault} (encoded : codec.Encodes texts rows)
    (fails : codec.encode text = .error fault) :
    codec.octetsUpTo (texts ++ text :: back) = rows.flatten := by
  rw [octetsUpTo_append encoded, octetsUpTo, fails, List.append_nil]

end Codec

namespace Command

section Output

variable [Runtime] {tree : Tree} {source operand : Operand} {options : ApplyOptions} {label : Text}
  {codec : Codec} {draft : Draft} {context : Context} {notices : List Notice}

/-- **What comes to the output piece by piece**: the chunks in front of the first one that cannot be encoded,
or in front of a replacement that fails. -/
theorem streamToOutput_output (found : Codecs.named label = .ok (.codec codec)) :
    (streamToOutput tree notices draft context label).output =
        codec.octetsUpTo (draft.chunks context []) ∧
      (streamToOutput tree notices draft context label).tree = tree := by
  have marks : taken (draft.deliver context (some label) .accepting []).marks =
      codec.octetsUpTo (draft.chunks context []) := by
    rcases codec.encodes_or_fails (draft.chunks context []) with
      ⟨rows, encoded⟩ | ⟨front, chunk, back, rows, fault, parts, encoded, fails⟩
    · have whole := Draft.deliverTo_of_encodes accepting_blocking found encoded
      rw [Codec.octetsUpTo_of_encodes encoded, ← taken_marksOf (.blocking .accepting)]
      exact congrArg (fun delivery : Delivery => taken delivery.marks) whole
    · have stopped := (Draft.deliverTo_of_fails accepting_blocking found parts encoded fails).2
      rw [parts, Codec.octetsUpTo_of_fails encoded fails, ← taken_marksOf (.blocking .accepting)]
      exact congrArg taken stopped
  unfold streamToOutput
  dsimp only
  split
  · exact ⟨marks, rfl⟩
  · exact ⟨marks, rfl⟩

/-- A command that is not prepared with the encoding it names halts, and has written nothing. -/
theorem apply_of_unready (labelled : options.encoding = some label)
    (found : Codecs.named label = .ok (.codec codec))
    (unready : ∀ draft context, ¬ Prepared tree source operand options draft context label) :
    ∃ notices halt, apply tree source operand options = halted notices halt [] tree := by
  refine apply_of_unprepared fun draft context encoding prepared => ?_
  obtain rfl := prepared.encoding_eq labelled found
  exact unready draft context prepared

theorem writeToOutput_tree : (writeToOutput tree notices draft context).tree = tree := by
  by_cases through : (writeToOutput tree notices draft context).ending = .exit 0
  · obtain ⟨octets, -, delivers⟩ := writeToOutput_writes.exists_delivers through
    exact delivers.2.2
  · exact (writeToOutput_failing through).2

variable (toOutput : options.output = none) (labelled : options.encoding = some label)
  (found : Codecs.named label = .ok (.codec codec))

include toOutput

theorem apply_streamed
    (prepared : Prepared tree source operand options draft context label) :
    ∃ notices, apply tree source operand { options with stream := true } =
      streamToOutput tree notices draft context label := by
  obtain ⟨events, same⟩ := apply_of_prepared (prepared.withStream true)
  refine ⟨noted events, same.trans ?_⟩
  show emit tree (noted events) draft context label options.output true = _
  rw [toOutput]
  rfl

theorem apply_whole
    (prepared : Prepared tree source operand options draft context label) :
    ∃ notices, apply tree source operand { options with stream := false } =
      writeToOutput tree notices draft context := by
  obtain ⟨events, same⟩ := apply_of_prepared (prepared.withStream false)
  refine ⟨noted events, same.trans ?_⟩
  show emit tree (noted events) draft context label options.output false = _
  rw [toOutput]
  rfl

include labelled found in
/-- A command without a file leaves all files as they were. -/
theorem apply_tree : (apply tree source operand options).tree = tree := by
  by_cases ready : ∃ draft context, Prepared tree source operand options draft context label
  · obtain ⟨draft, context, prepared⟩ := ready
    obtain ⟨notices, same⟩ := apply_of_prepared prepared
    rw [same, toOutput]
    cases options.stream with
    | true => exact (streamToOutput_output found).2
    | false => exact writeToOutput_tree
  · simp only [not_exists] at ready
    obtain ⟨notices, halt, same⟩ := apply_of_unready labelled found ready
    rw [same]
    rfl

/-! ### A console of UTF-8 -/

section Utf8

omit toOutput

variable (utf8 : Console.IsUtf8)

include utf8

/-- **A text as a whole on a console of UTF-8** is written in UTF-8, if UTF-8 covers it. -/
theorem writeToOutput_utf8 :
    ((writeToOutput tree notices draft context).ending = .exit 0 ↔ draft.Encodable context .utf8) ∧
      ((writeToOutput tree notices draft context).ending = .exit 0 →
        (writeToOutput tree notices draft context).output =
          Charset.utf8.row (draft.chunks context []).flatten) := by
  have writes : (writeToOutput tree notices draft context).Writes tree none
      (draft.EncodesTo context Console.print) := writeToOutput_writes
  refine ⟨writes.through_iff.trans ⟨?_, fun encodable => ?_⟩, fun through => ?_⟩
  · rintro ⟨octets, encodes⟩
    exact ((Draft.prints_iff utf8).mp encodes).1
  · exact ⟨_, (Draft.prints_iff utf8).mpr ⟨encodable, rfl⟩⟩
  · obtain ⟨octets, encodes⟩ := writes.through_iff.mp through
    have written : (writeToOutput tree notices draft context).output = octets :=
      (writes.delivers octets encodes).2.1
    exact written.trans ((Draft.prints_iff utf8).mp encodes).2

/-- **Both ways with a well-known encoding**, of a draft none of whose chunks is empty. -/
theorem outputs_charset {charset : Charset} {notices' : List Notice}
    (known : Charset.named label = .ok (.charset charset)) (filled : [] ∉ draft.chunks context [])
    (through : (streamToOutput tree notices draft context label).ending = .exit 0) :
    let chunks := draft.chunks context []
    let encoded := charset.mark ++ charset.row chunks.flatten
    let streamed := streamToOutput tree notices draft context label
    let whole := writeToOutput tree notices' draft context
    whole.ending = .exit 0 ∧
      (streamed.output = encoded ↔ charset.mark = [] ∨ chunks.length = 1) ∧
      (whole.output = encoded ↔ charset.PassesAsUtf8 chunks.flatten) ∧
      (streamed.output = whole.output ↔ chunks.flatten = [] ∨ charset.PassesAsUtf8 chunks.flatten) := by
  intro chunks encoded streamed whole
  have streams : streamed.Writes tree none (draft.StreamsTo context charset.codec) :=
    streamToOutput_writes (Codecs.named_charset known)
  have writes : whole.Writes tree none (draft.EncodesTo context Console.print) := writeToOutput_writes
  obtain ⟨octets, piecemeal⟩ := streams.through_iff.mp through
  obtain ⟨⟨text, rendered, covered⟩, rfl⟩ := Draft.streamsTo_charset_iff.mp piecemeal
  have encodes := (Draft.prints_iff utf8).mpr ⟨⟨text, rendered, covered.utf8⟩, rfl⟩
  obtain ⟨-, streamed', -⟩ := streams.delivers _ piecemeal
  obtain ⟨ending, whole', -⟩ := writes.delivers _ encodes
  obtain rfl := Draft.render_eq_chunks _ _ _ _ rendered
  have none_iff : chunks = [] ↔ chunks.flatten = [] := by
    refine ⟨fun none => by rw [none, List.flatten_nil], fun empty => ?_⟩
    refine List.eq_nil_iff_forall_not_mem.mpr fun chunk member => ?_
    rw [List.flatten_eq_nil_iff.mp empty chunk member] at member
    exact filled member
  refine ⟨ending, ?_, ?_, ?_⟩
  · rw [streamed']
    exact Charset.marked_eq_iff
  · rw [whole']
    exact eq_comm.trans (Charset.marked_eq_row_iff covered)
  · rw [streamed', whole']
    exact (Charset.flatMap_marked_eq_row_iff covered).trans (or_congr_left none_iff)

end Utf8

end Output

end Command

/-- **The encoding of the output.** Let two command lines ask for the same, to apply a script and to
write to the output with the name of an encoding, one piece by piece and the other as a whole. Neither
run changes a file, and a run that is not prepared writes nothing. If they are prepared, then

* piece by piece, the chunks up to the first one that cannot be encoded are written, each in the encoding,
  and the run goes through just when each of them can be encoded and the text has all of its replacements;
  with an encoding that works piece by piece, this is the text in the encoding;
* as a whole, the text is written as the console prints it, whatever the encoding is, or nothing is;
* on a console of UTF-8, the latter is the text in UTF-8, and goes through just when UTF-8 covers the text;
* on a console of UTF-8, with a well-known encoding, whenever the first run goes through, the second one does,
  and then the first has written the text in the encoding just when the encoding has no mark or there is one
  chunk, the second has just when the encoding writes the text as UTF-8 does, and the two have written the
  same just when this holds or there is no text. -/
theorem run_printed [Runtime] {world : World} {streamedLine wholeLine : List Text}
    {verbose verbose' : Bool} {source operand : Operand} {options : ApplyOptions} {label : Text}
    {codec : Codec}
    (askedStreamed : Request.read streamedLine =
      .request verbose (.apply source operand { options with stream := true }))
    (askedWhole : Request.read wholeLine =
      .request verbose' (.apply source operand { options with stream := false }))
    (toOutput : options.output = none) (labelled : options.encoding = some label)
    (found : Codecs.named label = .ok (.codec codec)) :
    let streamed := (run world streamedLine).2
    let whole := (run world wholeLine).2
    let Ready := Command.Prepared world.tree source operand options
    streamed.tree = world.tree ∧ whole.tree = world.tree ∧
    ((∀ draft context, ¬ Ready draft context label) →
      streamed.ending ≠ .exit 0 ∧ streamed.output = [] ∧
      whole.ending ≠ .exit 0 ∧ whole.output = []) ∧
    ∀ draft context, Ready draft context label →
      let chunks := draft.chunks context []
      (streamed.ending = .exit 0 ↔ ∃ octets, draft.StreamsTo context codec octets) ∧
      streamed.output = codec.octetsUpTo chunks ∧
      (codec.Piecewise → ∀ octets, draft.EncodesTo context codec.store octets →
        streamed.ending = .exit 0 ∧ streamed.output = octets) ∧
      (whole.ending = .exit 0 ↔ ∃ octets, draft.EncodesTo context Console.print octets) ∧
      (∀ octets, draft.EncodesTo context Console.print octets → whole.output = octets) ∧
      (whole.ending ≠ .exit 0 → whole.output = []) ∧
      (Console.IsUtf8 →
        (whole.ending = .exit 0 ↔ draft.Encodable context .utf8) ∧
        (whole.ending = .exit 0 → whole.output = Charset.utf8.row chunks.flatten) ∧
        ∀ charset, Charset.named label = .ok (.charset charset) → streamed.ending = .exit 0 →
          let encoded := charset.mark ++ charset.row chunks.flatten
          whole.ending = .exit 0 ∧
          (streamed.output = encoded ↔ charset.mark = [] ∨ chunks.length = 1) ∧
          (whole.output = encoded ↔ charset.PassesAsUtf8 chunks.flatten) ∧
          (streamed.output = whole.output ↔
            chunks.flatten = [] ∨ charset.PassesAsUtf8 chunks.flatten)) := by
  intro streamed whole Ready
  have applied : streamed =
      Command.apply world.tree source operand { options with stream := true } :=
    run_of_apply askedStreamed
  have applied' : whole =
      Command.apply world.tree source operand { options with stream := false } :=
    run_of_apply askedWhole
  refine ⟨?_, ?_, fun unready => ?_, fun draft context prepared => ?_⟩
  · rw [applied]
    exact Command.apply_tree toOutput labelled found
  · rw [applied']
    exact Command.apply_tree toOutput labelled found
  · have halts (stream : Bool) : ∃ notices halt,
        Command.apply world.tree source operand { options with stream } =
          Command.halted notices halt [] world.tree :=
      Command.apply_of_unready labelled found fun draft context prepared =>
        unready draft context (prepared.withStream options.stream)
    obtain ⟨notices, halt, same⟩ := halts true
    obtain ⟨notices', halt', same'⟩ := halts false
    rw [applied, applied', same, same']
    exact ⟨halt.ending_ne, rfl, halt'.ending_ne, rfl⟩
  · obtain ⟨notices, same⟩ := Command.apply_streamed toOutput prepared
    obtain ⟨notices', same'⟩ := Command.apply_whole toOutput prepared
    intro chunks
    rw [applied, applied', same, same']
    have streams : (Command.streamToOutput world.tree notices draft context label).Writes world.tree
        none (draft.StreamsTo context codec) := Command.streamToOutput_writes found
    have writes : (Command.writeToOutput world.tree notices' draft context).Writes world.tree
        none (draft.EncodesTo context Console.print) := Command.writeToOutput_writes
    refine ⟨streams.through_iff, (Command.streamToOutput_output found).1, fun piecewise octets encodes => ?_,
      writes.through_iff, fun octets encodes => (writes.delivers octets encodes).2.1,
      fun failed => (Command.writeToOutput_failing failed).1,
      fun utf8 => ⟨?_, ?_, fun charset known through => ?_⟩⟩
    · have whole := (Draft.yields_iff_of_piecewise piecewise true).mpr encodes
      exact ⟨(streams.delivers octets whole).1, (streams.delivers octets whole).2.1⟩
    · exact (Command.writeToOutput_utf8 utf8).1
    · exact (Command.writeToOutput_utf8 utf8).2
    · obtain ⟨chars, script, -, -, within, rfl⟩ := Command.draftOf_ok_iff.mp prepared.drafted
      have filled : [] ∉ chunks := Draft.chunks_ne_nil (Script.within_draftOver within)
      exact Command.outputs_charset utf8 known filled through

/-- A letter that is not ASCII, and a script without entries. -/
def letterTree : Tree :=
  [([Charset.utf8.row "s.txt"], .file (Charset.utf8.row "é")),
    ([Charset.utf8.row "e.json"], .file (Charset.utf8.row "[]"))]

/-- A command line that writes to the output as a whole with the name of an encoding. -/
def printedLine (label : Text) : List Text := ["apply", "s.txt", "e.json", "--encoding", label]

/-- What the command line asks for, beside the two files. -/
def printedOptions (label : Text) (stream : Bool) : ApplyOptions := ⟨none, stream, some label, []⟩

theorem run_printed_latin1 :
    (run ⟨letterTree, none⟩ ((printedLine "latin-1").concat "--stream")).2.ending = .exit 0 ∧
      (run ⟨letterTree, none⟩ (printedLine "latin-1")).2.ending = .exit 0 ∧
      ∃ draft context, Command.Prepared letterTree (some ⟨[], ["s.txt"]⟩) (some ⟨[], ["e.json"]⟩)
          (printedOptions "latin-1" true) draft context "latin-1" ∧
        ¬ Charset.latin1.PassesAsUtf8 (draft.chunks context []).flatten := by
  have askedStreamed : Request.read ((printedLine "latin-1").concat "--stream") = .request false
      (.apply (some ⟨[], ["s.txt"]⟩) (some ⟨[], ["e.json"]⟩) (printedOptions "latin-1" true)) := by
    decide +kernel
  have askedWhole : Request.read (printedLine "latin-1") = .request false
      (.apply (some ⟨[], ["s.txt"]⟩) (some ⟨[], ["e.json"]⟩) (printedOptions "latin-1" false)) := by
    decide +kernel
  have through : (run ⟨letterTree, none⟩ ((printedLine "latin-1").concat "--stream")).2.ending =
      .exit 0 := by
    decide +kernel
  have differ : (run ⟨letterTree, none⟩ ((printedLine "latin-1").concat "--stream")).2.output ≠
      (run ⟨letterTree, none⟩ (printedLine "latin-1")).2.output := by
    decide +kernel
  have known : Charset.named "latin-1" = .ok (.charset .latin1) := rfl
  obtain ⟨-, -, unready, ready⟩ := @run_printed _ ⟨letterTree, none⟩ _ _ _ _ _ _
    (printedOptions "latin-1" true) _ _ askedStreamed askedWhole rfl rfl (Codecs.named_charset known)
  by_cases prepared : ∃ draft context, Command.Prepared letterTree (some ⟨[], ["s.txt"]⟩)
      (some ⟨[], ["e.json"]⟩) (printedOptions "latin-1" true) draft context "latin-1"
  · obtain ⟨draft, context, prepared⟩ := prepared
    obtain ⟨-, -, -, -, -, -, utf8⟩ := ready draft context prepared
    obtain ⟨ending, -, -, same⟩ := (utf8 fun _ => rfl).2.2 _ known through
    exact ⟨through, ending, draft, context, prepared, fun passes => differ (same.mpr (Or.inr passes))⟩
  · simp only [not_exists] at prepared
    exact ((unready prepared).1 through).elim

/-- **A letter in two octets**, which has one in the encoding that the command line names and has one
when it is written piece by piece. -/
theorem run_printed_ne :
    Charset.named "latin-1" = .ok (.charset .latin1) ∧
      Charset.latin1.encode "é" = .ok [0xE9] ∧
      (run ⟨letterTree, none⟩ ((printedLine "latin-1").concat "--stream")).2.output = [0xE9] ∧
      (run ⟨letterTree, none⟩ (printedLine "latin-1")).2.ending = .exit 0 ∧
      (run ⟨letterTree, none⟩ (printedLine "latin-1")).2.output = [0xC3, 0xA9] := by
  decide +kernel

end Splice
