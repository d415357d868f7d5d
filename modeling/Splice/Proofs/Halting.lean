/-
**What stops a command.**

A command that goes no further says so in a message that begins with a fixed word, or it breaks down
without a message. Once the text is to be written, only three things can stop it: a replacement has no
text, the encoding has no octets for the text, or the file cannot be opened (`Command.Stops`). Which of
them comes first depends on the way of writing: a file is opened before the first chunk is rendered
when the text is written piece by piece, and after the whole text is rendered otherwise.

* `Command.shown_of_ascii`: a text of ASCII, such as a listing of edits, can be shown;
* `Command.Halt.Says`: a halt has a message with the fixed word, or breaks down;
* `Command.emit_ends`, `Command.emit_of_stops`: writing comes to its end or is stopped, and by what;
* `Failure.OfScript`: what can fail in writing the text of a script, with how its message begins.
-/

import Mathlib
import Splice.Proofs.Applying
import Splice.Proofs.Lexemes

namespace Splice

/-! ### Failures of scripts -/

/-- The template of an entry has no text: it cannot be expanded, or something in it does not fit. -/
inductive RenderFault.OfTemplate : RenderFault → Prop
  | template (source : Text) (fault : Template.Fault) : OfTemplate (.template source fault)
  | unwrapped (fault : Template.Fault) (unlisted : fault.kind.isListed = false) :
      OfTemplate (.unwrapped fault)

/-- A text cannot be encoded: its encoding is no encoding of texts, or has no octets for it. -/
inductive Failure.OfEncoding : Failure → Prop
  | charsetName (fault : Charset.NameFault) : OfEncoding (.charsetName fault)
  | unencodable (fault : Codec.Fault) : OfEncoding (.unencodable fault)

/-- What can fail in writing the text of a script: a template, or the encoding. -/
inductive Failure.OfScript : Failure → Prop
  | render {fault : RenderFault} (ofTemplate : fault.OfTemplate) : OfScript (.render fault)
  | encoding {failure : Failure} (ofEncoding : failure.OfEncoding) : OfScript failure

theorem Replacement.ofTemplate_of_expanded [Objects] [Limits] {source replaced : Text} {context : Context}
    {fault : RenderFault} (failed : expanded source replaced context = .error fault) :
    fault.OfTemplate := by
  unfold expanded at failed
  split at failed
  · cases failed
  · rename_i cause _
    split_ifs at failed with listed
    · obtain rfl := Except.error.inj failed
      exact .template source cause
    · obtain rfl := Except.error.inj failed
      exact .unwrapped cause (Bool.not_eq_true _ ▸ listed)

theorem ofEncoding_of_chunkOf [Codecs] {encoding : Option Text} {text : Text} {failure : Failure}
    (failed : chunkOf encoding text = .error failure) : failure.OfEncoding := by
  unfold chunkOf at failed
  split at failed
  · cases failed
  · cases failed
  · split at failed
    · obtain rfl := Except.error.inj failed
      exact .charsetName _
    · split at failed
      · obtain rfl := Except.error.inj failed
        exact .unencodable _
      · cases failed

theorem ofEncoding_of_fileOctets [Runtime] {label text : Text} {failure : Failure}
    (failed : Command.fileOctets label text = .error failure) : failure.OfEncoding := by
  unfold Command.fileOctets at failed
  split at failed
  · obtain rfl := Except.error.inj failed
    exact .charsetName _
  · split at failed
    · obtain rfl := Except.error.inj failed
      exact .unencodable _
    · cases failed

/-- **A delivery to a sink that takes everything** takes all chunks, and ends as the rendering of one
text does, or fails at a chunk that cannot be encoded. -/
theorem Draft.deliver_takes_or_fails [Codecs] {draft : Draft} {kept : List Edit}
    (planned : draft.plan.result = .ok kept) (context : Context) (encoding : Option Text)
    (history : History) :
    let delivery := draft.deliver context encoding .accepting history
    (∃ written, (Outlet.blocking .accepting).Takes encoding 0 (draft.chunks context history) written ∧
        delivery.marks = written.flatMap (Outlet.blocking .accepting).marksOf ∧
        delivery.result = (draft.render context history).result.map
          fun _ => (draft.chunks context history).length) ∨
      ∃ chunk ∈ draft.chunks context history, ∃ failure, chunkOf encoding chunk = .error failure ∧
        delivery.result = .error failure := by
  intro delivery
  have chunks_eq : draft.chunks context history =
      (draft.courseOver context history kept).portions.map Portion.text := by
    unfold Draft.chunks
    rw [planned]
  rcases (Outlet.blocking .accepting).takes_or_fails encoding 0
    (draft.courseOver context history kept).portions with
    ⟨written, takes⟩ | ⟨front, portion, back, written, parts, takes, fails⟩
  · have whole := deliverTo_of_takes planned takes
    refine Or.inl ⟨written, chunks_eq ▸ takes, congrArg Delivery.marks whole, ?_⟩
    rw [render_eq_course planned, chunks_eq, List.length_map, Course.map_outcome]
    exact congrArg Delivery.result whole
  · rw [Nat.zero_add] at fails
    cases encoded : chunkOf encoding portion.text with
    | ok chunk =>
      exact (fails (congrArg Taking.failure (Outlet.take_of_complete encoded rfl rfl))).elim
    | error failure =>
      have stopped := deliverTo_of_failed planned parts takes (Outlet.take_of_unencodable encoded)
      refine Or.inr ⟨portion.text, ?_, failure, encoded, congrArg Delivery.result stopped⟩
      rw [chunks_eq, parts, List.map_append, List.map_cons]
      exact List.mem_append_right _ List.mem_cons_self

namespace Script

variable [Objects] [Limits] {script : Script} {text : Text} {context : Context} {history : History}
  {failure : Failure}

/-- The replacements of a script fail as templates do. -/
theorem ofTemplate_of_ask {edit : Edit} (member : edit ∈ (script.draftOver text).edits)
    {fault : RenderFault} (failed : edit.replacement.ask context history = .error fault) :
    fault.OfTemplate := by
  obtain ⟨registration, listed, order, rfl⟩ := Registration.exists_of_mem_edits member
  obtain ⟨entry, -, rfl⟩ := List.mem_map.mp listed
  have asked : (entry.registration text).replacement.ask context history = .error fault := failed
  unfold Entry.registration at asked
  dsimp only at asked
  split_ifs at asked
  · exact Replacement.ofTemplate_of_expanded asked
  · cases asked

variable {kept : List Edit} (planned : (script.draftOver text).plan.result = .ok kept)

include planned

/-- **A rendering of a script** whose edits have a plan fails as a template does. -/
theorem ofScript_of_render
    (failed : ((script.draftOver text).render context history).result = .error failure) :
    ∃ fault, failure = .render fault ∧ fault.OfTemplate := by
  have result := failed
  rw [Draft.render_result, planned] at result
  simp only at result
  cases answered : answers context history kept with
  | ok texts =>
    rw [answered] at result
    cases result
  | error fault =>
    rw [answered] at result
    obtain rfl := Except.error.inj result
    obtain ⟨edit, member, history', asked⟩ := Draft.exists_fault_of_render failed
    exact ⟨fault, rfl, ofTemplate_of_ask member asked⟩

/-- **A delivery of a script** fails so too, or at its encoding. -/
theorem ofScript_of_deliver [Codecs] {encoding : Option Text}
    (failed : ((script.draftOver text).deliver context encoding .accepting history).result =
      .error failure) : failure.OfScript := by
  rcases Draft.deliver_takes_or_fails planned context encoding history with
    ⟨written, -, -, result⟩ | ⟨chunk, -, other, unencodable, result⟩
  · rw [failed] at result
    cases rendered : ((script.draftOver text).render context history).result with
    | ok whole =>
      rw [rendered] at result
      cases result
    | error other =>
      rw [rendered] at result
      obtain rfl := Except.error.inj result
      obtain ⟨fault, rfl, ofTemplate⟩ := ofScript_of_render planned rendered
      exact .render ofTemplate
  · rw [failed] at result
    obtain rfl := Except.error.inj result
    exact .encoding (ofEncoding_of_chunkOf unencodable)

end Script

/-! ### Showing -/

/-- A decimal digit is ASCII. -/
theorem Charset.isSome_ascii_of_isDigit {point : CodePoint} (digit : Json.isDigit point = true) :
    (ascii.octets? point).isSome = true := by
  unfold Json.isDigit CodePoint.asciiDigit? at digit
  dsimp only at digit
  split_ifs at digit with small
  · cases point with
    | surrogate index =>
      have number : (CodePoint.surrogate index).number = 0xD800 + index.val := rfl
      omega
    | scalar char => exact isSome_ascii_iff.mpr (Nat.lt_of_le_of_lt small.2 (by decide))
  · cases digit

theorem Charset.ascii_covers_decimal (number : Int) : ascii.Covers (Text.decimal number) := by
  intro point member
  unfold Text.decimal at member
  split_ifs at member
  · rcases List.mem_cons.mp member with rfl | digit
    · rfl
    · exact isSome_ascii_of_isDigit (Json.isDigit_of_mem_digits point digit)
  · exact isSome_ascii_of_isDigit (Json.isDigit_of_mem_digits point member)

namespace Command

/-- The edits that take effect, one in a line. -/
def listing (kept : List Edit) : Text := kept.flatMap fun edit => edit.summary ++ [.scalar '\n']

/-- A listing consists of ASCII. -/
theorem ascii_covers_listing (kept : List Edit) : Charset.ascii.Covers (listing kept) := by
  intro point member
  obtain ⟨edit, -, inside⟩ := List.mem_flatMap.mp member
  rcases List.mem_append.mp inside with summary | ending
  · unfold Edit.summary Text.concat at summary
    simp only [List.flatten_cons, List.flatten_nil, List.append_nil, List.mem_append] at summary
    have colon : Charset.ascii.Covers ": " := by decide
    have space : Charset.ascii.Covers " " := by decide
    rcases summary with number | mark | number | mark | number
    · exact Charset.ascii_covers_decimal _ point number
    · exact colon point mark
    · exact Charset.ascii_covers_decimal _ point number
    · exact space point mark
    · exact Charset.ascii_covers_decimal _ point number
  · obtain rfl := List.mem_singleton.mp ending
    rfl

/-- **A text of ASCII** is shown on every console. -/
theorem shown_of_ascii [Runtime] {text : Text} (plain : Charset.ascii.Covers text) (tree : Tree)
    (notices more : List Notice) :
    shown tree notices text more = ⟨.exit 0, Charset.ascii.row text, notices ++ more, tree⟩ := by
  have printed : Console.print text = .ok (Charset.ascii.row text) :=
    Console.print_of_ascii (Charset.encode_of_covers plain)
  unfold shown
  rw [printed]

end Command

/-! ### Messages -/

/-- How every message of a failure begins. -/
def alarm : Text := Text.ofString "Error"

theorem isSurrogate_ofChars {chars : List Char} {point : CodePoint}
    (member : point ∈ Text.ofChars chars) : point.isSurrogate = false := by
  obtain ⟨char, -, rfl⟩ := List.mem_map.mp member
  rfl

namespace Command

/-- A halt has a message that begins with the fixed word, or it breaks down. -/
def Halt.Says (halt : Halt) : Prop := ∀ text, halt = .message text → alarm <+: text

theorem says_errorLine (text : Text) : (errorLine text).Says := by
  rintro _ ⟨⟩
  exact ⟨Text.ofString ": " ++ text, rfl⟩

theorem says_breakdown (breakdown : Breakdown) : (Halt.breakdown breakdown).Says := nofun

theorem says_loadingHalt (name : PathName) (text : Text) : (loadingHalt name text).Says := by
  rintro _ ⟨⟩
  exact ⟨Text.concat [" loading edits from ", name.shown, ": ", text], rfl⟩

theorem says_haltOf [Runtime] (failure : Failure) : (haltOf failure).Says := by
  unfold haltOf
  split
  · split
    · exact says_errorLine _
    · exact says_breakdown _
  · exact says_errorLine _

theorem says_openingHalt (fault : FileFault) (name : PathName) : (openingHalt fault name).Says := by
  unfold openingHalt
  split
  · exact says_errorLine _
  · exact says_breakdown _

/-- Only what does not fit in a template is no matter of a message, if its kind is none. -/
theorem haltOf_eq_breakdown_iff [Runtime] {failure : Failure} {breakdown : Breakdown} :
    haltOf failure = .breakdown breakdown ↔
      ∃ fault, failure = .render (.unwrapped fault) ∧ isReported fault.kind = false ∧
        breakdown = .failure failure := by
  unfold haltOf
  split
  · rename_i fault
    split
    · rename_i reported
      refine ⟨nofun, ?_⟩
      rintro ⟨_, ⟨⟩, unreported, -⟩
      rw [reported] at unreported
      cases unreported
    · rename_i unreported
      constructor
      · rintro ⟨⟩
        exact ⟨fault, rfl, Bool.not_eq_true _ ▸ unreported, rfl⟩
      · rintro ⟨_, -, -, rfl⟩
        rfl
  · rename_i other
    constructor
    · exact nofun
    · rintro ⟨fault, rfl, -⟩
      exact (other fault rfl).elim

theorem openingHalt_eq_breakdown_iff {fault : FileFault} {name : PathName} {breakdown : Breakdown} :
    openingHalt fault name = .breakdown breakdown ↔
      fault.ofName = false ∧ breakdown = .file fault name := by
  unfold openingHalt
  split
  · rename_i ofName
    rw [ofName]
    exact ⟨nofun, nofun⟩
  · rename_i free
    rw [Bool.not_eq_true] at free
    rw [and_iff_right free, Halt.breakdown.injEq]
    exact eq_comm

theorem Halt.ending_eq_broken_iff {halt : Halt} {breakdown : Breakdown} :
    halt.ending = .broken breakdown ↔ halt = .breakdown breakdown := by
  cases halt with
  | message text => exact ⟨nofun, nofun⟩
  | breakdown other =>
    show Ending.broken other = .broken breakdown ↔ _
    rw [Ending.broken.injEq, Halt.breakdown.injEq]

/-! ### Writing -/

section Writing

variable [Runtime]

/-- Why a command that has come to write goes no further. -/
inductive Stops (tree : Tree) (draft : Draft) (context : Context) (label : Text) :
    Option PathName → Bool → Halt → Prop
  | render {output : Option PathName} {failure : Failure}
      (failed : (draft.render context []).result = .error failure) :
      Stops tree draft context label output false (haltOf failure)
  | deliver {output : Option PathName} {failure : Failure}
      (opened : ∀ name, output = some name → tree.Writable name)
      (failed : (draft.deliver context (some label) .accepting []).result = .error failure) :
      Stops tree draft context label output true (haltOf failure)
  | encodeOutput {text : Text} {fault : Codec.Fault}
      (rendered : (draft.render context []).result = .ok text)
      (failed : Console.print text = .error fault) :
      Stops tree draft context label none false (haltOf (.unencodable fault))
  | encodeFile {name : PathName} {text : Text} {failure : Failure}
      (rendered : (draft.render context []).result = .ok text) (opened : tree.Writable name)
      (failed : fileOctets label text = .error failure) :
      Stops tree draft context label (some name) false (haltOf failure)
  | openFile {name : PathName} {stream : Bool} {fault : FileFault}
      (ready : stream = false → ∃ text, (draft.render context []).result = .ok text)
      (failed : tree.writeFile name [] = .error fault) :
      Stops tree draft context label (some name) stream (openingHalt fault name)

/-- What is said when a file has been written. -/
def savedNotices : Option PathName → List Notice
  | none => []
  | some name => [line (Text.ofString "✅ Saved to " ++ name.shown)]

variable {tree : Tree} {notices : List Notice} {draft : Draft} {context : Context} {label : Text}
  {output : Option PathName} {stream : Bool}

/-- The outcome goes through with some events and a last notice, or a halt that stops it comes behind
the events. -/
def Ends (outcome : Outcome) (notices last : List Notice) (stops : Halt → Prop) : Prop :=
  ∃ events, (outcome.ending = .exit 0 ∧ outcome.notices = notices ++ noted events ++ last) ∨
    ∃ halt, stops halt ∧ outcome.ending = halt.ending ∧
      outcome.notices = notices ++ noted events ++ halt.notices

theorem streamToFile_ends {name : PathName} :
    Ends (streamToFile tree notices draft context label name) notices (savedNotices (some name))
      (Stops tree draft context label (some name) true) := by
  unfold streamToFile
  split
  · rename_i fault failed
    refine ⟨[], Or.inr ⟨_, .openFile nofun failed, rfl, ?_⟩⟩
    rw [noted, List.map_nil, List.append_nil]
    rfl
  · rename_i emptied opened
    dsimp only
    split
    · rename_i failure failed
      have writable : ∀ name', some name = some name' → tree.Writable name' := by
        rintro _ ⟨⟩
        exact ⟨emptied, opened⟩
      exact ⟨_, Or.inr ⟨_, .deliver writable failed, rfl, rfl⟩⟩
    · exact ⟨_, Or.inl ⟨rfl, rfl⟩⟩

theorem writeToFile_ends {name : PathName} :
    Ends (writeToFile tree notices draft context label name) notices (savedNotices (some name))
      (Stops tree draft context label (some name) false) := by
  unfold writeToFile
  dsimp only
  split
  · rename_i failure failed
    exact ⟨_, Or.inr ⟨_, .render failed, rfl, rfl⟩⟩
  · rename_i text rendered
    split
    · rename_i fault failed
      exact ⟨_, Or.inr ⟨_, .openFile (fun _ => ⟨text, rendered⟩) failed, rfl, rfl⟩⟩
    · rename_i emptied opened
      split
      · rename_i failure failed
        exact ⟨_, Or.inr ⟨_, .encodeFile rendered ⟨emptied, opened⟩ failed, rfl, rfl⟩⟩
      · exact ⟨_, Or.inl ⟨rfl, rfl⟩⟩

theorem streamToOutput_ends :
    Ends (streamToOutput tree notices draft context label) notices []
      (Stops tree draft context label none true) := by
  unfold streamToOutput
  dsimp only
  split
  · rename_i failure failed
    exact ⟨_, Or.inr ⟨_, .deliver nofun failed, rfl, rfl⟩⟩
  · exact ⟨_, Or.inl ⟨rfl, (List.append_nil _).symm⟩⟩

theorem writeToOutput_ends :
    Ends (writeToOutput tree notices draft context) notices []
      (Stops tree draft context label none false) := by
  unfold writeToOutput
  dsimp only
  split
  · rename_i failure failed
    exact ⟨_, Or.inr ⟨_, .render failed, rfl, rfl⟩⟩
  · rename_i text rendered
    split
    · rename_i fault failed
      exact ⟨_, Or.inr ⟨_, .encodeOutput rendered failed, rfl, rfl⟩⟩
    · exact ⟨_, Or.inl ⟨rfl, (List.append_nil _).symm⟩⟩

/-- **Writing comes to its end or is stopped.** -/
theorem emit_ends : Ends (emit tree notices draft context label output stream) notices
    (savedNotices output) (Stops tree draft context label output stream) := by
  cases output with
  | none =>
    cases stream with
    | true => exact streamToOutput_ends
    | false => exact writeToOutput_ends
  | some name =>
    cases stream with
    | true => exact streamToFile_ends
    | false => exact writeToFile_ends

/-- **What stops writing** is how it ends. -/
theorem emit_of_stops {halt : Halt} (stops : Stops tree draft context label output stream halt) :
    (emit tree notices draft context label output stream).ending = halt.ending := by
  cases stops with
  | render failed =>
    cases output with
    | none =>
      simp only [emit, writeToOutput, failed]
      rfl
    | some name =>
      simp only [emit, writeToFile, failed]
      rfl
  | deliver opened failed =>
    cases output with
    | none =>
      simp only [emit, streamToOutput, failed]
      rfl
    | some name =>
      obtain ⟨emptied, opened⟩ := opened name rfl
      simp only [emit, streamToFile, opened, failed]
      rfl
  | encodeOutput rendered failed =>
    simp only [emit, writeToOutput, rendered, failed]
    rfl
  | encodeFile rendered opened failed =>
    obtain ⟨emptied, opened⟩ := opened
    simp only [emit, writeToFile, rendered, opened, failed]
    rfl
  | openFile ready failed =>
    cases stream with
    | true =>
      simp only [emit, streamToFile, failed]
      rfl
    | false =>
      obtain ⟨text, rendered⟩ := ready rfl
      simp only [emit, writeToFile, rendered, failed]
      rfl

end Writing

end Command

end Splice
