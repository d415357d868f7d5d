/-
**What applying a script comes to.**

Before anything is written, both files are read, the script is registered, the variables and the name
of the encoding are examined, and the plan is settled. A command that fails at any of this has written
nothing (`apply_of_unprepared`); one that has come through it (`Prepared`) writes in one of four ways
(`apply_of_prepared`). Each of these succeeds just when there are octets to be written, those of the text
as a whole or those of its chunks, and the file, if there is one, can be written.

* `draftOf_ok_iff`: the draft of two files;
* `Outcome.Delivers`: a run that has written octets to the output or to a file, and nothing else;
* `Draft.EncodesTo`, `Draft.StreamsTo`: the octets of the text as a whole, and those of its chunks;
* `writeToFile_writes`, `streamToFile_writes`, `writeToOutput_writes`, `streamToOutput_writes`: the
  four ways of writing.
-/

import Mathlib
import Splice.Proofs.Encoded
import Splice.Proofs.Files
import Splice.Proofs.Loading
import Splice.Proofs.Outcomes

namespace Splice

/-- A run that is asked to apply a script. -/
theorem run_of_apply [Runtime] {world : World} {arguments : List Text} {verbose : Bool}
    {source operand : Operand} {options : ApplyOptions}
    (asked : Request.read arguments = .request verbose (.apply source operand options)) :
    (run world arguments).2 = Command.apply world.tree source operand options := by
  unfold run
  rw [asked]

instance (ending : Ending) (code : Nat) : Decidable (ending = .exit code) :=
  match ending with
  | .exit other => decidable_of_iff (other = code) ⟨congrArg _, Ending.exit.inj⟩
  | .broken _ => isFalse nofun

/-! ### The two files -/

/-- The file of an operand holds characters in UTF-8. -/
def Tree.Spells (tree : Tree) (operand : Operand) (chars : List Char) : Prop :=
  ∃ name octets, operand = some name ∧ tree.readFile name = .ok octets ∧
    Utf8.decode octets = .ok chars

/-- The script is what the file of an operand spells, whatever its line ends are. -/
def Script.LoadsFrom [Schema] [Limits] (tree : Tree) (operand : Operand) (script : Script) : Prop :=
  ∃ chars, tree.Spells operand chars ∧
    Script.parse (Text.ofChars (Command.unifiedLines chars)) = .ok script

namespace Command

section Reading

variable [Runtime] {tree : Tree} {source operand : Operand} {name : PathName} {text : Text}
  {script : Script} {octets : Bytes}

omit [Runtime] in
/-- A file that is there. -/
theorem present_ok_iff {complaint : String} : present tree complaint operand = .ok name ↔
    operand = some name ∧ tree.leadsSomewhere name = .ok true := by
  unfold present
  cases operand with
  | none => exact ⟨nofun, nofun⟩
  | some other =>
    dsimp only
    constructor
    · intro found
      split at found
      · cases found
      · rename_i there
        obtain rfl := Except.ok.inj found
        exact ⟨rfl, there⟩
      · cases found
    · rintro ⟨⟨⟩, there⟩
      simp only [there]

omit [Runtime] in
theorem sourceText_ok_iff : sourceText tree name = .ok text ↔
    ∃ chars, tree.Spells (some name) chars ∧ text = Text.ofChars chars := by
  unfold sourceText
  constructor
  · intro found
    split at found
    · cases found
    · rename_i octets holds
      split at found
      · cases found
      · rename_i chars decodes
        exact ⟨chars, ⟨name, octets, rfl, holds, decodes⟩, (Except.ok.inj found).symm⟩
  · rintro ⟨chars, ⟨name, octets, ⟨⟩, holds, decodes⟩, rfl⟩
    simp only [holds, decodes]

theorem scriptOf_ok_iff : scriptOf tree name = .ok script ↔ script.LoadsFrom tree (some name) := by
  unfold scriptOf
  constructor
  · intro found
    split at found
    · cases found
    · rename_i octets holds
      split at found
      · cases found
      · rename_i chars decodes
        cases parses : Script.parse (Text.ofChars (unifiedLines chars)) with
        | error fault =>
          simp only [parses] at found
          split at found <;> cases found
        | ok other =>
          simp only [parses] at found
          obtain rfl := Except.ok.inj found
          exact ⟨chars, ⟨name, octets, rfl, holds, decodes⟩, parses⟩
  · rintro ⟨chars, ⟨name, octets, ⟨⟩, holds, decodes⟩, parses⟩
    simp only [holds, decodes, parses]

/-- **The two files of a command** give a text and a script. -/
theorem files_ok_iff {scriptName : PathName} :
    files tree source operand = .ok (text, scriptName, script) ↔
      (∃ chars, tree.Spells source chars ∧ text = Text.ofChars chars) ∧
        script.LoadsFrom tree operand ∧ operand = some scriptName := by
  unfold files
  simp only [bind_ok_iff]
  constructor
  · rintro ⟨name, found, name', found', text', reads, script', loads, same⟩
    cases same
    obtain ⟨rfl, -⟩ := present_ok_iff.mp found
    obtain ⟨rfl, -⟩ := present_ok_iff.mp found'
    exact ⟨sourceText_ok_iff.mp reads, scriptOf_ok_iff.mp loads, rfl⟩
  · rintro ⟨⟨chars, spells, rfl⟩, loads, rfl⟩
    obtain ⟨name, octets, rfl, holds, -⟩ := id spells
    obtain ⟨_, ⟨_, octets', ⟨⟩, holds', _⟩, _⟩ := id loads
    have there := Tree.leadsSomewhere_of_readFile holds
    have there' := Tree.leadsSomewhere_of_readFile holds'
    exact ⟨name, present_ok_iff.mpr ⟨rfl, there⟩, scriptName, present_ok_iff.mpr ⟨rfl, there'⟩, _,
      sourceText_ok_iff.mpr ⟨chars, spells, rfl⟩, script, scriptOf_ok_iff.mpr loads, rfl⟩

/-- **The draft of two files**: the text of the first with the edits of the second, all of whose
ranges lie in the text. -/
theorem draftOf_ok_iff {draft : Draft} : (draftOf tree source operand).result = .ok draft ↔
    ∃ chars, ∃ script : Script, tree.Spells source chars ∧ script.LoadsFrom tree operand ∧
      (∀ entry ∈ script, entry.span.within (Text.ofChars chars).length = true) ∧
      draft = script.draftOver (Text.ofChars chars) := by
  unfold draftOf
  constructor
  · intro drafted
    split at drafted
    · cases drafted
    · rename_i text name script found
      obtain ⟨⟨chars, spells, rfl⟩, loads, -⟩ := files_ok_iff.mp found
      dsimp only at drafted
      split at drafted
      · cases drafted
      · rename_i count loaded
        have within := (Session.load_ok_iff _ script).mp ⟨count, loaded⟩
        refine ⟨chars, script, spells, loads, within, ?_⟩
        rw [← Session.load_ofText_of_within within]
        exact (Except.ok.inj drafted).symm
  · rintro ⟨chars, script, spells, loads, within, rfl⟩
    obtain ⟨_, ⟨name, _, rfl, _⟩, _⟩ := id loads
    obtain ⟨count, loaded⟩ := (Session.load_ok_iff _ script).mpr within
    rw [files_ok_iff.mpr ⟨⟨chars, spells, rfl⟩, loads, rfl⟩]
    simp only [loaded, Session.load_ofText_of_within within]

/-! ### Before anything is written -/

section Preparation

variable {options : ApplyOptions} {draft : Draft} {context : Context} {encoding : Text}

/-- Everything that a command finds out before it writes. -/
structure Prepared (tree : Tree) (source operand : Operand) (options : ApplyOptions) (draft : Draft)
    (context : Context) (encoding : Text) : Prop where
  drafted : (draftOf tree source operand).result = .ok draft
  bound : contextOf options.bindings = .ok context
  known : encodingOf options.encoding = .ok encoding
  planned : ∃ kept, draft.plan.result = .ok kept

theorem encodingOf_eq {label : Text} {named : Codec.Named}
    (found : Codecs.named label = .ok named) : encodingOf (some label) = .ok label := by
  unfold encodingOf
  simp only [found]

/-- A prepared command has the encoding that its line names. -/
theorem Prepared.encoding_eq {label : Text} {named : Codec.Named}
    (prepared : Prepared tree source operand options draft context encoding)
    (labelled : options.encoding = some label) (found : Codecs.named label = .ok named) :
    encoding = label := by
  have known := prepared.known
  rw [labelled, encodingOf_eq found] at known
  exact (Except.ok.inj known).symm

omit [Runtime] in
theorem planOf_ok_iff {kept : List Edit} :
    (planOf draft).result = .ok kept ↔ draft.plan.result = .ok kept := by
  unfold planOf
  dsimp only
  split
  · rename_i clash refused
    rw [refused]
    exact ⟨nofun, nofun⟩
  · rename_i kept' planned
    rw [planned]
    exact ⟨fun same => congrArg _ (Except.ok.inj same), fun same => congrArg _ (Except.ok.inj same)⟩

/-- Nothing but events is reported before a command goes on or halts. -/
theorem draftOf_noted (tree : Tree) (source operand : Operand) :
    ∃ events, (draftOf tree source operand).notices = noted events := by
  unfold draftOf
  split
  · exact ⟨[], rfl⟩
  · dsimp only
    split
    · exact ⟨_, rfl⟩
    · exact ⟨_, rfl⟩

omit [Runtime] in
theorem planOf_noted (draft : Draft) : (planOf draft).notices = noted draft.plan.events := by
  unfold planOf
  dsimp only
  split
  · rfl
  · rfl

theorem drafting_noted (tree : Tree) (source operand : Operand) (draft : Draft) :
    ∃ events, (draftOf tree source operand).notices ++ (planOf draft).notices = noted events := by
  obtain ⟨events, same⟩ := draftOf_noted tree source operand
  exact ⟨events ++ draft.plan.events, by rw [same, planOf_noted, noted, noted, noted, List.map_append]⟩

/-- **A command that is prepared** goes on to write. -/
theorem apply_of_prepared (prepared : Prepared tree source operand options draft context encoding) :
    ∃ events, apply tree source operand options =
      emit tree (noted events) draft context encoding options.output options.stream := by
  obtain ⟨drafted, bound, known, kept, planned⟩ := prepared
  obtain ⟨events, same⟩ := drafting_noted tree source operand draft
  refine ⟨events, ?_⟩
  unfold apply
  simp only [drafted, bound, known, planOf_ok_iff.mpr planned, same]

/-- **A command that is not prepared** halts, and has written nothing. -/
theorem apply_of_unprepared (unprepared : ∀ draft context encoding,
    ¬ Prepared tree source operand options draft context encoding) :
    ∃ notices halt, apply tree source operand options = halted notices halt [] tree := by
  -- every way out is a halt, and whoever passes all of them is prepared
  unfold apply
  dsimp only
  split
  · exact ⟨_, _, rfl⟩
  · rename_i draft drafted
    split
    · exact ⟨_, _, rfl⟩
    · rename_i context bound
      split
      · exact ⟨_, _, rfl⟩
      · rename_i encoding known
        split
        · exact ⟨_, _, rfl⟩
        · rename_i kept planned
          exact (unprepared draft context encoding
            ⟨drafted, bound, known, kept, planOf_ok_iff.mp planned⟩).elim

omit [Runtime] in
theorem Halt.ending_ne (halt : Halt) : halt.ending ≠ .exit 0 := by
  cases halt with
  | message text => exact fun same => nomatch Ending.exit.inj same
  | breakdown cause => exact nofun

/-- A command that has gone through was prepared. -/
theorem exists_prepared_of_apply (through : (apply tree source operand options).ending = .exit 0) :
    ∃ draft context encoding, Prepared tree source operand options draft context encoding := by
  by_contra unprepared
  simp only [not_exists] at unprepared
  obtain ⟨notices, halt, same⟩ := apply_of_unprepared unprepared
  rw [same] at through
  exact halt.ending_ne through

end Preparation

end Reading

end Command

/-! ### Writing -/

/-- Octets have been written, to the output or to a file, and nothing else has changed. -/
def Outcome.Delivers (outcome : Outcome) (tree : Tree) (octets : Bytes) :
    Option PathName → Prop
  | none => outcome.ending = .exit 0 ∧ outcome.output = octets ∧ outcome.tree = tree
  | some name => outcome.ending = .exit 0 ∧ outcome.output = [] ∧
      tree.writeFile name octets = .ok outcome.tree

/-- The run goes through just when there are octets to be written, and has then written them. -/
structure Outcome.Writes (outcome : Outcome) (tree : Tree) (output : Option PathName)
    (written : Bytes → Prop) : Prop where
  exists_of_through : outcome.ending = .exit 0 → ∃ octets, written octets
  delivers : ∀ octets, written octets → outcome.Delivers tree octets output

/-- A file can be written under the name. -/
def Tree.Writable (tree : Tree) (name : PathName) : Prop :=
  ∃ emptied, tree.writeFile name [] = .ok emptied

namespace Draft

/-- The edits that take effect give a text, and the octets are those of the text as a whole. -/
def EncodesTo (draft : Draft) (context : Context) (encode : Text → Except Codec.Fault Bytes)
    (octets : Bytes) : Prop :=
  ∃ text, (draft.render context []).result = .ok text ∧ encode text = .ok octets

/-- The edits that take effect give a text, and the octets are those of its chunks, each on its own. -/
def StreamsTo (draft : Draft) (context : Context) (codec : Codec) (octets : Bytes) : Prop :=
  (∃ text, (draft.render context []).result = .ok text) ∧
    ∃ rows, codec.Encodes (draft.chunks context []) rows ∧ octets = rows.flatten

/-- The edits that take effect give a text, and a well-known encoding has octets for it. -/
def Encodable (draft : Draft) (context : Context) (charset : Charset) : Prop :=
  ∃ text, (draft.render context []).result = .ok text ∧ charset.Covers text

variable {draft : Draft} {context : Context} {charset : Charset} {octets : Bytes}

/-- **A text as a whole** in a well-known encoding has one byte-order mark in front. -/
theorem encodesTo_charset_iff : draft.EncodesTo context charset.codec.encode octets ↔
    draft.Encodable context charset ∧
      octets = charset.mark ++ charset.row (draft.chunks context []).flatten := by
  constructor
  · rintro ⟨text, rendered, encoded⟩
    obtain ⟨covered, rfl⟩ := Charset.encode_ok_iff.mp (Charset.codec_ok_iff.mp encoded)
    rw [← render_eq_chunks _ _ _ _ rendered]
    exact ⟨⟨text, rendered, covered⟩, rfl⟩
  · rintro ⟨⟨text, rendered, covered⟩, rfl⟩
    rw [← render_eq_chunks _ _ _ _ rendered]
    exact ⟨text, rendered, Charset.codec_of_covers covered⟩

/-- **Chunks** in a well-known encoding have one mark each. -/
theorem streamsTo_charset_iff : draft.StreamsTo context charset.codec octets ↔
    draft.Encodable context charset ∧
      octets = (draft.chunks context []).flatMap fun chunk => charset.mark ++ charset.row chunk := by
  constructor
  · rintro ⟨⟨text, rendered⟩, rows, encoded, rfl⟩
    have covered : ∀ chunk ∈ draft.chunks context [], charset.Covers chunk := by
      intro chunk member
      obtain ⟨row, written⟩ := encoded.exists_row member
      exact (Charset.encode_ok_iff.mp (Charset.codec_ok_iff.mp written)).1
    obtain rfl := encoded.unique (Charset.encodes_of_covers covered)
    refine ⟨⟨text, rendered, ?_⟩, (List.flatMap_def ..).symm⟩
    rw [render_eq_chunks _ _ _ _ rendered]
    exact Charset.covers_flatten.mpr covered
  · rintro ⟨⟨text, rendered, covered⟩, rfl⟩
    rw [render_eq_chunks _ _ _ _ rendered] at covered
    exact ⟨⟨text, rendered⟩, _, Charset.encodes_of_covers (Charset.covers_flatten.mp covered),
      List.flatMap_def ..⟩

/-- On a console of UTF-8 a text is printed just when UTF-8 covers it, and then in UTF-8. -/
theorem prints_iff [Console] (utf8 : Console.IsUtf8) : draft.EncodesTo context Console.print octets ↔
    draft.Encodable context .utf8 ∧ octets = Charset.utf8.row (draft.chunks context []).flatten := by
  have same : (Console.print : Text → Except Codec.Fault Bytes) = Charset.utf8.codec.encode := funext utf8
  rw [same]
  exact encodesTo_charset_iff

end Draft

theorem Outcome.Delivers.ending {outcome : Outcome} {tree : Tree} {octets : Bytes}
    {output : Option PathName} (delivers : outcome.Delivers tree octets output) :
    outcome.ending = .exit 0 := by
  cases output with
  | none => exact delivers.1
  | some name => exact delivers.1

theorem Outcome.Writes.congr {outcome : Outcome} {tree : Tree} {output : Option PathName}
    {written other : Bytes → Prop} (writes : outcome.Writes tree output written)
    (same : ∀ octets, written octets ↔ other octets) : outcome.Writes tree output other where
  exists_of_through through := by
    obtain ⟨octets, holds⟩ := writes.exists_of_through through
    exact ⟨octets, (same octets).mp holds⟩
  delivers octets holds := writes.delivers octets ((same octets).mpr holds)

/-- A run goes through just when it has something to write. -/
theorem Outcome.Writes.through_iff {outcome : Outcome} {tree : Tree} {output : Option PathName}
    {written : Bytes → Prop} (writes : outcome.Writes tree output written) :
    outcome.ending = .exit 0 ↔ ∃ octets, written octets :=
  ⟨writes.exists_of_through, fun ⟨octets, holds⟩ => (writes.delivers octets holds).ending⟩

/-- A run that goes through has written something, and nothing else. -/
theorem Outcome.Writes.exists_delivers {outcome : Outcome} {tree : Tree} {output : Option PathName}
    {written : Bytes → Prop} (writes : outcome.Writes tree output written)
    (through : outcome.ending = .exit 0) :
    ∃ octets, written octets ∧ outcome.Delivers tree octets output := by
  obtain ⟨octets, holds⟩ := writes.exists_of_through through
  exact ⟨octets, holds, writes.delivers octets holds⟩

namespace Command

section Writing

variable {tree emptied : Tree} {notices : List Notice} {draft : Draft} {context : Context}
  {encoding : Text} {codec : Codec} {name : PathName}

/-- The tree in which a file that was emptied has been written. -/
theorem writeFile_emptied (opened : tree.writeFile name [] = .ok emptied) (octets : Bytes) :
    tree.writeFile name octets = .ok ((emptied.writeFile name octets).toOption.getD emptied) := by
  obtain ⟨after, wrote⟩ := Tree.exists_writeFile_of_ok octets opened
  rw [Tree.writeFile_writeFile opened, wrote]
  rfl

theorem halted_ending_ne (notices : List Notice) (halt : Halt) (output : Bytes) (tree : Tree) :
    (halted notices halt output tree).ending ≠ .exit 0 := halt.ending_ne

theorem accepting_blocking : (Outlet.blocking .accepting).Accepting := ⟨fun _ => rfl, nofun⟩

/-- **The whole text to the console.** -/
theorem writeToOutput_writes [Runtime] :
    (writeToOutput tree notices draft context).Writes tree none
      (draft.EncodesTo context Console.print) := by
  unfold writeToOutput
  dsimp only
  constructor
  · intro through
    split at through
    · exact (halted_ending_ne _ _ _ _ through).elim
    · rename_i text rendered
      split at through
      · exact (halted_ending_ne _ _ _ _ through).elim
      · rename_i octets printed
        exact ⟨octets, text, rendered, printed⟩
  · rintro octets ⟨text, rendered, printed⟩
    simp only [rendered, printed]
    exact ⟨rfl, rfl, rfl⟩

section Named

variable [Runtime] (found : Codecs.named encoding = .ok (.codec codec))

include found

theorem fileOctets_eq (text : Text) :
    fileOctets encoding text = (codec.store text).mapError Failure.unencodable := by
  unfold fileOctets
  simp only [Codecs.ofName_eq found]
  cases codec.store text with
  | error fault => rfl
  | ok octets => rfl

/-- A delivery goes through just when the text can be rendered and every chunk encoded. -/
theorem deliver_ok_iff :
    (∃ writes, (draft.deliver context (some encoding) .accepting []).result = .ok writes) ↔
      ∃ octets, draft.StreamsTo context codec octets := by
  refine (Draft.deliverTo_ok_iff accepting_blocking found).trans ⟨?_, ?_⟩
  · rintro ⟨rendered, rows, encoded⟩
    exact ⟨_, rendered, rows, encoded, rfl⟩
  · rintro ⟨octets, rendered, rows, encoded, -⟩
    exact ⟨rendered, rows, encoded⟩

/-- A delivery that goes through has taken the chunks, each in the encoding. -/
theorem taken_of_streamsTo {octets : Bytes} (streams : draft.StreamsTo context codec octets) :
    taken (draft.deliver context (some encoding) .accepting []).marks = octets := by
  obtain ⟨-, rows, encoded, rfl⟩ := streams
  have whole := Draft.deliverTo_of_encodes accepting_blocking found encoded
  rw [← taken_marksOf (.blocking .accepting)]
  exact congrArg (fun delivery : Delivery => taken delivery.marks) whole

/-- **Piece by piece to the output.** -/
theorem streamToOutput_writes :
    (streamToOutput tree notices draft context encoding).Writes tree none
      (draft.StreamsTo context codec) := by
  unfold streamToOutput
  dsimp only
  constructor
  · intro through
    split at through
    · exact (halted_ending_ne _ _ _ _ through).elim
    · rename_i writes complete
      exact (deliver_ok_iff found).mp ⟨writes, complete⟩
  · intro octets streams
    obtain ⟨writes, complete⟩ := (deliver_ok_iff found).mpr ⟨octets, streams⟩
    rw [complete]
    exact ⟨rfl, taken_of_streamsTo found streams, rfl⟩

/-- **The whole text to a file.** -/
theorem writeToFile_writes :
    (writeToFile tree notices draft context encoding name).Writes tree (some name)
      fun octets => draft.EncodesTo context codec.store octets ∧ tree.Writable name := by
  unfold writeToFile
  dsimp only
  constructor
  · intro through
    split at through
    · exact (halted_ending_ne _ _ _ _ through).elim
    · rename_i text rendered
      split at through
      · exact (halted_ending_ne _ _ _ _ through).elim
      · rename_i emptied opened
        rw [fileOctets_eq found] at through
        cases stored : codec.store text with
        | error fault =>
          rw [stored] at through
          exact (halted_ending_ne _ _ _ _ through).elim
        | ok octets => exact ⟨octets, ⟨text, rendered, stored⟩, emptied, opened⟩
  · rintro octets ⟨⟨text, rendered, stored⟩, emptied, opened⟩
    simp only [rendered, opened, fileOctets_eq found, stored]
    exact ⟨rfl, rfl, writeFile_emptied opened _⟩

/-- **Piece by piece to a file.** -/
theorem streamToFile_writes :
    (streamToFile tree notices draft context encoding name).Writes tree (some name)
      fun octets => draft.StreamsTo context codec octets ∧ tree.Writable name := by
  unfold streamToFile
  constructor
  · intro through
    split at through
    · exact (halted_ending_ne _ _ _ _ through).elim
    · rename_i emptied opened
      dsimp only at through
      split at through
      · exact (halted_ending_ne _ _ _ _ through).elim
      · rename_i writes complete
        obtain ⟨octets, streams⟩ := (deliver_ok_iff found).mp ⟨writes, complete⟩
        exact ⟨octets, streams, emptied, opened⟩
  · rintro octets ⟨streams, emptied, opened⟩
    obtain ⟨writes, complete⟩ := (deliver_ok_iff found).mpr ⟨octets, streams⟩
    rw [opened]
    simp only [complete, taken_of_streamsTo found streams]
    exact ⟨rfl, rfl, writeFile_emptied opened _⟩

end Named

end Writing

end Command

end Splice
