/-
**How runs end.**

A run ends with exit code 0, with exit code 1 and a message behind its events, with exit code 2 and a
message on how the program is called, or it breaks down and says nothing more than its events. It
breaks down in a few cases only, and these are all: a file name is too long to be looked up, the source
or the script is a folder, the source is not UTF-8, the script is nested deeper than the machine reads,
the file to be written cannot be opened although its name is in order, a field of a template fails for
a reason that is not reported, and a lone divider has taken away an operand or the value of a switch.
Most of them are faults of files that the command line names.

* `Command.FilesBreak`, `Request.Breaks`: the cases in which a request breaks down;
* `Command.files_breaks_iff`, `Command.plan_breaks_iff`, `Command.apply_breaks_iff`: there are no
  others;
* `Outcome.Ended`, `run_ends`: the ways in which any run ends;
* `run_ends_folder`: a source that is a folder.
-/

import Mathlib
import Splice.Proofs.Halting
import Splice.Proofs.Refusals

namespace Splice

namespace Command

section Machine

variable [Runtime]

/-- The two files of a command cannot be read, and no message says so. -/
inductive FilesBreak (tree : Tree) : Operand → Operand → Breakdown → Prop
  | sourceLost {operand : Operand} : FilesBreak tree none operand .lostOperand
  | sourceLong {source : PathName} {operand : Operand}
      (long : tree.leadsSomewhere source = .error .longName) :
      FilesBreak tree (some source) operand (.file .longName source)
  | scriptLost {source : PathName} (there : tree.leadsSomewhere source = .ok true) :
      FilesBreak tree (some source) none .lostOperand
  | scriptLong {source script : PathName} (there : tree.leadsSomewhere source = .ok true)
      (long : tree.leadsSomewhere script = .error .longName) :
      FilesBreak tree (some source) (some script) (.file .longName script)
  | sourceFolder {source script : PathName} (there : tree.leadsSomewhere source = .ok true)
      (there' : tree.leadsSomewhere script = .ok true)
      (folder : tree.readFile source = .error .isFolder) :
      FilesBreak tree (some source) (some script) (.file .isFolder source)
  | sourceFlawed {source script : PathName} {octets : Bytes} {fault : Utf8.Fault}
      (there' : tree.leadsSomewhere script = .ok true) (holds : tree.readFile source = .ok octets)
      (flawed : Utf8.decode octets = .error fault) :
      FilesBreak tree (some source) (some script) (.undecodable fault)
  | scriptFolder {source script : PathName} {chars : List Char}
      (reads : tree.Spells (some source) chars) (there' : tree.leadsSomewhere script = .ok true)
      (folder : tree.readFile script = .error .isFolder) :
      FilesBreak tree (some source) (some script) (.file .isFolder script)
  | scriptDeep {source script : PathName} {chars written : List Char} {fault : Script.Fault}
      (reads : tree.Spells (some source) chars) (reads' : tree.Spells (some script) written)
      (unparsed : Script.parse (Text.ofChars (unifiedLines written)) = .error fault)
      (deep : fault.isDepth = true) :
      FilesBreak tree (some source) (some script) (.failure (.script fault))

variable {tree : Tree} {source operand : Operand} {name : PathName} {halt : Halt}
  {breakdown : Breakdown}

/-! ### One file -/

omit [Runtime] in
theorem longName_of_leadsSomewhere {fault : FileFault}
    (unseen : tree.leadsSomewhere name = .error fault) : fault = .longName := by
  unfold Tree.leadsSomewhere at unseen
  split at unseen
  · cases unseen
  · exact (Except.error.inj unseen).symm
  · cases unseen

omit [Runtime] in
/-- What is there and cannot be read is a folder. -/
theorem isFolder_of_readFile {fault : FileFault} (there : tree.leadsSomewhere name = .ok true)
    (failed : tree.readFile name = .error fault) : fault = .isFolder := by
  unfold Tree.leadsSomewhere at there
  split at there
  · rename_i path located
    unfold Tree.readFile at failed
    simp only [located] at failed
    split at failed
    · rename_i absent
      rw [absent] at there
      cases there
    · exact (Except.error.inj failed).symm
    · cases failed
  · cases there
  · cases there

omit [Runtime] in
theorem says_of_present {complaint : String}
    (failed : present tree complaint operand = .error halt) : halt.Says := by
  unfold present at failed
  split at failed
  · obtain rfl := Except.error.inj failed
    exact says_breakdown _
  · split at failed
    · obtain rfl := Except.error.inj failed
      exact says_breakdown _
    · cases failed
    · obtain rfl := Except.error.inj failed
      exact says_errorLine _

omit [Runtime] in
theorem present_breaks_iff {complaint : String} :
    present tree complaint operand = .error (.breakdown breakdown) ↔
      operand = none ∧ breakdown = .lostOperand ∨
        ∃ name, operand = some name ∧ tree.leadsSomewhere name = .error .longName ∧
          breakdown = .file .longName name := by
  unfold present
  constructor
  · intro failed
    split at failed
    · cases failed
      exact Or.inl ⟨rfl, rfl⟩
    · rename_i name
      split at failed
      · rename_i fault unseen
        cases failed
        obtain rfl := longName_of_leadsSomewhere unseen
        exact Or.inr ⟨name, rfl, unseen, rfl⟩
      · cases failed
      · cases failed
  · rintro (⟨rfl, rfl⟩ | ⟨name, rfl, unseen, rfl⟩)
    · rfl
    · simp only [unseen]

omit [Runtime] in
theorem says_of_sourceText (failed : sourceText tree name = .error halt) : halt.Says := by
  unfold sourceText at failed
  split at failed
  · obtain rfl := Except.error.inj failed
    exact says_breakdown _
  · split at failed
    · obtain rfl := Except.error.inj failed
      exact says_breakdown _
    · cases failed

omit [Runtime] in
theorem sourceText_breaks_iff (there : tree.leadsSomewhere name = .ok true) :
    sourceText tree name = .error (.breakdown breakdown) ↔
      tree.readFile name = .error .isFolder ∧ breakdown = .file .isFolder name ∨
        ∃ octets fault, tree.readFile name = .ok octets ∧ Utf8.decode octets = .error fault ∧
          breakdown = .undecodable fault := by
  unfold sourceText
  constructor
  · intro failed
    split at failed
    · rename_i fault unread
      cases failed
      obtain rfl := isFolder_of_readFile there unread
      exact Or.inl ⟨unread, rfl⟩
    · rename_i octets holds
      split at failed
      · rename_i fault flawed
        cases failed
        exact Or.inr ⟨octets, fault, holds, flawed, rfl⟩
      · cases failed
  · rintro (⟨unread, rfl⟩ | ⟨octets, fault, holds, flawed, rfl⟩)
    · simp only [unread]
    · simp only [holds, flawed]

theorem says_of_scriptOf (failed : scriptOf tree name = .error halt) : halt.Says := by
  unfold scriptOf at failed
  split at failed
  · obtain rfl := Except.error.inj failed
    exact says_breakdown _
  · split at failed
    · obtain rfl := Except.error.inj failed
      exact says_loadingHalt _ _
    · rename_i chars decodes
      cases parses : Script.parse (Text.ofChars (unifiedLines chars)) with
      | ok script =>
        simp only [parses] at failed
        cases failed
      | error fault =>
        simp only [parses] at failed
        split at failed
        · obtain rfl := Except.error.inj failed
          exact says_breakdown _
        · obtain rfl := Except.error.inj failed
          exact says_loadingHalt _ _

theorem scriptOf_breaks_iff (there : tree.leadsSomewhere name = .ok true) :
    scriptOf tree name = .error (.breakdown breakdown) ↔
      tree.readFile name = .error .isFolder ∧ breakdown = .file .isFolder name ∨
        ∃ chars fault, tree.Spells (some name) chars ∧
          Script.parse (Text.ofChars (unifiedLines chars)) = .error fault ∧ fault.isDepth = true ∧
          breakdown = .failure (.script fault) := by
  unfold scriptOf
  constructor
  · intro failed
    split at failed
    · rename_i fault unread
      cases failed
      obtain rfl := isFolder_of_readFile there unread
      exact Or.inl ⟨unread, rfl⟩
    · rename_i octets holds
      split at failed
      · cases failed
      · rename_i chars decodes
        cases parses : Script.parse (Text.ofChars (unifiedLines chars)) with
        | ok script =>
          simp only [parses] at failed
          cases failed
        | error fault =>
          simp only [parses] at failed
          split at failed
          · rename_i deep
            cases failed
            exact Or.inr ⟨chars, fault, ⟨name, octets, rfl, holds, decodes⟩, parses, deep, rfl⟩
          · cases failed
  · rintro (⟨unread, rfl⟩ | ⟨chars, fault, ⟨_, octets, ⟨⟩, holds, decodes⟩, parses, deep, rfl⟩)
    · simp only [unread]
    · simp only [holds, decodes, parses, if_pos deep]

/-! ### Both files -/

theorem says_of_files (failed : files tree source operand = .error halt) : halt.Says := by
  unfold files at failed
  simp only [bind_error_iff] at failed
  rcases failed with absent | ⟨name, -, absent | ⟨name', -, unread | ⟨text, -, unread | ⟨script, -, ⟨⟩⟩⟩⟩⟩
  · exact says_of_present absent
  · exact says_of_present absent
  · exact says_of_sourceText unread
  · exact says_of_scriptOf unread

/-- **When the two files break down.** -/
theorem files_breaks_iff : files tree source operand = .error (.breakdown breakdown) ↔
    FilesBreak tree source operand breakdown := by
  unfold files
  simp only [bind_error_iff]
  constructor
  · rintro (absent | ⟨name, found, absent | ⟨name', found', unread | ⟨text, reads, unread |
      ⟨script, -, ⟨⟩⟩⟩⟩⟩)
    · rcases present_breaks_iff.mp absent with ⟨rfl, rfl⟩ | ⟨name, rfl, long, rfl⟩
      · exact .sourceLost
      · exact .sourceLong long
    · obtain ⟨rfl, there⟩ := present_ok_iff.mp found
      rcases present_breaks_iff.mp absent with ⟨rfl, rfl⟩ | ⟨name', rfl, long, rfl⟩
      · exact .scriptLost there
      · exact .scriptLong there long
    · obtain ⟨rfl, there⟩ := present_ok_iff.mp found
      obtain ⟨rfl, there'⟩ := present_ok_iff.mp found'
      rcases (sourceText_breaks_iff there).mp unread with ⟨folder, rfl⟩ |
        ⟨octets, fault, holds, flawed, rfl⟩
      · exact .sourceFolder there there' folder
      · exact .sourceFlawed there' holds flawed
    · obtain ⟨rfl, there⟩ := present_ok_iff.mp found
      obtain ⟨rfl, there'⟩ := present_ok_iff.mp found'
      obtain ⟨chars, spells, rfl⟩ := sourceText_ok_iff.mp reads
      rcases (scriptOf_breaks_iff there').mp unread with ⟨folder, rfl⟩ |
        ⟨written, fault, spells', unparsed, deep, rfl⟩
      · exact .scriptFolder spells there' folder
      · exact .scriptDeep spells spells' unparsed deep
  · rintro (_ | long | there | ⟨there, long⟩ | ⟨there, there', folder⟩ | ⟨there', holds, flawed⟩ |
      ⟨spells, there', folder⟩ | ⟨spells, spells', unparsed, deep⟩)
    · exact Or.inl (present_breaks_iff.mpr (Or.inl ⟨rfl, rfl⟩))
    · exact Or.inl (present_breaks_iff.mpr (Or.inr ⟨_, rfl, long, rfl⟩))
    · exact Or.inr ⟨_, present_ok_iff.mpr ⟨rfl, there⟩,
        Or.inl (present_breaks_iff.mpr (Or.inl ⟨rfl, rfl⟩))⟩
    · exact Or.inr ⟨_, present_ok_iff.mpr ⟨rfl, there⟩,
        Or.inl (present_breaks_iff.mpr (Or.inr ⟨_, rfl, long, rfl⟩))⟩
    · exact Or.inr ⟨_, present_ok_iff.mpr ⟨rfl, there⟩, Or.inr ⟨_, present_ok_iff.mpr ⟨rfl, there'⟩,
        Or.inl ((sourceText_breaks_iff there).mpr (Or.inl ⟨folder, rfl⟩))⟩⟩
    · have there := Tree.leadsSomewhere_of_readFile holds
      exact Or.inr ⟨_, present_ok_iff.mpr ⟨rfl, there⟩, Or.inr ⟨_, present_ok_iff.mpr ⟨rfl, there'⟩,
        Or.inl ((sourceText_breaks_iff there).mpr (Or.inr ⟨_, _, holds, flawed, rfl⟩))⟩⟩
    · obtain ⟨_, octets, ⟨⟩, holds, -⟩ := id spells
      have there := Tree.leadsSomewhere_of_readFile holds
      exact Or.inr ⟨_, present_ok_iff.mpr ⟨rfl, there⟩, Or.inr ⟨_, present_ok_iff.mpr ⟨rfl, there'⟩,
        Or.inr ⟨_, sourceText_ok_iff.mpr ⟨_, spells, rfl⟩,
          Or.inl ((scriptOf_breaks_iff there').mpr (Or.inl ⟨folder, rfl⟩))⟩⟩⟩
    · obtain ⟨_, octets, ⟨⟩, holds, -⟩ := id spells
      obtain ⟨_, octets', ⟨⟩, holds', -⟩ := id spells'
      have there := Tree.leadsSomewhere_of_readFile holds
      have there' := Tree.leadsSomewhere_of_readFile holds'
      exact Or.inr ⟨_, present_ok_iff.mpr ⟨rfl, there⟩, Or.inr ⟨_, present_ok_iff.mpr ⟨rfl, there'⟩,
        Or.inr ⟨_, sourceText_ok_iff.mpr ⟨_, spells, rfl⟩, Or.inl ((scriptOf_breaks_iff there').mpr
          (Or.inr ⟨_, _, spells', unparsed, deep, rfl⟩))⟩⟩⟩

/-! ### Drafts, contexts and encodings -/

theorem says_of_draftOf (failed : (draftOf tree source operand).result = .error halt) :
    halt.Says := by
  unfold draftOf at failed
  split at failed
  · rename_i other unread
    obtain rfl := Except.error.inj failed
    exact says_of_files unread
  · dsimp only at failed
    split at failed
    · obtain rfl := Except.error.inj failed
      exact says_loadingHalt _ _
    · cases failed

theorem draftOf_breaks_iff : (draftOf tree source operand).result = .error (.breakdown breakdown) ↔
    FilesBreak tree source operand breakdown := by
  rw [← files_breaks_iff]
  unfold draftOf
  constructor
  · intro failed
    split at failed
    · rename_i unread
      rw [unread]
      exact congrArg Except.error (Except.error.inj failed)
    · dsimp only at failed
      split at failed
      · cases failed
      · cases failed
  · intro unread
    rw [unread]

omit [Runtime] in
theorem says_of_contextOf {bindings : List SwitchValue} (failed : contextOf bindings = .error halt) :
    halt.Says := by
  unfold contextOf at failed
  split at failed
  · obtain rfl := Except.error.inj failed
    exact says_errorLine _
  · obtain rfl := Except.error.inj failed
    exact says_breakdown _
  · cases failed

omit [Runtime] in
theorem contextOf_breaks_iff {bindings : List SwitchValue} :
    contextOf bindings = .error (.breakdown breakdown) ↔
      Variable.parseAll bindings = .error .lost ∧ breakdown = .lostVariable := by
  unfold contextOf
  constructor
  · intro failed
    split at failed
    · cases failed
    · rename_i lost
      cases failed
      exact ⟨lost, rfl⟩
    · cases failed
  · rintro ⟨lost, rfl⟩
    rw [lost]

theorem says_of_encodingOf {value : SwitchValue} (failed : encodingOf value = .error halt) :
    halt.Says := by
  unfold encodingOf at failed
  split at failed
  · obtain rfl := Except.error.inj failed
    exact says_breakdown _
  · split at failed
    · cases failed
    · obtain rfl := Except.error.inj failed
      exact says_errorLine _
    · obtain rfl := Except.error.inj failed
      exact says_errorLine _

theorem encodingOf_breaks_iff {value : SwitchValue} :
    encodingOf value = .error (.breakdown breakdown) ↔
      value = none ∧ breakdown = .lostEncoding := by
  unfold encodingOf
  constructor
  · intro failed
    split at failed
    · cases failed
      exact ⟨rfl, rfl⟩
    · split at failed <;> cases failed
  · rintro ⟨rfl, rfl⟩
    rfl

omit [Runtime] in
theorem exists_errorLine_of_planOf {draft : Draft} (failed : (planOf draft).result = .error halt) :
    ∃ text, halt = errorLine text := by
  unfold planOf at failed
  dsimp only at failed
  split at failed
  · exact ⟨_, (Except.error.inj failed).symm⟩
  · cases failed

end Machine

end Command

/-! ### Commands -/

/-- The kinds of faults that are reported neither together with their template nor without. -/
def Template.silentKinds : List Template.Kind := [.overflow, .memory, .recursion, .other]

/-- A request breaks down. -/
inductive Request.Breaks [Runtime] (tree : Tree) : Request → Breakdown → Prop
  | planFiles {source script : Operand} {breakdown : Breakdown}
      (files : Command.FilesBreak tree source script breakdown) :
      Breaks tree (.plan source script) breakdown
  | applyFiles {source script : Operand} {options : ApplyOptions} {breakdown : Breakdown}
      (files : Command.FilesBreak tree source script breakdown) :
      Breaks tree (.apply source script options) breakdown
  | lostVariable {source script : Operand} {options : ApplyOptions} {draft : Draft}
      (drafted : (Command.draftOf tree source script).result = .ok draft)
      (lost : Variable.parseAll options.bindings = .error .lost) :
      Breaks tree (.apply source script options) .lostVariable
  | lostEncoding {source script : Operand} {options : ApplyOptions} {draft : Draft}
      {context : Context} (drafted : (Command.draftOf tree source script).result = .ok draft)
      (bound : Command.contextOf options.bindings = .ok context) (lost : options.encoding = none) :
      Breaks tree (.apply source script options) .lostEncoding
  | unfitWhole {source script : Operand} {options : ApplyOptions} {draft : Draft}
      {context : Context} {label : Text} {fault : Template.Fault}
      (prepared : Command.Prepared tree source script options draft context label)
      (whole : options.stream = false)
      (failed : (draft.render context []).result = .error (.render (.unwrapped fault)))
      (silent : fault.kind ∈ Template.silentKinds) :
      Breaks tree (.apply source script options) (.failure (.render (.unwrapped fault)))
  | unfitPiece {source script : Operand} {options : ApplyOptions} {draft : Draft}
      {context : Context} {label : Text} {fault : Template.Fault}
      (prepared : Command.Prepared tree source script options draft context label)
      (pieces : options.stream = true)
      (opened : ∀ name, options.output = some name → tree.Writable name)
      (failed : (draft.deliver context (some label) .accepting []).result =
        .error (.render (.unwrapped fault)))
      (silent : fault.kind ∈ Template.silentKinds) :
      Breaks tree (.apply source script options) (.failure (.render (.unwrapped fault)))
  | unopened {source script : Operand} {options : ApplyOptions} {draft : Draft}
      {context : Context} {label : Text} {name : PathName} {fault : FileFault}
      (prepared : Command.Prepared tree source script options draft context label)
      (toFile : options.output = some name)
      (ready : options.stream = false → ∃ text, (draft.render context []).result = .ok text)
      (failed : tree.writeFile name [] = .error fault) (ofTree : fault.ofName = false) :
      Breaks tree (.apply source script options) (.file fault name)

namespace Command

section Machine

variable [Runtime]

/-- The outcome goes through, or a halt comes behind events that says why or breaks down. -/
def Concludes (outcome : Outcome) : Prop :=
  outcome.ending = .exit 0 ∨ ∃ events halt, Halt.Says halt ∧ outcome.ending = halt.ending ∧
    outcome.notices = noted events ++ halt.notices

omit [Runtime] in
theorem concludes_halted {tree : Tree} {notices : List Notice} {events : List Event} {halt : Halt}
    {output : Bytes} (onlyEvents : notices = noted events) (proper : halt.Says) :
    Concludes (halted notices halt output tree) :=
  Or.inr ⟨events, halt, proper, rfl, by rw [onlyEvents]; rfl⟩

theorem says_of_stops {tree : Tree} {draft : Draft} {context : Context} {label : Text}
    {output : Option PathName} {stream : Bool} {halt : Halt}
    (stops : Stops tree draft context label output stream halt) : halt.Says := by
  cases stops with
  | render failed => exact says_haltOf _
  | deliver opened failed => exact says_haltOf _
  | encodeOutput rendered failed => exact says_haltOf _
  | encodeFile rendered opened failed => exact says_haltOf _
  | openFile ready failed => exact says_openingHalt _ _

theorem plan_concludes (tree : Tree) (source operand : Operand) :
    Concludes (plan tree source operand) := by
  obtain ⟨events, same⟩ := draftOf_noted tree source operand
  unfold plan
  dsimp only
  split
  · rename_i halt failed
    exact concludes_halted same (says_of_draftOf failed)
  · rename_i draft drafted
    obtain ⟨events', same'⟩ := drafting_noted tree source operand draft
    split
    · rename_i halt failed
      obtain ⟨text, rfl⟩ := exists_errorLine_of_planOf failed
      exact concludes_halted same' (says_errorLine text)
    · rename_i kept planned
      exact Or.inl (congrArg Outcome.ending (shown_of_ascii (ascii_covers_listing kept) tree _ _))

theorem apply_concludes (tree : Tree) (source operand : Operand) (options : ApplyOptions) :
    Concludes (apply tree source operand options) := by
  obtain ⟨events, same⟩ := draftOf_noted tree source operand
  unfold apply
  dsimp only
  split
  · rename_i halt failed
    exact concludes_halted same (says_of_draftOf failed)
  · rename_i draft drafted
    obtain ⟨events', same'⟩ := drafting_noted tree source operand draft
    split
    · rename_i halt failed
      exact concludes_halted same (says_of_contextOf failed)
    · rename_i context bound
      split
      · rename_i halt failed
        exact concludes_halted same (says_of_encodingOf failed)
      · rename_i label known
        split
        · rename_i halt failed
          obtain ⟨text, rfl⟩ := exists_errorLine_of_planOf failed
          exact concludes_halted same' (says_errorLine text)
        · rw [same']
          obtain ⟨others, ⟨through, -⟩ | ⟨halt, stops, ending, notices⟩⟩ :=
            @emit_ends _ tree (noted events') draft context label options.output options.stream
          · exact Or.inl through
          · refine Or.inr ⟨events' ++ others, halt, says_of_stops stops, ending, ?_⟩
            rw [notices, noted, noted, noted, List.map_append]

theorem plan_breaks_iff {tree : Tree} {source operand : Operand} {breakdown : Breakdown} :
    (plan tree source operand).ending = .broken breakdown ↔
      (Request.plan source operand).Breaks tree breakdown := by
  constructor
  · intro broken
    unfold plan at broken
    dsimp only at broken
    split at broken
    · rename_i halt failed
      obtain rfl := Halt.ending_eq_broken_iff.mp broken
      exact .planFiles (draftOf_breaks_iff.mp failed)
    · split at broken
      · rename_i halt failed
        obtain ⟨text, rfl⟩ := exists_errorLine_of_planOf failed
        cases broken
      · rename_i kept planned
        have listed := shown_of_ascii (ascii_covers_listing kept) tree
        cases (congrArg Outcome.ending (listed _ _)).symm.trans broken
  · rintro ⟨files⟩
    unfold plan
    simp only [draftOf_breaks_iff.mpr files]
    rfl

section Apply

variable {tree : Tree} {source operand : Operand} {options : ApplyOptions} {breakdown : Breakdown}
  {draft : Draft} {context : Context} {label : Text}

omit [Runtime] in
/-- What is neither listed nor reported is silent. -/
theorem mem_silentKinds_iff {kind : Template.Kind} :
    kind ∈ Template.silentKinds ↔ kind.isListed = false ∧ isReported kind = false := by
  cases kind <;> decide

omit [Runtime] in
/-- A fault of a script that is not reported. -/
theorem mem_silentKinds {fault : Template.Fault}
    (ofScript : Failure.OfScript (.render (.unwrapped fault)))
    (unreported : isReported fault.kind = false) : fault.kind ∈ Template.silentKinds := by
  cases ofScript with
  | render ofTemplate =>
    cases ofTemplate with
    | unwrapped _ unlisted => exact mem_silentKinds_iff.mpr ⟨unlisted, unreported⟩
  | encoding ofEncoding => cases ofEncoding

/-- What stops writing without a message: something in a template, or a file that cannot be opened. -/
theorem breaks_of_stops {halt : Halt} {output : Option PathName} {stream : Bool}
    (prepared : Prepared tree source operand options draft context label)
    (toFile : options.output = output) (streamed : options.stream = stream)
    (stops : Stops tree draft context label output stream halt)
    (silent : halt = .breakdown breakdown) :
    (Request.apply source operand options).Breaks tree breakdown := by
  obtain ⟨chars, script, -, -, -, rfl⟩ := draftOf_ok_iff.mp prepared.drafted
  obtain ⟨kept, planned⟩ := prepared.planned
  cases stops with
  | render failed =>
    obtain ⟨fault, rfl, unreported, rfl⟩ := haltOf_eq_breakdown_iff.mp silent
    obtain ⟨_, ⟨⟩, ofTemplate⟩ := Script.ofScript_of_render planned failed
    exact .unfitWhole prepared streamed failed (mem_silentKinds (.render ofTemplate) unreported)
  | deliver opened failed =>
    obtain ⟨fault, rfl, unreported, rfl⟩ := haltOf_eq_breakdown_iff.mp silent
    exact .unfitPiece prepared streamed (toFile ▸ opened) failed
      (mem_silentKinds (Script.ofScript_of_deliver planned failed) unreported)
  | encodeOutput rendered failed =>
    obtain ⟨fault, same, -⟩ := haltOf_eq_breakdown_iff.mp silent
    cases same
  | encodeFile rendered opened failed =>
    obtain ⟨fault, rfl, -⟩ := haltOf_eq_breakdown_iff.mp silent
    cases ofEncoding_of_fileOctets failed
  | openFile ready failed =>
    obtain ⟨ofTree, rfl⟩ := openingHalt_eq_breakdown_iff.mp silent
    exact .unopened prepared toFile (streamed ▸ ready) failed ofTree

theorem apply_of_stops {halt : Halt} {output : Option PathName} {stream : Bool}
    (prepared : Prepared tree source operand options draft context label)
    (toFile : options.output = output) (streamed : options.stream = stream)
    (stops : Stops tree draft context label output stream halt) :
    (apply tree source operand options).ending = halt.ending := by
  obtain ⟨events, same⟩ := apply_of_prepared prepared
  rw [same, toFile, streamed]
  exact emit_of_stops stops

/-- **When applying a script breaks down.** -/
theorem apply_breaks_iff : (apply tree source operand options).ending = .broken breakdown ↔
    (Request.apply source operand options).Breaks tree breakdown := by
  constructor
  · intro broken
    unfold apply at broken
    dsimp only at broken
    split at broken
    · rename_i halt failed
      obtain rfl := Halt.ending_eq_broken_iff.mp broken
      exact .applyFiles (draftOf_breaks_iff.mp failed)
    · rename_i draft drafted
      split at broken
      · rename_i halt failed
        obtain rfl := Halt.ending_eq_broken_iff.mp broken
        obtain ⟨lost, rfl⟩ := contextOf_breaks_iff.mp failed
        exact .lostVariable drafted lost
      · rename_i context bound
        split at broken
        · rename_i halt failed
          obtain rfl := Halt.ending_eq_broken_iff.mp broken
          obtain ⟨lost, rfl⟩ := encodingOf_breaks_iff.mp failed
          exact .lostEncoding drafted bound lost
        · rename_i label known
          split at broken
          · rename_i halt failed
            obtain ⟨text, rfl⟩ := exists_errorLine_of_planOf failed
            cases broken
          · rename_i kept planned
            have prepared : Prepared tree source operand options draft context label :=
              ⟨drafted, bound, known, kept, planOf_ok_iff.mp planned⟩
            obtain ⟨others, ⟨through, -⟩ | ⟨halt, stops, ending, -⟩⟩ := @emit_ends _ tree _ draft
              context label options.output options.stream
            · rw [through] at broken
              cases broken
            · rw [ending] at broken
              exact breaks_of_stops prepared rfl rfl stops (Halt.ending_eq_broken_iff.mp broken)
  · intro breaks
    cases breaks with
    | applyFiles files =>
      unfold apply
      simp only [draftOf_breaks_iff.mpr files]
      rfl
    | lostVariable drafted lost =>
      unfold apply
      simp only [drafted, contextOf_breaks_iff.mpr ⟨lost, rfl⟩]
      rfl
    | lostEncoding drafted bound lost =>
      unfold apply
      simp only [drafted, bound, encodingOf_breaks_iff.mpr ⟨lost, rfl⟩]
      rfl
    | unfitWhole prepared whole failed silent =>
      rw [apply_of_stops prepared rfl whole (.render failed),
        haltOf_eq_breakdown_iff.mpr ⟨_, rfl, (mem_silentKinds_iff.mp silent).2, rfl⟩]
      rfl
    | unfitPiece prepared pieces opened failed silent =>
      rw [apply_of_stops prepared rfl pieces (.deliver opened failed),
        haltOf_eq_breakdown_iff.mpr ⟨_, rfl, (mem_silentKinds_iff.mp silent).2, rfl⟩]
      rfl
    | unopened prepared toFile ready failed ofTree =>
      rw [apply_of_stops prepared toFile rfl (.openFile ready failed),
        openingHalt_eq_breakdown_iff.mpr ⟨ofTree, rfl⟩]
      rfl

end Apply

end Machine

end Command

/-! ### Runs -/

/-- A text that consists of characters stands on the error stream as it is. -/
theorem flatMap_escaped {text : Text} (plain : ∀ point ∈ text, point.isSurrogate = false) :
    (text.flatMap fun point => if point.isSurrogate then point.escaped else [point]) = text := by
  induction text with
  | nil => rfl
  | cons point rest ih =>
    obtain ⟨here, others⟩ := List.forall_mem_cons.mp plain
    rw [List.flatMap_cons, here, ih others]
    rfl

/-- A message is printed behind the events in front of it. -/
theorem infix_printed [Journal] {outcome : Outcome} {front : List Notice} {start text : Text}
    (notices : outcome.notices = front ++ [.message text]) (begins : start <+: text)
    (plain : ∀ point ∈ start, point.isSurrogate = false) (threshold : Threshold) (stamp : Text) :
    start <:+: outcome.printed threshold stamp := by
  obtain ⟨rest, rfl⟩ := begins
  unfold Outcome.printed
  rw [notices, List.flatMap_append, List.flatMap_append, List.flatMap_singleton]
  show start <:+: _ ++ (start ++ rest).flatMap _
  rw [List.flatMap_append, flatMap_escaped plain]
  exact ⟨_, _, List.append_assoc _ _ _⟩

/-- The ways to end: with success, with an error message behind events, with nothing but a message on
how the program is called, or with nothing but events. -/
inductive Outcome.Ended (outcome : Outcome) : Prop
  | through (ending : outcome.ending = .exit 0)
  | failed (ending : outcome.ending = .exit 1) (events : List Event) (text : Text)
      (notices : outcome.notices = Command.noted events ++ [.message text]) (begins : alarm <+: text)
  | refused (ending : outcome.ending = .exit 2) (text : Text)
      (notices : outcome.notices = [.message text]) (begins : calling <+: text)
  | broken (breakdown : Breakdown) (ending : outcome.ending = .broken breakdown)
      (events : List Event) (notices : outcome.notices = Command.noted events)

theorem Command.Concludes.ended {outcome : Outcome} (concludes : Concludes outcome) :
    outcome.Ended := by
  rcases concludes with through | ⟨events, halt, proper, ending, notices⟩
  · exact .through through
  · cases halt with
    | message text =>
      have begins : alarm <+: text ++ [.scalar '\n'] :=
        (proper text rfl).trans (List.prefix_append _ _)
      exact .failed ending events _ notices begins
    | breakdown cause => exact .broken cause ending events (notices.trans (List.append_nil _))

/-- A run that is asked for something does it. -/
theorem run_of_request [Runtime] {world : World} {arguments : List Text} {verbose : Bool}
    {request : Request} (asked : Request.read arguments = .request verbose request) :
    (run world arguments).2.Ended ∧ ∀ breakdown,
      (run world arguments).2.ending = .broken breakdown ↔ request.Breaks world.tree breakdown := by
  unfold run
  rw [asked]
  cases request with
  | apply source script options =>
    exact ⟨(Command.apply_concludes world.tree source script options).ended,
      fun breakdown => Command.apply_breaks_iff⟩
  | plan source script =>
    exact ⟨(Command.plan_concludes world.tree source script).ended,
      fun breakdown => Command.plan_breaks_iff⟩

theorem Charset.covers_ofString_append {charset : Charset} {first second : String}
    (front : charset.Covers (Text.ofString first)) (back : charset.Covers (Text.ofString second)) :
    charset.Covers (Text.ofString (first ++ second)) := by
  unfold Covers Text.ofString
  rw [String.toList_append, List.map_append, List.forall_mem_append]
  exact ⟨front, back⟩

/-- Every page is ASCII. -/
theorem ascii_of_mem_pages : ∀ text ∈ pages, Charset.ascii.Covers text := by
  -- the lines of a page are examined one by one, from the last one on
  have help : Charset.ascii.Covers (Text.ofString Request.help) := by
    iterate 12 refine Charset.covers_ofString_append ?_ (by decide +kernel)
    decide +kernel
  have applyHelp : Charset.ascii.Covers (Text.ofString Request.applyHelp) := by
    iterate 12 refine Charset.covers_ofString_append ?_ (by decide +kernel)
    iterate 2 refine Charset.covers_ofString_append ?_ (by decide +kernel)
    decide +kernel
  have planHelp : Charset.ascii.Covers (Text.ofString Request.planHelp) := by
    iterate 7 refine Charset.covers_ofString_append ?_ (by decide +kernel)
    decide +kernel
  have version : Charset.ascii.Covers (Text.ofString Request.version) := by decide +kernel
  simp only [pages, List.map_cons, List.map_nil, List.forall_mem_cons]
  exact ⟨help, version, applyHelp, planHelp, List.forall_mem_nil _⟩

/-- A run that is asked for nothing shows a text or refuses the line. -/
theorem run_of_no_request [Runtime] {world : World} {arguments : List Text}
    (unasked : ∀ verbose request, Request.read arguments ≠ .request verbose request) :
    (run world arguments).2.Ended ∧ ∀ breakdown,
      (run world arguments).2.ending ≠ .broken breakdown := by
  have explains := Request.explains_read arguments
  unfold run
  cases asked : Request.read arguments with
  | display text =>
    rw [asked] at explains
    have shown : (Command.shown world.tree [] text []).ending = .exit 0 :=
      congrArg Outcome.ending (Command.shown_of_ascii (ascii_of_mem_pages text explains) world.tree [] [])
    exact ⟨.through shown, fun breakdown broken => nomatch shown.symm.trans broken⟩
  | refusal text =>
    rw [asked] at explains
    exact ⟨.refused rfl text rfl explains, nofun⟩
  | request verbose request => exact (unasked verbose request asked).elim

/-- **How runs end.** Whatever a command line asks for and whatever the files are,

* a run goes through with exit code 0; or it ends with exit code 1 and an error message behind its
  events; or it ends with exit code 2 and nothing but a message on how the program is called; or it
  breaks down, with no message at all;
* the messages are printed, whichever events are;
* a run breaks down just when the command line makes a request that does, and for its cause. -/
theorem run_ends [Runtime] (world : World) (arguments : List Text) :
    let outcome := (run world arguments).2
    outcome.Ended ∧
    (∀ threshold stamp, outcome.ending = .exit 1 → alarm <:+: outcome.printed threshold stamp) ∧
    (∀ threshold stamp, outcome.ending = .exit 2 → calling <:+: outcome.printed threshold stamp) ∧
    ∀ breakdown, outcome.ending = .broken breakdown ↔ ∃ verbose request,
      Request.read arguments = .request verbose request ∧
        request.Breaks world.tree breakdown := by
  intro outcome
  have ended : outcome.Ended ∧ ∀ breakdown, outcome.ending = .broken breakdown ↔
      ∃ verbose request, Request.read arguments = .request verbose request ∧
        request.Breaks world.tree breakdown := by
    by_cases asked : ∃ verbose request, Request.read arguments = .request verbose request
    · obtain ⟨verbose, request, asked⟩ := asked
      obtain ⟨ended, breaks⟩ := @run_of_request _ world _ _ _ asked
      refine ⟨ended, fun breakdown => (breaks breakdown).trans ⟨fun broken => ?_, ?_⟩⟩
      · exact ⟨verbose, request, asked, broken⟩
      · rintro ⟨_, _, asked', broken⟩
        rw [asked] at asked'
        cases asked'
        exact broken
    · simp only [not_exists] at asked
      obtain ⟨ended, unbroken⟩ := @run_of_no_request _ world _ asked
      refine ⟨ended, fun breakdown => ⟨fun broken => (unbroken breakdown broken).elim, ?_⟩⟩
      rintro ⟨verbose, request, asked', -⟩
      exact (asked verbose request asked').elim
  refine ⟨ended.1, fun threshold stamp failed => ?_, fun threshold stamp refused => ?_, ended.2⟩
  · cases ended.1 with
    | failed _ events text notices begins =>
      exact infix_printed notices begins (fun _ => isSurrogate_ofChars) threshold stamp
    | through other | refused other | broken _ other =>
      rw [failed] at other
      cases other
  · cases ended.1 with
    | refused _ text notices begins =>
      have behind := notices.trans (List.nil_append _).symm
      exact infix_printed behind begins (fun _ => isSurrogate_ofChars) threshold stamp
    | through other | failed other | broken _ other =>
      rw [refused] at other
      cases other

/-- A folder in place of a source, and a script without entries. -/
def folderTree : Tree :=
  [([Charset.utf8.row "d"], .folder), ([Charset.utf8.row "e.json"], .file (Charset.utf8.row "[]"))]

/-- **A source that is a folder**: the run breaks down and prints nothing. -/
theorem run_ends_folder :
    (run ⟨folderTree, none⟩ ["apply", "d", "e.json"]).2.ending =
        .broken (.file .isFolder ⟨[], ["d"]⟩) ∧
      (run ⟨folderTree, none⟩ ["apply", "d", "e.json"]).2.notices = [] := by
  have asked : Request.read ["apply", "d", "e.json"] = .request false
      (.apply (some ⟨[], ["d"]⟩) (some ⟨[], ["e.json"]⟩) ⟨none, false, some "utf-8", []⟩) := by
    decide +kernel
  have there : folderTree.leadsSomewhere ⟨[], ["d"]⟩ = .ok true := by decide +kernel
  have there' : folderTree.leadsSomewhere ⟨[], ["e.json"]⟩ = .ok true := by decide +kernel
  have folder : folderTree.readFile ⟨[], ["d"]⟩ = .error .isFolder := by decide +kernel
  refine ⟨((@run_of_request _ ⟨folderTree, none⟩ _ _ _ asked).2 _).mpr
    (.applyFiles (.sourceFolder there there' folder)), ?_⟩
  have silent : (run ⟨folderTree, none⟩ ["apply", "d", "e.json"]).2.notices.isEmpty = true := by
    decide +kernel
  exact List.isEmpty_iff.mp silent

end Splice
