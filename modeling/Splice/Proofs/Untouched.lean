/-
**Runs that fail before they write.**

Much can be wrong with a command before it writes: a file is missing, the script cannot be loaded or has
a range outside the text, a variable has no name, the encoding is unknown, or two edits clash. All of it
is found out before a file is opened for writing or an octet is put out, also if the text is to be written
piece by piece, and also if several things are wrong at once. So nothing is written.

Such a command says what is wrong and exits with code 1, except where it fails to look something up or
to read it: a name that is too long for a file, an operand or a value that a lone divider has taken
away, and a script that is nested deeper than the machine reads. There it breaks down.

* `Command.Faulty`: what can be wrong with a command before it writes;
* `Command.Ordinary`: files that are missing or hold what they should;
* `Command.Overlooks`: what a command fails to look up or to read;
* `run_untouched`: a run of a command that is faulty;
* `run_untouched_long`: a run that breaks down over a missing file.
-/

import Splice.Proofs.Endings
import Splice.Proofs.Rewriting

namespace Splice

/-! ### Bindings -/

namespace Variable

theorem splitAt?_eq_some {mark : CodePoint} {text front back : Text}
    (found : Text.splitAt? mark text = some (front, back)) :
    text = front ++ mark :: back ∧ mark ∉ front := by
  induction text generalizing front with
  | nil => cases found
  | cons point rest ih =>
    rw [Text.splitAt?] at found
    split at found
    · rename_i here
      cases found
      exact ⟨by rw [here]; rfl, List.not_mem_nil⟩
    · rename_i other
      obtain ⟨⟨before, after⟩, later, same⟩ := Option.map_eq_some_iff.mp found
      cases same
      obtain ⟨rfl, absent⟩ := ih later
      exact ⟨rfl, List.mem_cons.not.mpr (not_or.mpr ⟨Ne.symm other, absent⟩)⟩

theorem spells_of_parse? {binding : Text} {pair : Text × Text}
    (parsed : parse? binding = some pair) : Spells (some binding) pair := by
  unfold parse? at parsed
  split at parsed
  · rename_i name value found
    obtain ⟨rfl, absent⟩ := splitAt?_eq_some found
    split at parsed
    · cases parsed
    · rename_i named
      cases parsed
      exact ⟨rfl, fun empty => named (List.isEmpty_iff.mpr empty), absent⟩
  · cases parsed

/-- **Bindings that are collected** all spell a name and a value. -/
theorem spells_of_collect {record after : Record} {bindings : List SwitchValue}
    (collected : collect record bindings = .ok after) :
    ∀ binding ∈ bindings, ∃ pair, Spells binding pair := by
  induction bindings generalizing record with
  | nil => exact fun _ member => (List.not_mem_nil member).elim
  | cons binding rest ih =>
    cases binding with
    | none => cases collected
    | some binding =>
      unfold collect at collected
      split at collected
      · cases collected
      · rename_i name value parsed
        exact List.forall_mem_cons.mpr ⟨⟨(name, value), spells_of_parse? parsed⟩, ih collected⟩

theorem none_mem_of_lost {record : Record} {bindings : List SwitchValue}
    (lost : collect record bindings = .error .lost) : none ∈ bindings := by
  induction bindings generalizing record with
  | nil => cases lost
  | cons binding rest ih =>
    cases binding with
    | none => exact List.mem_cons_self
    | some binding =>
      unfold collect at lost
      split at lost
      · cases lost
      · exact List.mem_cons_of_mem _ (ih lost)

/-- A binding that spells a name and a value has an equals sign, and not at its beginning. -/
theorem Spells.shape {binding : Text} {pair : Text × Text} (spells : Spells (some binding) pair) :
    .scalar '=' ∈ binding ∧ binding.head? ≠ some (.scalar '=') := by
  obtain ⟨written, named, absent⟩ := spells
  obtain rfl := Option.some.inj written
  refine ⟨List.mem_append_right _ List.mem_cons_self, fun first => absent ?_⟩
  rw [List.head?_append_of_ne_nil _ named] at first
  exact List.mem_of_head? first

end Variable

namespace Command

/-! ### Faults -/

section Faults

variable [Runtime]

/-- Something is wrong with a command before it writes: the source or the script is missing, the script
does not load, a range does not lie in the text, a binding has no equals sign or no name in front of it,
no encoding has the name, or edits of the script clash. -/
inductive Faulty (tree : Tree) (source operand : Operand) (options : ApplyOptions) : Prop
  | noSource {name : PathName} (named : source = some name)
      (missing : ∀ octets, tree.readFile name ≠ .ok octets)
  | noScript {name : PathName} (named : operand = some name)
      (missing : ∀ octets, tree.readFile name ≠ .ok octets)
  | unloaded {name : PathName} {octets : Bytes} (named : operand = some name)
      (holds : tree.readFile name = .ok octets)
      (spoilt : ∀ script : Script, ¬ script.LoadsFrom tree operand)
  | outside {chars : List Char} {script : Script} {entry : Entry}
      (reads : tree.Spells source chars) (loads : script.LoadsFrom tree operand)
      (member : entry ∈ script) (outside : entry.span.within chars.length = false)
  | shapeless {binding : Text} (member : some binding ∈ options.bindings)
      (shapeless : .scalar '=' ∉ binding ∨ binding.head? = some (.scalar '='))
  | unknown {label : Text} {fault : Charset.NameFault} (labelled : options.encoding = some label)
      (unknown : Codecs.named label = .error fault)
  | clashing {chars : List Char} {script : Script} {clash : Clash}
      (reads : tree.Spells source chars) (loads : script.LoadsFrom tree operand)
      (clashes : (script.draftOver (Text.ofChars chars)).plan.result = .error clash)

/-- The source and the script are files or missing, and the source is in UTF-8 if it is there. -/
structure Ordinary (tree : Tree) (source operand : Operand) : Prop where
  sourceNoFolder : ∀ name, source = some name → tree.readFile name ≠ .error .isFolder
  scriptNoFolder : ∀ name, operand = some name → tree.readFile name ≠ .error .isFolder
  decodes : ∀ name octets, source = some name → tree.readFile name = .ok octets →
    ∃ chars, Utf8.decode octets = .ok chars

/-- A command fails to look something up, a file whose name is too long, or an operand or a value that a
lone divider has taken away, or it fails to read a script that is nested too deep. -/
inductive Overlooks (tree : Tree) (source operand : Operand) (options : ApplyOptions) :
    Breakdown → Prop
  | lostOperand (lost : source = none ∨ operand = none) :
      Overlooks tree source operand options .lostOperand
  | longName {name : PathName} (named : source = some name ∨ operand = some name)
      (long : tree.leadsSomewhere name = .error .longName) :
      Overlooks tree source operand options (.file .longName name)
  | lostVariable (lost : none ∈ options.bindings) :
      Overlooks tree source operand options .lostVariable
  | lostEncoding (lost : options.encoding = none) :
      Overlooks tree source operand options .lostEncoding
  | deepScript {written : List Char} {fault : Script.Fault} (spells : tree.Spells operand written)
      (unparsed : Script.parse (Text.ofChars (unifiedLines written)) = .error fault)
      (deep : fault.isDepth = true) :
      Overlooks tree source operand options (.failure (.script fault))

variable {tree : Tree} {source operand : Operand} {options : ApplyOptions} {draft : Draft}
  {context : Context} {label : Text} {breakdown : Breakdown}

theorem loadsFrom_unique {script other : Script} (loads : script.LoadsFrom tree operand)
    (loads' : other.LoadsFrom tree operand) : script = other := by
  obtain ⟨chars, spells, parses⟩ := loads
  obtain ⟨chars', spells', parses'⟩ := loads'
  obtain rfl := spells_unique spells spells'
  rw [parses] at parses'
  exact Except.ok.inj parses'

omit [Runtime] in
theorem spells_of_contextOf {bindings : List SwitchValue} (bound : contextOf bindings = .ok context) :
    ∀ binding ∈ bindings, ∃ pair, Variable.Spells binding pair := by
  unfold contextOf at bound
  split at bound
  · cases bound
  · cases bound
  · rename_i record collected
    exact Variable.spells_of_collect collected

theorem encodingOf_of_unknown {fault : Charset.NameFault} (unknown : Codecs.named label = .error fault) :
    ∃ text, encodingOf (some label) = .error (errorLine text) := by
  unfold encodingOf
  cases fault <;>
    · simp only [unknown]
      exact ⟨_, rfl⟩

/-- **A command that is faulty** does not come to writing. -/
theorem Faulty.unprepared (faulty : Faulty tree source operand options) :
    ¬ Prepared tree source operand options draft context label := by
  rintro ⟨drafted, bound, known, kept, planned⟩
  obtain ⟨chars, script, reads, loads, within, rfl⟩ := draftOf_ok_iff.mp drafted
  -- whatever is wrong is examined on the way, whichever fault is met first
  cases faulty with
  | noSource named missing =>
    obtain ⟨_, octets, same, holds, -⟩ := reads
    cases named.symm.trans same
    exact missing octets holds
  | noScript named missing =>
    obtain ⟨_, ⟨_, octets, same, holds, -⟩, -⟩ := loads
    cases named.symm.trans same
    exact missing octets holds
  | unloaded named holds spoilt => exact spoilt script loads
  | outside reads' loads' member outside =>
    obtain rfl := spells_unique reads reads'
    obtain rfl := loadsFrom_unique loads loads'
    have inside := within _ member
    rw [Text.ofChars, List.length_map, outside] at inside
    cases inside
  | shapeless member shapeless =>
    obtain ⟨pair, spells⟩ := spells_of_contextOf bound _ member
    obtain ⟨sign, named⟩ := spells.shape
    exact shapeless.elim (· sign) named
  | unknown labelled unknown =>
    obtain ⟨text, failed⟩ := encodingOf_of_unknown unknown
    rw [labelled, failed] at known
    cases known
  | clashing reads' loads' clashes =>
    obtain rfl := spells_unique reads reads'
    obtain rfl := loadsFrom_unique loads loads'
    rw [clashes] at planned
    cases planned

/-- A command that is faulty and whose files are as they should be breaks down only over what it fails
to look up or to read. -/
theorem Faulty.overlooks (faulty : Faulty tree source operand options)
    (ordinary : Ordinary tree source operand)
    (breaks : (Request.apply source operand options).Breaks tree breakdown) :
    Overlooks tree source operand options breakdown := by
  cases breaks with
  | applyFiles files =>
    cases files with
    | sourceLost => exact .lostOperand (Or.inl rfl)
    | sourceLong long => exact .longName (Or.inl rfl) long
    | scriptLost => exact .lostOperand (Or.inr rfl)
    | scriptLong _ long => exact .longName (Or.inr rfl) long
    | sourceFolder _ _ folder => exact (ordinary.sourceNoFolder _ rfl folder).elim
    | sourceFlawed _ holds flawed =>
      obtain ⟨chars, decodes⟩ := ordinary.decodes _ _ rfl holds
      rw [flawed] at decodes
      cases decodes
    | scriptFolder _ _ folder => exact (ordinary.scriptNoFolder _ rfl folder).elim
    | scriptDeep _ spells unparsed deep => exact .deepScript spells unparsed deep
  | lostVariable _ lost => exact .lostVariable (Variable.none_mem_of_lost lost)
  | lostEncoding _ _ lost => exact .lostEncoding lost
  | unfitWhole prepared => exact (faulty.unprepared prepared).elim
  | unfitPiece prepared => exact (faulty.unprepared prepared).elim
  | unopened prepared => exact (faulty.unprepared prepared).elim

end Faults

end Command

/-- **A run that fails before it writes** leaves everything as it was. Let a command be asked to apply a
script, to the output or to a file, as a whole or piece by piece, and let the source and the script be
files or missing, the source in UTF-8. If something is wrong with the command before it writes, then

* nothing is put out, and no file has been made, emptied or changed;
* the run exits with code 1 and an error message behind its events, or it breaks down over what it fails
  to look up or to read. -/
theorem run_untouched [Runtime] {world : World} {arguments : List Text} {verbose : Bool}
    {source operand : Operand} {options : ApplyOptions}
    (asked : Request.read arguments = .request verbose (.apply source operand options))
    (ordinary : Command.Ordinary world.tree source operand)
    (faulty : Command.Faulty world.tree source operand options) :
    let outcome := (run world arguments).2
    outcome.output = [] ∧ outcome.tree = world.tree ∧
      ((∃ events text, outcome.ending = .exit 1 ∧
          outcome.notices = Command.noted events ++ [.message text] ∧ alarm <+: text) ∨
        ∃ breakdown, outcome.ending = .broken breakdown ∧
          Command.Overlooks world.tree source operand options breakdown) := by
  intro outcome
  obtain ⟨notices, halt, same⟩ := Command.apply_of_unprepared fun draft context label =>
    @Command.Faulty.unprepared _ world.tree source operand options draft context label faulty
  have halts : outcome = Command.halted notices halt [] world.tree := (run_of_apply asked).trans same
  obtain ⟨ended, breaks⟩ := @run_of_request _ world _ _ _ asked
  refine ⟨by rw [halts]; rfl, by rw [halts]; rfl, ?_⟩
  have exits : outcome.ending = halt.ending := congrArg Outcome.ending halts
  cases ended with
  | through ending => exact (halt.ending_ne (exits.symm.trans ending)).elim
  | failed ending events text notices begins => exact Or.inl ⟨events, text, ending, notices, begins⟩
  | refused ending =>
    have other : halt.ending ≠ .exit 2 := by cases halt <;> exact nofun
    exact (other (exits.symm.trans ending)).elim
  | broken breakdown ending =>
    exact Or.inr ⟨breakdown, ending, faulty.overlooks ordinary ((breaks breakdown).mp ending)⟩

/-- Two removals that cross. -/
def crossedDocument : String := "[\x7b\"start\": 0, \"end\": 3\x7d, \x7b\"start\": 2, \"end\": 5\x7d]"

/-- A source, a script whose edits clash, and a file that is there already. -/
def crossedTree : Tree :=
  [([Charset.utf8.row "s.txt"], .file (Charset.utf8.row "abcdef")),
    ([Charset.utf8.row "e.json"], .file (Charset.utf8.row crossedDocument)),
    ([Charset.utf8.row "out.txt"], .file (Charset.utf8.row "old"))]

/-- A command that is to write piece by piece to the file. -/
def crossedLine : List Text := ["apply", "s.txt", "e.json", "-o", "out.txt", "--stream"]

theorem run_untouched_crossed :
    (run ⟨crossedTree, none⟩ crossedLine).2.ending = .exit 1 ∧
      (run ⟨crossedTree, none⟩ crossedLine).2.output = [] ∧
      (run ⟨crossedTree, none⟩ crossedLine).2.tree.readFile ⟨[], ["out.txt"]⟩ =
        .ok (Charset.utf8.row "old") := by
  let source : PathName := ⟨[], ["s.txt"]⟩
  let script : PathName := ⟨[], ["e.json"]⟩
  let options : ApplyOptions := ⟨some ⟨[], ["out.txt"]⟩, true, some "utf-8", []⟩
  let entries : Script := [⟨0, none, some 3, "", false⟩, ⟨2, none, some 5, "", false⟩]
  have asked : Request.read crossedLine =
      .request false (.apply (some source) (some script) options) := by decide +kernel
  have holds : crossedTree.readFile source = .ok (Charset.utf8.row "abcdef") := by decide +kernel
  have holds' : crossedTree.readFile script = .ok (Charset.utf8.row crossedDocument) := by
    decide +kernel
  have decodes : Utf8.decode (Charset.utf8.row "abcdef") = .ok "abcdef".toList := by decide +kernel
  have ordinary : Command.Ordinary crossedTree (some source) (some script) := by
    refine ⟨?_, ?_, ?_⟩
    · rintro _ ⟨⟩ folder
      rw [holds] at folder
      cases folder
    · rintro _ ⟨⟩ folder
      rw [holds'] at folder
      cases folder
    · rintro _ octets ⟨⟩ found
      rw [holds] at found
      cases found
      exact ⟨_, decodes⟩
  have parses : (Script.parse (Text.ofChars (Command.unifiedLines crossedDocument.toList))).toOption =
      some entries := by decide +kernel
  have loads : entries.LoadsFrom crossedTree (some script) :=
    ⟨crossedDocument.toList, ⟨script, _, rfl, holds', by decide +kernel⟩, eq_ok_of_toOption parses⟩
  let clash : Clash := ⟨⟨⟨0, 3⟩, 1, .fixed ""⟩, ⟨⟨2, 5⟩, 2, .fixed ""⟩⟩
  have clashes : (entries.draftOver "abcdef").plan.result = .error clash := by cbv
  have faulty : Command.Faulty crossedTree (some source) (some script) options :=
    .clashing ⟨source, _, rfl, holds, decodes⟩ loads clashes
  obtain ⟨silent, unmoved, ⟨_, _, ending, -⟩ | ⟨breakdown, -, overlooks⟩⟩ :=
    @run_untouched _ ⟨crossedTree, none⟩ _ _ _ _ _ asked ordinary faulty
  · exact ⟨ending, silent, by rw [unmoved]; decide +kernel⟩
  · cases overlooks with
    | lostOperand lost => simp at lost
    | longName named long =>
      rcases named with ⟨⟨⟩⟩ | ⟨⟨⟩⟩
      · rw [Tree.leadsSomewhere_of_readFile holds] at long
        cases long
      · rw [Tree.leadsSomewhere_of_readFile holds'] at long
        cases long
    | lostVariable lost => cases lost
    | lostEncoding lost => cases lost
    | deepScript spells unparsed deep =>
      obtain ⟨written, spells', parsed⟩ := loads
      obtain rfl := Command.spells_unique spells spells'
      rw [parsed] at unparsed
      cases unparsed

/-- A name of a file that is too long to be looked up. -/
def longName : Text := List.replicate 256 (.scalar 'a')

/-- A script without entries, and nothing else. -/
def lonelyTree : Tree := [([Charset.utf8.row "e.json"], .file (Charset.utf8.row "[]"))]

/-- **A missing source whose name is too long**: the command is faulty and the script is a file, but the
run breaks down instead of exiting with code 1. -/
theorem run_untouched_long :
    Request.read ["apply", longName, "e.json"] = .request false
        (.apply (some ⟨[], [longName]⟩) (some ⟨[], ["e.json"]⟩) ⟨none, false, some "utf-8", []⟩) ∧
      Command.Ordinary lonelyTree (some ⟨[], [longName]⟩) (some ⟨[], ["e.json"]⟩) ∧
      Command.Faulty lonelyTree (some ⟨[], [longName]⟩) (some ⟨[], ["e.json"]⟩)
        ⟨none, false, some "utf-8", []⟩ ∧
      (run ⟨lonelyTree, none⟩ ["apply", longName, "e.json"]).2.ending =
        .broken (.file .longName ⟨[], [longName]⟩) := by
  have asked : Request.read ["apply", longName, "e.json"] = .request false
      (.apply (some ⟨[], [longName]⟩) (some ⟨[], ["e.json"]⟩) ⟨none, false, some "utf-8", []⟩) := by
    decide +kernel
  have long : lonelyTree.leadsSomewhere ⟨[], [longName]⟩ = .error .longName := by decide +kernel
  have missing : lonelyTree.readFile ⟨[], [longName]⟩ = .error .longName := by decide +kernel
  have holds : lonelyTree.readFile ⟨[], ["e.json"]⟩ = .ok (Charset.utf8.row "[]") := by
    decide +kernel
  refine ⟨asked, ⟨?_, ?_, ?_⟩, .noSource rfl fun octets found => ?_, ?_⟩
  · rintro _ ⟨⟩ folder
    rw [missing] at folder
    cases folder
  · rintro _ ⟨⟩ folder
    rw [holds] at folder
    cases folder
  · rintro _ octets ⟨⟩ found
    rw [missing] at found
    cases found
  · rw [missing] at found
    cases found
  · exact ((@run_of_request _ ⟨lonelyTree, none⟩ _ _ _ asked).2 _).mpr (.applyFiles (.sourceLong long))

end Splice
