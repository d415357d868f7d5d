/-
**Files that a failing run empties.**

A run that does not write piece by piece settles nearly everything before it opens its file: that
there is a script, a plan and a text. Only the octets of the text are sought after the file has been
opened, and opening empties it. So a run that fails leaves all files as they were, but for one case:
there is a text, and its encoding has no octets for it. Then the file is empty, or there is an empty
file where there was none, and be it the source itself.

* `Codecs.Lacks`: an encoding, or what goes by its name, has no octets for a text;
* `Command.Empties`: a command that comes to open its file and has no octets for it;
* `run_failing`: runs that fail;
* `run_failing_source`: a source that is lost.
-/

import Mathlib
import Splice.Proofs.Applying

namespace Splice

/-- What goes by a name has no octets for a text: it is no encoding of texts, or it cannot store the text. -/
def Codecs.Lacks [Codecs] (label text : Text) : Prop :=
  Codecs.named label = .ok .transformation ∨
    ∃ codec fault, Codecs.named label = .ok (.codec codec) ∧ codec.store text = .error fault

namespace Command

section Failing

variable [Runtime] {tree emptied : Tree} {source operand : Operand} {options : ApplyOptions}
  {name : PathName} {label text : Text} {draft : Draft} {context : Context} {notices : List Notice}

/-- The command comes to open its file, which is empty then, and has no octets for it. -/
def Empties (tree : Tree) (source operand : Operand) (options : ApplyOptions) (name : PathName)
    (emptied : Tree) : Prop :=
  ∃ draft context label text, Prepared tree source operand options draft context label ∧
    (draft.render context []).result = .ok text ∧ Codecs.Lacks label text ∧
    options.output = some name ∧ tree.writeFile name [] = .ok emptied

/-- A prepared command knows what goes by the name of its encoding. -/
theorem named_of_encodingOf {value : SwitchValue} (known : encodingOf value = .ok label) :
    ∃ named, Codecs.named label = .ok named := by
  unfold encodingOf at known
  split at known
  · cases known
  · split at known
    · rename_i found
      obtain rfl := Except.ok.inj known
      exact ⟨_, found⟩
    · cases known
    · cases known

/-- **Without octets** a command halts with a message. -/
theorem fileOctets_of_lacks (lacks : Codecs.Lacks label text) :
    ∃ failure, fileOctets label text = .error failure ∧ (haltOf failure).ending = .exit 1 := by
  rcases lacks with transformed | ⟨codec, fault, found, failed⟩
  · unfold fileOctets Codecs.ofName
    simp only [transformed]
    exact ⟨_, rfl, rfl⟩
  · rw [fileOctets_eq found, failed]
    exact ⟨_, rfl, rfl⟩

theorem lacks_of_fileOctets {named : Codec.Named} {failure : Failure}
    (known : Codecs.named label = .ok named) (failed : fileOctets label text = .error failure) :
    Codecs.Lacks label text := by
  cases named with
  | transformation => exact Or.inl known
  | codec codec =>
    rw [fileOctets_eq known] at failed
    cases stored : codec.store text with
    | error fault => exact Or.inr ⟨codec, fault, known, stored⟩
    | ok octets =>
      rw [stored] at failed
      cases failed

/-! ### Commands that fail -/

/-- **A file that cannot be written in its encoding** is left empty. -/
theorem writeToFile_of_lacks (rendered : (draft.render context []).result = .ok text)
    (lacks : Codecs.Lacks label text) (opened : tree.writeFile name [] = .ok emptied) :
    let outcome := writeToFile tree notices draft context label name
    outcome.ending = .exit 1 ∧ outcome.output = [] ∧ outcome.tree = emptied := by
  obtain ⟨failure, failed, message⟩ := fileOctets_of_lacks lacks
  unfold writeToFile
  simp only [rendered, opened, failed]
  exact ⟨message, rfl, rfl⟩

/-- A command that fails to write its file has left everything as it was, or the file empty. -/
theorem writeToFile_failing {named : Codec.Named} (known : Codecs.named label = .ok named)
    (failed : (writeToFile tree notices draft context label name).ending ≠ .exit 0) :
    (writeToFile tree notices draft context label name).output = [] ∧
      ((writeToFile tree notices draft context label name).tree = tree ∨
        ∃ text, (draft.render context []).result = .ok text ∧ Codecs.Lacks label text ∧
          tree.writeFile name [] = .ok (writeToFile tree notices draft context label name).tree) := by
  unfold writeToFile at failed ⊢
  dsimp only at failed ⊢
  split
  · exact ⟨rfl, Or.inl rfl⟩
  · rename_i text rendered
    simp only [rendered] at failed
    split
    · exact ⟨rfl, Or.inl rfl⟩
    · rename_i emptied opened
      simp only [opened] at failed
      split
      · rename_i failure unwritten
        exact ⟨rfl, Or.inr ⟨text, rendered, lacks_of_fileOctets known unwritten, opened⟩⟩
      · rename_i octets written
        simp only [written] at failed
        exact (failed rfl).elim

/-- A text that cannot be shown leaves everything as it was. -/
theorem shown_failing {more : List Notice} (failed : (shown tree notices text more).ending ≠ .exit 0) :
    (shown tree notices text more).output = [] ∧ (shown tree notices text more).tree = tree := by
  unfold shown at failed ⊢
  split
  · exact ⟨rfl, rfl⟩
  · rename_i octets printed
    simp only [printed] at failed
    exact (failed rfl).elim

theorem writeToOutput_failing (failed : (writeToOutput tree notices draft context).ending ≠ .exit 0) :
    (writeToOutput tree notices draft context).output = [] ∧
      (writeToOutput tree notices draft context).tree = tree := by
  unfold writeToOutput at failed ⊢
  dsimp only at failed ⊢
  split
  · exact ⟨rfl, rfl⟩
  · rename_i text rendered
    simp only [rendered] at failed
    split
    · exact ⟨rfl, rfl⟩
    · rename_i octets encoded
      simp only [encoded] at failed
      exact (failed rfl).elim

theorem plan_failing (failed : (plan tree source operand).ending ≠ .exit 0) :
    (plan tree source operand).output = [] ∧ (plan tree source operand).tree = tree := by
  unfold plan at failed ⊢
  dsimp only at failed ⊢
  split
  · exact ⟨rfl, rfl⟩
  · rename_i draft drafted
    simp only [drafted] at failed
    split
    · exact ⟨rfl, rfl⟩
    · rename_i kept planned
      simp only [planned] at failed
      exact shown_failing failed

/-- **A command that fails** has left everything as it was, or its file empty. -/
theorem apply_failing (whole : options.stream = false)
    (failed : (apply tree source operand options).ending ≠ .exit 0) :
    (apply tree source operand options).output = [] ∧
      ((apply tree source operand options).tree = tree ∨
        ∃ name, Empties tree source operand options name
          (apply tree source operand options).tree) := by
  -- a command that is not prepared has not come to its file, a prepared one fails in writing it
  by_cases ready : ∃ draft context label, Prepared tree source operand options draft context label
  · obtain ⟨draft, context, label, prepared⟩ := ready
    obtain ⟨notices, same⟩ := apply_of_prepared prepared
    obtain ⟨named, known⟩ := named_of_encodingOf prepared.known
    rw [same, whole] at failed ⊢
    cases toFile : options.output with
    | none =>
      rw [toFile] at failed
      obtain ⟨silent, kept⟩ := writeToOutput_failing failed
      exact ⟨silent, Or.inl kept⟩
    | some name =>
      rw [toFile] at failed
      obtain ⟨silent, kept | ⟨text, rendered, lacks, opened⟩⟩ := writeToFile_failing known failed
      · exact ⟨silent, Or.inl kept⟩
      · exact ⟨silent, Or.inr ⟨name, draft, context, label, text, prepared, rendered, lacks, toFile,
          opened⟩⟩
  · simp only [not_exists] at ready
    obtain ⟨notices, halt, same⟩ := apply_of_unprepared ready
    rw [same]
    exact ⟨rfl, Or.inl rfl⟩

/-- A command that empties its file fails with a message. -/
theorem apply_of_empties (whole : options.stream = false)
    (empties : Empties tree source operand options name emptied) :
    (apply tree source operand options).ending = .exit 1 ∧
      (apply tree source operand options).output = [] ∧
      (apply tree source operand options).tree = emptied := by
  obtain ⟨draft, context, label, text, prepared, rendered, lacks, toFile, opened⟩ := empties
  obtain ⟨notices, same⟩ := apply_of_prepared prepared
  rw [same, whole, toFile]
  exact writeToFile_of_lacks rendered lacks opened

end Failing

end Command

/-- **Runs that fail.** Let a command line not ask for writing piece by piece. If its run does not end
with exit code 0, then

* nothing has been written to the output; and
* all files are as they were, unless the run has come to empty its file.

It comes to this just when everything is prepared, there is a text, its encoding has no octets for it,
and the file can be written; such a run always fails. -/
theorem run_failing [Runtime] {world : World} {arguments : List Text}
    (whole : ∀ verbose source operand options,
      Request.read arguments = .request verbose (.apply source operand options) →
        options.stream = false) :
    let outcome := (run world arguments).2
    (outcome.ending ≠ .exit 0 → outcome.output = [] ∧
      (outcome.tree = world.tree ∨ ∃ verbose source operand options name,
        Request.read arguments = .request verbose (.apply source operand options) ∧
        Command.Empties world.tree source operand options name outcome.tree)) ∧
    ∀ verbose source operand options name emptied,
      Request.read arguments = .request verbose (.apply source operand options) →
      Command.Empties world.tree source operand options name emptied →
      outcome.ending = .exit 1 ∧ outcome.output = [] ∧ outcome.tree = emptied ∧
        outcome.tree.readFile name = .ok [] := by
  intro outcome
  constructor
  · show (run world arguments).2.ending ≠ .exit 0 → (run world arguments).2.output = [] ∧
      ((run world arguments).2.tree = world.tree ∨ ∃ verbose source operand options name,
        Request.read arguments = .request verbose (.apply source operand options) ∧
        Command.Empties world.tree source operand options name (run world arguments).2.tree)
    intro failed
    cases asked : Request.read arguments with
    | display text =>
      unfold run at failed ⊢
      rw [asked] at failed ⊢
      obtain ⟨silent, kept⟩ := Command.shown_failing failed
      exact ⟨silent, Or.inl kept⟩
    | refusal text =>
      unfold run
      rw [asked]
      exact ⟨rfl, Or.inl rfl⟩
    | request verbose request =>
      cases request with
      | plan source operand =>
        unfold run at failed ⊢
        rw [asked] at failed ⊢
        obtain ⟨silent, kept⟩ := Command.plan_failing failed
        exact ⟨silent, Or.inl kept⟩
      | apply source operand options =>
        rw [run_of_apply asked] at failed ⊢
        obtain ⟨silent, kept | ⟨name, empties⟩⟩ :=
          Command.apply_failing (whole verbose source operand options asked) failed
        · exact ⟨silent, Or.inl kept⟩
        · exact ⟨silent, Or.inr ⟨verbose, source, operand, options, name, rfl, empties⟩⟩
  · intro verbose source operand options name emptied asked empties
    obtain ⟨message, silent, left⟩ :=
      Command.apply_of_empties (whole verbose source operand options asked) empties
    obtain ⟨_, _, _, _, _, _, _, _, opened⟩ := empties
    show (run world arguments).2.ending = .exit 1 ∧ (run world arguments).2.output = [] ∧
      (run world arguments).2.tree = emptied ∧ (run world arguments).2.tree.readFile name = .ok []
    rw [run_of_apply asked]
    refine ⟨message, silent, left, ?_⟩
    rw [left]
    exact Tree.readFile_of_writeFile opened

/-- A source that is not ASCII, and a script without entries. -/
def cafeTree : Tree :=
  [([Charset.utf8.row "s.txt"], .file (Charset.utf8.row "café")),
    ([Charset.utf8.row "e.json"], .file (Charset.utf8.row "[]"))]

/-- A command line that writes the source itself in an encoding. -/
def cafeLine (label : Text) : List Text :=
  ["apply", "s.txt", "e.json", "-o", "s.txt", "--encoding", label]

/-- What the command line asks for, beside the two files. -/
def cafeOptions (label : Text) : ApplyOptions := ⟨some ⟨[], ["s.txt"]⟩, false, some label, []⟩

theorem run_failing_transformed :
    (run ⟨cafeTree, none⟩ (cafeLine "rot13")).2.ending ≠ .exit 0 ∧
      (run ⟨cafeTree, none⟩ (cafeLine "rot13")).2.output = [] ∧
      ∃ name, Command.Empties cafeTree (some ⟨[], ["s.txt"]⟩) (some ⟨[], ["e.json"]⟩)
        (cafeOptions "rot13") name (run ⟨cafeTree, none⟩ (cafeLine "rot13")).2.tree := by
  have asked : Request.read (cafeLine "rot13") = .request false
      (.apply (some ⟨[], ["s.txt"]⟩) (some ⟨[], ["e.json"]⟩) (cafeOptions "rot13")) := by
    decide +kernel
  have whole : ∀ verbose source operand options,
      Request.read (cafeLine "rot13") = .request verbose (.apply source operand options) →
        options.stream = false := by
    intro verbose source operand options asked'
    rw [asked] at asked'
    cases asked'
    rfl
  have failed : (run ⟨cafeTree, none⟩ (cafeLine "rot13")).2.ending ≠ .exit 0 := by decide +kernel
  have changed : (run ⟨cafeTree, none⟩ (cafeLine "rot13")).2.tree ≠ cafeTree := by decide +kernel
  obtain ⟨silent, kept | ⟨_, _, _, _, name, asked', empties⟩⟩ :=
    (@run_failing _ ⟨cafeTree, none⟩ _ whole).1 failed
  · exact (changed kept).elim
  · rw [asked] at asked'
    cases asked'
    exact ⟨failed, silent, name, empties⟩

/-- **A source that is lost**: it is to be written in ASCII, and holds a character that is not. -/
theorem run_failing_source :
    cafeTree.readFile ⟨[], ["s.txt"]⟩ = .ok [0x63, 0x61, 0x66, 0xC3, 0xA9] ∧
      (run ⟨cafeTree, none⟩ (cafeLine "ascii")).2.ending = .exit 1 ∧
      (run ⟨cafeTree, none⟩ (cafeLine "ascii")).2.tree.readFile ⟨[], ["s.txt"]⟩ = .ok [] := by
  decide +kernel

end Splice
