/-
**The journal changes nothing.**

How much of its journal the program prints is said by a word from outside, and by a switch of the
command line that asks for every detail. Neither of them has any other effect: whatever the files and
the rest of the line are, the run ends in the same way, with the same output, the same messages and the
same files. Of the journal are printed just the events that reach the level in force, in their places
among the messages, and none of them unless the word or the switch asks for it.

* `Threshold.Spells`, `Threshold.named_of_spells`, `Threshold.named_of_unknown`: the words for levels, in
  any case, and all other words;
* `Reading.answer`, `run_answer`: the answer to what a line asks for;
* `Outcome.shown`, `Outcome.printed_eq`: what the error stream consists of;
* `run_journals`: runs with different journals.
-/

import Mathlib
import Splice.Command.Run
import Splice.Proofs.Charsets
import Splice.Proofs.Verbosity

namespace Splice

/-! ### Words for levels -/

/-- A code point that becomes a given letter in upper case: the letter in either case, or one of two
letters beside the ASCII ones. -/
def CodePoint.StandsFor (point : CodePoint) (capital : Char) : Prop :=
  point = .scalar capital ∨ point = .scalar capital.toLower ∨
    (capital = 'I' ∧ point = .scalar 'ı') ∨ (capital = 'S' ∧ point = .scalar 'ſ')

theorem toUpper_eq_iff {letter capital : Char} (upper : capital.isUpper = true) :
    letter.toUpper = capital ↔ letter = capital ∨ letter = capital.toLower := by
  have raised : capital.toUpper = capital :=
    Char.toUpper_eq_of_not_isLower (Char.not_isLower_of_isUpper upper)
  constructor
  · rintro rfl
    cases lower : letter.isLower with
    | true =>
      have kept : letter.toLower = letter :=
        Char.toLower_eq_of_not_isUpper (Char.not_isUpper_of_isLower lower)
      exact Or.inr (by rw [Char.toLower_toUpper_eq_toLower, kept])
    | false => exact Or.inl (Char.toUpper_eq_of_not_isLower (Bool.not_eq_true _ ▸ lower)).symm
  · rintro (rfl | rfl)
    · exact raised
    · rw [Char.toUpper_toLower_eq_toUpper, raised]

namespace Threshold

/-- A word that spells the name of a level, in whatever case. -/
def Spells (name : String) (word : Text) : Prop :=
  List.Forall₂ CodePoint.StandsFor word name.toList

theorem raised_eq_iff {capital : Char} (upper : capital.isUpper = true) {point : CodePoint} :
    raised point = .scalar capital ↔ point.StandsFor capital := by
  -- a letter that has no upper case among the ASCII letters is no case of one
  have apart (letter : Char) (wide : letter.toUpper.isUpper = false) :
      letter ≠ capital ∧ letter ≠ capital.toLower := by
    refine not_or.mp fun same => ?_
    rw [(toUpper_eq_iff upper).mpr same, upper] at wide
    cases wide
  unfold raised CodePoint.StandsFor
  split
  · obtain ⟨other, lower⟩ := apart 'ı' rfl
    refine ⟨fun same => Or.inr (Or.inr (Or.inl ⟨(CodePoint.scalar.inj same).symm, rfl⟩)), ?_⟩
    rintro (same | same | ⟨rfl, -⟩ | ⟨-, ⟨⟩⟩)
    · exact (other (CodePoint.scalar.inj same)).elim
    · exact (lower (CodePoint.scalar.inj same)).elim
    · rfl
  · obtain ⟨other, lower⟩ := apart 'ſ' rfl
    refine ⟨fun same => Or.inr (Or.inr (Or.inr ⟨(CodePoint.scalar.inj same).symm, rfl⟩)), ?_⟩
    rintro (same | same | ⟨-, ⟨⟩⟩ | ⟨rfl, -⟩)
    · exact (other (CodePoint.scalar.inj same)).elim
    · exact (lower (CodePoint.scalar.inj same)).elim
    · rfl
  · rename_i letter dotless long
    rw [CodePoint.scalar.injEq, toUpper_eq_iff upper]
    constructor
    · rintro (same | same)
      · exact Or.inl (congrArg _ same)
      · exact Or.inr (Or.inl (congrArg _ same))
    · rintro (same | same | ⟨-, same⟩ | ⟨-, same⟩)
      · exact Or.inl (CodePoint.scalar.inj same)
      · exact Or.inr (CodePoint.scalar.inj same)
      · exact (dotless (CodePoint.scalar.inj same)).elim
      · exact (long (CodePoint.scalar.inj same)).elim
  · rename_i other
    refine ⟨fun same => (other _ same).elim, ?_⟩
    rintro (same | same | ⟨-, same⟩ | ⟨-, same⟩) <;> exact (other _ same).elim

theorem spells_iff {name : String} (upper : ∀ letter ∈ name.toList, letter.isUpper = true)
    {word : Text} : Spells name word ↔ word.map raised = Text.ofString name := by
  unfold Spells Text.ofString
  generalize name.toList = letters at upper
  induction letters generalizing word with
  | nil => cases word <;> simp
  | cons letter rest ih =>
    obtain ⟨here, others⟩ := List.forall_mem_cons.mp upper
    cases word with
    | nil => simp
    | cons point word =>
      rw [List.forall₂_cons, ih others, List.map_cons, List.map_cons, List.cons.injEq,
        raised_eq_iff here]

theorem words_upper : ∀ entry ∈ words, ∀ letter ∈ entry.1.toList, letter.isUpper = true := by
  simp [words]

theorem named_congr {word other : Text} (same : word.map raised = other.map raised) :
    named word = named other := by
  unfold named
  rw [same]

/-- **A word for a level**, in any case. -/
theorem named_of_spells {name : String} {threshold : Threshold} {word : Text}
    (known : (name, threshold) ∈ words) (spells : Spells name word) : named word = threshold := by
  have table : ∀ entry ∈ words, (Text.ofString entry.1).map raised = Text.ofString entry.1 ∧
      named (Text.ofString entry.1) = entry.2 := by decide
  obtain ⟨same, level⟩ := table _ known
  have alike := (spells_iff (words_upper _ known)).mp spells
  exact (named_congr (alike.trans same.symm)).trans level

/-- **Any other word.** -/
theorem named_of_unknown {word : Text} (unknown : ∀ entry ∈ words, ¬ Spells entry.1 word) :
    named word = warnings := by
  unfold named
  dsimp only
  rw [List.find?_eq_none.mpr fun entry known same => unknown entry known ?_]
  · rfl
  · exact (spells_iff (words_upper _ known)).mpr (of_decide_eq_true same).symm

theorem named_getD_of_unknown {word : Option Text}
    (unknown : ∀ given, word = some given → ∀ entry ∈ words, ¬ Spells entry.1 given) :
    named (word.getD "WARNING") = warnings := by
  cases word with
  | none => decide
  | some given => exact named_of_unknown (unknown given rfl)

/-- Three words let events through: any other stands for warnings, or for more. -/
theorem warnings_le_named {word : Text}
    (unasked : ∀ name ∈ ["INFO", "DEBUG", "NOTSET"], ¬ Spells name word) : warnings ≤ named word := by
  by_cases spelled : ∃ entry ∈ words, Spells entry.1 word
  · obtain ⟨⟨name, threshold⟩, known, spells⟩ := spelled
    rw [named_of_spells known spells]
    have high : ∀ entry ∈ words, entry.1 ∉ ["INFO", "DEBUG", "NOTSET"] → warnings ≤ entry.2 := by decide
    exact high _ known fun member => unasked name member spells
  · exact (named_of_unknown fun entry known spells => spelled ⟨entry, known, spells⟩).ge

/-- The level in force: the switch goes before the word, and the absence of a word is one for
warnings. -/
def inForce (word : Option Text) (loud : Bool) : Threshold :=
  if loud then details else named (word.getD "WARNING")

theorem inForce_loud (word : Option Text) {loud : Bool} (wish : loud = true) :
    inForce word loud = details := if_pos wish

/-- Every event is a detail at least. -/
theorem admits_details [Journal] (level : EventLevel) : Journal.admits details level = true := by
  refine (Journal.admits_iff details level).mpr ?_
  cases level <;> decide

end Threshold

/-! ### What is printed -/

section Printing

variable [Journal]

namespace Notice

/-- Whether a notice is a message, and no event. -/
def isMessage : Notice → Bool
  | .event _ => false
  | .message _ => true

/-- Whether a notice is printed at a level: an event only if it reaches the level. -/
def reaches (threshold : Threshold) : Notice → Bool
  | .event reported => Journal.admits threshold reported.level
  | .message _ => true

/-- The text of a notice that is printed. -/
def text (stamp : Text) : Notice → Text
  | .event reported => Journal.line stamp reported ++ [.scalar '\n']
  | .message written => written

theorem reaches_of_isMessage {notice : Notice} (message : notice.isMessage = true)
    (threshold : Threshold) : notice.reaches threshold = true := by
  cases notice with
  | event reported => cases message
  | message written => rfl

theorem reaches_details (notice : Notice) : notice.reaches Threshold.details = true := by
  cases notice with
  | event reported => exact Threshold.admits_details reported.level
  | message written => rfl

theorem printed_eq (threshold : Threshold) (stamp : Text) (notice : Notice) :
    notice.printed threshold stamp = if notice.reaches threshold then notice.text stamp else [] := by
  cases notice <;> rfl

/-- At the level of warnings and above, messages alone are printed. -/
theorem isMessage_of_reaches {threshold : Threshold} (high : Threshold.warnings ≤ threshold)
    {notice : Notice} (reached : notice.reaches threshold = true) : notice.isMessage = true := by
  cases notice with
  | event reported =>
    have severe : threshold ≤ reported.level.severity := (Journal.admits_iff _ _).mp reached
    have mild : reported.level.severity < Threshold.warnings := by cases reported.level <;> decide
    exact absurd (high.trans severe) (Nat.not_le.mpr mild)
  | message written => rfl

end Notice

namespace Outcome

variable (outcome : Outcome) (threshold : Threshold)

/-- The notices that are printed at a level. -/
def shown : List Notice := outcome.notices.filter (Notice.reaches threshold)

/-- **The error stream** is the row of the notices that are printed. -/
theorem printed_eq (stamp : Text) : outcome.printed threshold stamp =
    ((outcome.shown threshold).flatMap (Notice.text stamp)).flatMap fun point =>
      if point.isSurrogate then point.escaped else [point] := by
  unfold printed shown
  congr 1
  induction outcome.notices with
  | nil => rfl
  | cons notice rest ih =>
    rw [List.flatMap_cons, ih, Notice.printed_eq, List.filter_cons]
    split <;> rfl

/-- The messages are printed at every level. -/
theorem filter_isMessage_shown :
    (outcome.shown threshold).filter Notice.isMessage = outcome.notices.filter Notice.isMessage := by
  unfold shown
  rw [List.filter_filter]
  refine List.filter_congr fun notice _ => ?_
  cases message : notice.isMessage with
  | false => rfl
  | true => exact Notice.reaches_of_isMessage message threshold

theorem shown_details : outcome.shown Threshold.details = outcome.notices :=
  List.filter_eq_self.mpr fun notice _ => notice.reaches_details

end Outcome

end Printing

/-! ### Runs -/

section Runs

variable [Runtime]

namespace Reading

/-- The answer to what a line asks for, in a tree of files. -/
def answer (tree : Tree) : Reading → Outcome
  | .display text => Command.shown tree [] text []
  | .refusal text => ⟨.exit 2, [], [.message text], tree⟩
  | .request _ (.apply source script options) => Command.apply tree source script options
  | .request _ (.plan source script) => Command.plan tree source script

theorem answer_hushed (tree : Tree) (reading : Reading) :
    reading.hushed.answer tree = reading.answer tree := by
  cases reading with
  | request verbose request => cases request <;> rfl
  | display text => rfl
  | refusal text => rfl

end Reading

variable (tree : Tree) (word : Option Text) (arguments : List Text)

theorem run_answer : (run ⟨tree, word⟩ arguments).2 = (Request.read arguments).answer tree := by
  unfold run
  cases Request.read arguments with
  | request verbose request => cases request <;> rfl
  | display text => rfl
  | refusal text => rfl

/-- A line and the same line without its wish for details have the same answer. -/
theorem answer_quiet :
    (Request.read (Request.quiet arguments)).answer tree = (Request.read arguments).answer tree := by
  rw [← Reading.answer_hushed, Request.read_quiet, Reading.answer_hushed]

/-- A text is shown without a notice, or breaks down without one. -/
theorem notices_of_display (text : Text) : ((Reading.display text).answer tree).notices = [] := by
  show (Command.shown tree [] text []).notices = []
  unfold Command.shown
  split <;> rfl

/-- **What a run prints** is what reaches the level in force. -/
theorem shown_run : (run ⟨tree, word⟩ arguments).2.shown (run ⟨tree, word⟩ arguments).1 =
    ((Request.read arguments).answer tree).shown
      (Threshold.inForce word (Request.isLoud arguments)) := by
  rw [run_answer]
  cases asked : Request.read arguments with
  | display text =>
    unfold Outcome.shown
    rw [notices_of_display]
    rfl
  | refusal text => rfl
  | request verbose request =>
    have level : (run ⟨tree, word⟩ arguments).1 = Threshold.inForce word verbose := by
      unfold run
      rw [asked]
      cases request <;> rfl
    rw [level, Request.verbose_of_read asked]

end Runs

/-- The switch that asks for details, in full. -/
def inDetail : Text := "--verbose"

/-- **The journal changes nothing.** Take any machine and any files, which the two runs find alike, two
lines that are the same but for their wish for details, and for each of them any word for the level, or
none.

* The two runs end alike, with the same output and the same files, and the same messages are printed.
* What the first run prints is what it prints when it is asked for every detail, in the same places,
  without the events that do not reach the level in force.
* The level in force is that of details if the line wishes for them. If it does not, it is the level
  whose name the word spells, in whatever case, or that of warnings if the word spells none or is absent.
* No event is printed unless the line wishes for details, or the word spells one of the three levels
  that events reach.
* The error stream consists of what is printed, piece by piece. -/
theorem run_journals [Runtime] (tree : Tree) (word word' : Option Text) {arguments arguments' : List Text}
    (same : Request.quiet arguments = Request.quiet arguments') :
    let first := run ⟨tree, word⟩ arguments
    let second := run ⟨tree, word'⟩ arguments'
    let detailed := run ⟨tree, word⟩ (inDetail :: arguments)
    let level := Threshold.inForce word (Request.isLoud arguments)
    (first.2.ending = second.2.ending ∧ first.2.output = second.2.output ∧
      first.2.tree = second.2.tree ∧
      (first.2.shown first.1).filter Notice.isMessage =
        (second.2.shown second.1).filter Notice.isMessage) ∧
    first.2.shown first.1 = (detailed.2.shown detailed.1).filter (Notice.reaches level) ∧
    ((Request.isLoud arguments = true → level = 10) ∧
      (Request.isLoud arguments = false →
        (∀ given name threshold, word = some given → (name, threshold) ∈ Threshold.words →
          Threshold.Spells name given → level = threshold) ∧
        ((∀ given, word = some given → ∀ entry ∈ Threshold.words, ¬ Threshold.Spells entry.1 given) →
          level = 30))) ∧
    (Request.isLoud arguments = false → (∀ given, word = some given →
        ∀ name ∈ ["INFO", "DEBUG", "NOTSET"], ¬ Threshold.Spells name given) →
      ∀ notice ∈ first.2.shown first.1, notice.isMessage = true) ∧
    ∀ stamp, first.2.printed first.1 stamp =
      ((first.2.shown first.1).flatMap (Notice.text stamp)).flatMap fun point =>
        if point.isSurrogate then point.escaped else [point] := by
  intro first second detailed level
  have alike : first.2 = second.2 := by
    show (run ⟨tree, word⟩ arguments).2 = (run ⟨tree, word'⟩ arguments').2
    rw [run_answer, run_answer, ← answer_quiet tree arguments, same, answer_quiet]
  have shown : first.2.shown first.1 = first.2.shown level := by
    show (run ⟨tree, word⟩ arguments).2.shown (run ⟨tree, word⟩ arguments).1 =
      (run ⟨tree, word⟩ arguments).2.shown level
    rw [shown_run, run_answer]
  refine ⟨⟨congrArg _ alike, congrArg _ alike, congrArg _ alike, ?_⟩, ?_,
    ⟨Threshold.inForce_loud word, fun silent => ?_⟩, fun silent unasked => ?_,
    first.2.printed_eq first.1⟩
  · rw [Outcome.filter_isMessage_shown, Outcome.filter_isMessage_shown, alike]
  · obtain ⟨line, loud⟩ := @Request.quiet_of_mem inDetail (by decide) arguments
    have whole : detailed.2.shown detailed.1 = first.2.notices := by
      show (run ⟨tree, word⟩ (inDetail :: arguments)).2.shown
        (run ⟨tree, word⟩ (inDetail :: arguments)).1 = (run ⟨tree, word⟩ arguments).2.notices
      rw [shown_run, run_answer, ← answer_quiet tree (inDetail :: arguments), line, answer_quiet, loud]
      exact Outcome.shown_details _
    rw [shown, whole]
    rfl
  · have named : level = Threshold.named (word.getD "WARNING") := if_neg (Bool.not_eq_true _ ▸ silent)
    refine ⟨?_, fun unknown => named.trans (Threshold.named_getD_of_unknown unknown)⟩
    rintro given name threshold rfl known spells
    exact named.trans (Threshold.named_of_spells known spells)
  · rw [shown]
    intro notice member
    have high : Threshold.warnings ≤ level := by
      show Threshold.warnings ≤ Threshold.inForce word (Request.isLoud arguments)
      rw [silent]
      cases word with
      | none => decide
      | some given => exact Threshold.warnings_le_named (unasked given rfl)
    exact Notice.isMessage_of_reaches high (List.mem_filter.mp member).2

/-- A source, and a script with an insertion. -/
def insertedTree : Tree :=
  [([Charset.utf8.row "s.txt"], .file (Charset.utf8.row "abc")),
    ([Charset.utf8.row "e.json"], .file (Charset.utf8.row "[\x7b\"start\": 1, \"text\": \"X\"\x7d]"))]

/-- The plan of that script, with a word in an unusual case, and in detail. Of three notices the first
run prints two: that the script has been loaded, and a message. -/
theorem run_journals_unusual :
    let first := run ⟨insertedTree, some "ınFo"⟩ ["plan", "s.txt", "e.json"]
    let second := run ⟨insertedTree, none⟩ ["--verb", "plan", "s.txt", "e.json"]
    let detailed := run ⟨insertedTree, some "ınFo"⟩ [inDetail, "plan", "s.txt", "e.json"]
    Request.quiet ["plan", "s.txt", "e.json"] = Request.quiet ["--verb", "plan", "s.txt", "e.json"] ∧
      first.2.ending = second.2.ending ∧ first.2.output = second.2.output ∧
      first.2.shown first.1 = (detailed.2.shown detailed.1).filter (Notice.reaches 20) ∧
      (first.2.shown first.1).length = 2 ∧ (second.2.shown second.1).length = 3 := by
  intro first second detailed
  have same : Request.quiet ["plan", "s.txt", "e.json"] =
      Request.quiet ["--verb", "plan", "s.txt", "e.json"] := by decide
  have silent : Request.isLoud ["plan", "s.txt", "e.json"] = false := by decide
  have spells : Threshold.Spells "INFO" "ınFo" :=
    (Threshold.spells_iff (Threshold.words_upper ("INFO", 20) (by decide))).mpr (by decide)
  have lengths : (first.2.shown first.1).length = 2 ∧ (second.2.shown second.1).length = 3 := by
    decide +kernel
  obtain ⟨⟨ending, output, -, -⟩, shown, ⟨-, levels⟩, -⟩ :=
    run_journals insertedTree (some "ınFo") none same
  have level := (levels silent).1 _ "INFO" 20 rfl (by decide) spells
  exact ⟨same, ending, output, shown.trans (by rw [level]), lengths⟩

end Splice
