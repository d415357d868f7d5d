/-
**Command lines that are refused.**

A command line that asks for nothing is shown a page of the help, or it is refused, and a refusal says
first how the program is called. For this, the reading of a line must not come to its end without a
command and the word for it. Indeed every operand that a grammar wants is found or reported as missing,
and an operand that takes everything behind it takes one argument at least.

* `Grammar.Took`, `Grammar.Reads`: what holds of the operands taken at one place of a line, and of all
  findings of a line;
* `Grammar.reads_readFrom`: the reading of any line;
* `Request.explains_read`: how every refusal begins, and what texts are shown.
-/

import Mathlib
import Splice.Command.Request

namespace Splice

/-- Whether a finding is an operand. -/
def Finding.isOperand : Finding → Bool
  | .operand _ _ => true
  | .switch _ _ => false

/-- No operand without arguments. -/
def Finding.isFilled : Finding → Bool
  | .operand _ arguments => !arguments.isEmpty
  | .switch _ _ => true

namespace Grammar

variable {grammar : Grammar} {arguments rest : List Argument} {wanted later : List String}
  {found : List Finding} {findings : Findings}

/-! ### Findings at one place -/

/-- What is found at one place of a line when operands are wanted, and the operands that are still
wanted later: none of them is forgotten, and a single one that takes everything has arguments. -/
structure Took (grammar : Grammar) (wanted : List String) (found : List Finding)
    (later : List String) : Prop where
  wanted_le : wanted.length ≤ found.countP Finding.isOperand + later.length
  later_le : later.length ≤ wanted.length
  filled : grammar.lastTakesAll = true → wanted.length ≤ 1 → ∀ finding ∈ found, finding.isFilled = true

/-- Switches alone leave all operands wanted. -/
theorem Took.of_switches (switches : ∀ finding ∈ found, finding.isOperand = false) :
    Took grammar wanted found wanted := by
  refine ⟨Nat.le_add_left _ _, Nat.le_refl _, fun _ _ finding member => ?_⟩
  have switch := switches finding member
  cases finding with
  | switch name values => rfl
  | operand name arguments => cases switch

theorem ne_nil_of_operandSize {size : Nat} (found : operandSize arguments = some size) :
    arguments ≠ [] := by
  rintro rfl
  cases found

/-- **Operands** that are taken at the front. -/
theorem took_takeOperands (grammar : Grammar) (arguments : List Argument) (wanted : List String) :
    Took grammar wanted (grammar.takeOperands arguments wanted).1
      (grammar.takeOperands arguments wanted).2.1 := by
  induction wanted generalizing arguments with
  | nil => exact .of_switches fun _ member => (List.not_mem_nil member).elim
  | cons name names ih =>
    unfold takeOperands
    split
    · exact .of_switches fun _ member => (List.not_mem_nil member).elim
    · rename_i size sized
      split_ifs with takesAll
      · -- the last operand, which takes everything
        obtain ⟨last, -⟩ := Bool.and_eq_true_iff.mp takesAll
        obtain rfl := List.isEmpty_iff.mp last
        refine ⟨Nat.le_refl _, Nat.zero_le _, fun _ _ finding member => ?_⟩
        obtain rfl := List.mem_singleton.mp member
        have some := ne_nil_of_operandSize sized
        simpa [Finding.isFilled] using some
      · have others := ih (arguments.drop size)
        generalize grammar.takeOperands (arguments.drop size) names = taking at others ⊢
        obtain ⟨found, later, taken⟩ := taking
        obtain ⟨count, fewer, -⟩ := others
        dsimp only at count fewer ⊢
        refine ⟨?_, Nat.le_succ_of_le fewer, fun takes one => ?_⟩
        · rw [List.countP_cons_of_pos rfl, List.length_cons]
          omega
        · -- a single operand of this grammar is the last one
          have none : names.length ≤ 0 := Nat.le_of_succ_le_succ one
          have last : names = [] := List.eq_nil_of_length_eq_zero (Nat.le_zero.mp none)
          rw [last, takes] at takesAll
          exact (takesAll rfl).elim

theorem switches_takeDetached {switch : Switch} {taken : Taken}
    (takes : takeDetached switch rest = .ok taken) :
    ∀ finding ∈ taken.found, finding.isOperand = false := by
  unfold takeDetached at takes
  split_ifs at takes
  · split at takes
    · split_ifs at takes
      obtain rfl := Except.ok.inj takes
      exact fun finding member => List.mem_singleton.mp member ▸ rfl
    · cases takes
  · obtain rfl := Except.ok.inj takes
    exact fun finding member => List.mem_singleton.mp member ▸ rfl

theorem switches_takeAttached {switch : Switch} {short : Bool} {text : Text} {taken : Taken}
    (takes : grammar.takeAttached rest switch short text = .ok taken) :
    ∀ finding ∈ taken.found, finding.isOperand = false := by
  induction text generalizing switch taken with
  | nil =>
    unfold takeAttached at takes
    split_ifs at takes
    obtain rfl := Except.ok.inj takes
    exact fun finding member => List.mem_singleton.mp member ▸ rfl
  | cons letter others ih =>
    unfold takeAttached at takes
    split at takes
    · obtain rfl := Except.ok.inj takes
      exact fun finding member => List.mem_singleton.mp member ▸ rfl
    · split at takes
      · cases takes
      · rename_i next _
        -- the next switch of the row stands in front of what is attached to it
        cases own : (if others.isEmpty then takeDetached next rest
            else grammar.takeAttached rest next short others) with
        | error fault =>
          rw [own] at takes
          cases takes
        | ok behind =>
          rw [own] at takes
          obtain rfl := Except.ok.inj takes
          refine List.forall_mem_cons.mpr ⟨rfl, ?_⟩
          split_ifs at own
          · exact switches_takeDetached own
          · exact ih own

theorem switches_takeSwitch {switch : Switch} {short : Bool} {attached : Option Text} {taken : Taken}
    (takes : grammar.takeSwitch switch short rest attached = .ok taken) :
    ∀ finding ∈ taken.found, finding.isOperand = false := by
  cases attached with
  | none => exact switches_takeDetached takes
  | some text => exact switches_takeAttached takes

/-! ### Findings of a line -/

/-- What the reading of a line finds when operands are wanted: all of them, unless it ends with a
fault, and a single one that takes everything has arguments. -/
structure Reads (grammar : Grammar) (wanted : List String) (findings : Findings) : Prop where
  complete : ∀ others, findings.ending = .ok others →
    wanted.length ≤ findings.found.countP Finding.isOperand
  filled : grammar.lastTakesAll = true → wanted.length ≤ 1 →
    ∀ finding ∈ findings.found, finding.isFilled = true

theorem Took.finish (took : Took grammar wanted found later) (strangers : List Text) :
    Reads grammar wanted (readFrom.finish found later strangers) := by
  unfold readFrom.finish
  split_ifs with none
  · refine ⟨fun _ _ => ?_, took.filled⟩
    have count := took.wanted_le
    rwa [List.isEmpty_iff.mp none] at count
  · exact ⟨nofun, took.filled⟩

theorem Took.behind (took : Took grammar wanted found later) (reads : Reads grammar later findings) :
    Reads grammar wanted (Findings.behind found findings) := by
  refine ⟨fun others complete => ?_, fun takesAll one => ?_⟩
  · have rest := reads.complete others complete
    have count := took.wanted_le
    show wanted.length ≤ (found ++ findings.found).countP Finding.isOperand
    rw [List.countP_append]
    omega
  · show ∀ finding ∈ found ++ findings.found, finding.isFilled = true
    exact List.forall_mem_append.mpr ⟨took.filled takesAll one,
      reads.filled takesAll (took.later_le.trans one)⟩

/-- **The reading of a line**, from any place on. -/
theorem reads_readFrom (grammar : Grammar) (wanted : List String) (strangers : List Text)
    (arguments : List Argument) :
    Reads grammar wanted (grammar.readFrom wanted strangers arguments) := by
  have none (wanted : List String) : Took grammar wanted [] wanted :=
    .of_switches fun _ member => (List.not_mem_nil member).elim
  fun_induction readFrom grammar wanted strangers arguments with
  | case1 wanted strangers => exact (none wanted).finish strangers
  | case2 wanted strangers argument rest _ found later taken taking =>
    have took := took_takeOperands grammar (argument :: rest) wanted
    rw [taking] at took
    exact took.finish _
  | case3 wanted strangers argument rest _ _ ih => exact ih
  | case4 wanted strangers argument rest _ switch short attached _ fault _ =>
    exact ⟨nofun, fun _ _ _ member => (List.not_mem_nil member).elim⟩
  | case5 wanted strangers argument rest _ switch short attached _ taken takes ih =>
    exact (Took.of_switches (switches_takeSwitch takes)).behind ih
  | case6 wanted strangers argument rest _ _ found later taken taking ih =>
    have took := took_takeOperands grammar (argument :: rest) wanted
    rw [taking] at took
    exact took.behind ih
  | case7 wanted strangers argument rest _ _ _ _ _ ih => exact ih
  | case8 wanted strangers argument rest _ _ found later taken taking ih =>
    have took := took_takeOperands grammar (argument :: rest) wanted
    rw [taking] at took
    exact took.behind ih
  | case9 wanted strangers argument rest _ _ _ _ _ ih => exact ih

/-- **The reading of a whole line.** -/
theorem reads_read (grammar : Grammar) (arguments : List Text) :
    Reads grammar grammar.operands (grammar.read arguments) := by
  unfold read
  split
  · exact ⟨nofun, fun _ _ _ member => (List.not_mem_nil member).elim⟩
  · exact reads_readFrom grammar grammar.operands [] _

end Grammar

/-! ### Refusals -/

/-- How the program is called: how every refusal begins. -/
def calling : Text := Text.ofString "usage: "

/-- The texts that are shown when a command line asks for help or for the version. -/
def pages : List Text :=
  [Request.help, Request.version, Request.applyHelp, Request.planHelp].map Text.ofString

/-- A refusal says how the program is called, and what is shown is one of the texts for it. -/
def Reading.Explains : Reading → Prop
  | .request _ _ => True
  | .display text => text ∈ pages
  | .refusal text => calling <+: text

namespace Request

theorem explains_refused {usage : String} (calls : calling <+: Text.ofString usage) (program : String)
    (fault : ArgumentFault) : (refused usage program fault).Explains :=
  calls.trans (List.prefix_append _ _)

theorem help_mem_pages : Text.ofString help ∈ pages := by simp [pages]

theorem version_mem_pages : Text.ofString version ∈ pages := by simp [pages]

theorem applyHelp_mem_pages : Text.ofString applyHelp ∈ pages := by simp [pages]

theorem planHelp_mem_pages : Text.ofString planHelp ∈ pages := by simp [pages]

theorem calling_usage : calling <+: Text.ofString usage := by decide +kernel

theorem calling_applyUsage : calling <+: Text.ofString applyUsage := by decide +kernel

theorem calling_planUsage : calling <+: Text.ofString planUsage := by decide +kernel

theorem explains_readCommand {grammar : Grammar} {usage program help : String}
    (calls : calling <+: Text.ofString usage) (page : Text.ofString help ∈ pages)
    {request : List Finding → Request} {arguments : List Text} {reading : Reading}
    (refused : readCommand grammar usage program help request arguments = .error reading) :
    reading.Explains := by
  unfold readCommand at refused
  dsimp only at refused
  split_ifs at refused
  · obtain rfl := Except.error.inj refused
    exact page
  · split at refused
    · obtain rfl := Except.error.inj refused
      exact explains_refused calls program _
    · cases refused

theorem explains_ofCommand {arguments : List Text} (filled : arguments ≠ []) {reading : Reading}
    (refused : ofCommand arguments = .error reading) : reading.Explains := by
  cases arguments with
  | nil => exact (filled rfl).elim
  | cons command others =>
    unfold ofCommand at refused
    dsimp only at refused
    split_ifs at refused
    · exact explains_readCommand calling_applyUsage applyHelp_mem_pages refused
    · exact explains_readCommand calling_planUsage planHelp_mem_pages refused
    · obtain rfl := Except.error.inj refused
      exact explains_refused calling_usage _ _

/-- Findings with a command, or with a fault, come to no refusal without words. -/
theorem explains_ofFindings {findings : Findings} {found : List Finding}
    {request : Option (Request × List Text)} {verbose : Bool}
    (filled : ∀ finding ∈ found, finding.isFilled = true)
    (commanded : ∀ others, findings.ending = .ok others →
      request.isSome = true ∨ 0 < found.countP Finding.isOperand) :
    (ofFindings request verbose findings found).Explains := by
  induction found generalizing request verbose with
  | nil =>
    unfold ofFindings
    split
    · exact explains_refused calling_usage _ _
    · rename_i others complete
      rcases commanded others complete with known | some
      · cases known
      · exact (Nat.lt_irrefl _ some).elim
    · split_ifs
      · trivial
      · exact explains_refused calling_usage _ _
  | cons finding rest ih =>
    obtain ⟨here, others⟩ := List.forall_mem_cons.mp filled
    cases finding with
    | switch switch values =>
      unfold ofFindings
      split_ifs
      · exact help_mem_pages
      · exact version_mem_pages
      · refine ih others fun strangers complete => ?_
        rcases commanded strangers complete with known | some
        · exact Or.inl known
        · rw [List.countP_cons_of_neg Bool.false_ne_true] at some
          exact Or.inr some
    | operand name arguments =>
      unfold ofFindings
      split
      · rename_i reading refused
        refine explains_ofCommand ?_ refused
        rintro rfl
        cases here
      · exact ih others fun _ _ => Or.inl rfl

/-- **Every refusal** says how the program is called, and everything shown is a text for it. -/
theorem explains_read (arguments : List Text) : (read arguments).Explains := by
  have reads := grammar.reads_read arguments
  exact explains_ofFindings (reads.filled rfl (Nat.le_refl _))
    fun others complete => Or.inr (reads.complete others complete)

end Request

end Splice
