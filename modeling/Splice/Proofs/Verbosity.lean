/-
**Command lines without their wish for details.**

One switch of the program asks for every detail of its journal. It may be cut short, and it may stand
anywhere in front of the command, also repeatedly. It takes no value and ends nothing, so a line asks
for the same without it: whether for a request, for a text to show or for a refusal. Behind the command
or the divider such an argument is none of the program's.

* `Request.verbosities`, `Request.quiet`, `Request.isLoud`: the ways to spell the switch, a line without
  it, and whether it is there;
* `Grammar.classify_verbosity`, `Grammar.takeSwitch_plain`: these arguments say it, and no others do;
* `Request.sortOut_quiet_error`, `Request.readFrom_quiet`: a fault of a line, and what is found in one
  without a fault;
* `Request.read_quiet`, `Request.verbose_of_read`: what a line asks for, and whether in detail.
-/

import Mathlib
import Splice.Command.Request
import Splice.Proofs.Outcomes

namespace Splice

/-! ### Findings and readings -/

/-- Whether a switch asks for details: of all switches of the program it alone does not end the
reading. -/
def Switch.asksDetails (switch : Switch) : Bool :=
  switch ≠ Request.helpSwitch && switch ≠ Request.versionSwitch

/-- Whether a finding asks for details. -/
def Finding.asksDetails : Finding → Bool
  | .switch other _ => other.asksDetails
  | .operand _ _ => false

/-- The findings that do not ask for details. -/
def withoutDetails (found : List Finding) : List Finding :=
  found.filter fun finding => !finding.asksDetails

/-- The findings of a line that do not ask for details, with the same ending. -/
def Findings.hushed (findings : Findings) : Findings :=
  { findings with found := withoutDetails findings.found }

/-- Whether one of the findings asks for details. -/
def mentionsDetails (found : List Finding) : Bool := found.any Finding.asksDetails

theorem withoutDetails_append (front back : List Finding) :
    withoutDetails (front ++ back) = withoutDetails front ++ withoutDetails back := List.filter_append ..

theorem mentionsDetails_append (front back : List Finding) :
    mentionsDetails (front ++ back) = (mentionsDetails front || mentionsDetails back) := List.any_append

theorem withoutDetails_of_silent {found : List Finding} (none : mentionsDetails found = false) :
    withoutDetails found = found := by
  refine List.filter_eq_self.mpr fun finding member => ?_
  have silent := List.any_eq_false.mp none finding member
  rw [Bool.not_eq_true] at silent
  rw [silent]
  rfl

namespace Findings

variable {found : List Finding} (silent : mentionsDetails found = false) (findings : Findings)

include silent

theorem hushed_behind : (Grammar.Findings.behind found findings).hushed =
    Grammar.Findings.behind found findings.hushed := by
  unfold hushed Grammar.Findings.behind
  rw [withoutDetails_append, withoutDetails_of_silent silent]

theorem mentionsDetails_behind :
    mentionsDetails (Grammar.Findings.behind found findings).found = mentionsDetails findings.found := by
  unfold Grammar.Findings.behind
  rw [mentionsDetails_append, silent, Bool.false_or]

end Findings

namespace Request

/-- The names of the switch that asks for details: it may be cut short. -/
def verbosities : List Text := ["--verb", "--verbo", "--verbos", "--verbose"]

/-- Whether an argument stands in front of the command: it is neither the divider nor a word. -/
def isLeading (argument : Text) : Bool :=
  argument ≠ [Grammar.hyphen, Grammar.hyphen] &&
    match grammar.classify argument with
    | .ok .word => false
    | _ => true

/-- The line without its wish for details. -/
def quiet : List Text → List Text
  | [] => []
  | argument :: rest =>
    if isLeading argument then
      if verbosities.contains argument then quiet rest else argument :: quiet rest
    else argument :: rest

/-- Whether the line wishes for details. -/
def isLoud : List Text → Bool
  | [] => false
  | argument :: rest => isLeading argument && (verbosities.contains argument || isLoud rest)

end Request

/-- The reading, whether in detail or not. -/
def Reading.hushed : Reading → Reading
  | .request _ wanted => .request false wanted
  | reading => reading

namespace Grammar

theorem spellings_plain : ∀ entry ∈ Request.grammar.spellings, entry.2.takesValue = false ∧
    (entry.2.asksDetails = true → entry = ("--verbose", Request.verboseSwitch)) := by decide

theorem switch?_eq_some {name : Text} {switch : Switch}
    (found : Request.grammar.switch? name = some switch) :
    switch.takesValue = false ∧ (switch.asksDetails = true → name = "--verbose") := by
  obtain ⟨⟨spelling, other⟩, first, rfl⟩ := Option.map_eq_some_iff.mp found
  obtain ⟨plain, details⟩ := spellings_plain _ (List.mem_of_find?_eq_some first)
  refine ⟨plain, fun asks => ?_⟩
  have same : Text.ofString spelling = name := of_decide_eq_true (List.find?_some first :)
  cases details asks
  exact same.symm

theorem length_verbose : (Text.ofString "--verbose").length = 9 := by decide

theorem classify_verbosity : ∀ argument ∈ Request.verbosities,
    Request.grammar.classify argument = .ok (.switch Request.verboseSwitch false none) := by
  intro argument member
  simp only [Request.verbosities, List.mem_cons, List.not_mem_nil, or_false] at member
  rcases member with rfl | rfl | rfl | rfl <;> rfl

theorem mem_verbosities_of_prefix : ∀ start ∈ ("--verbose" : Text).inits,
    (Request.grammar.candidates start).length = 1 → start ∈ Request.verbosities := by decide

/-- What an argument may be short for: a switch without a value, and if it is the one that asks for
details, then by a long name that the argument begins. -/
theorem candidates_plain {argument : Text} {candidate : String × ArgumentSort}
    (member : candidate ∈ Request.grammar.candidates argument) :
    ∃ switch short attached, candidate.2 = .switch switch short attached ∧ switch.takesValue = false ∧
      (switch.asksDetails = true →
        short = false ∧ (attached = none → argument <+: ("--verbose" : Text))) := by
  unfold candidates at member
  split at member
  · obtain ⟨⟨spelling, switch⟩, known, made⟩ := List.mem_filterMap.mp member
    obtain ⟨plain, details⟩ := spellings_plain _ known
    dsimp only at made
    split_ifs at made with same begins
    · obtain rfl := Option.some.inj made
      refine ⟨_, _, _, rfl, plain, fun asks => ?_⟩
      -- a name of two characters is not the name of this switch
      cases details asks
      have sizes := congrArg List.length same
      rw [List.length_take, length_verbose] at sizes
      omega
    · obtain rfl := Option.some.inj made
      refine ⟨_, _, _, rfl, plain, fun asks => ?_⟩
      cases details asks
      exact ⟨by decide, fun _ => List.isPrefixOf_iff_prefix.mp begins⟩
  · dsimp only at member
    split at member
    · obtain ⟨⟨spelling, switch⟩, known, made⟩ := List.mem_filterMap.mp member
      obtain ⟨plain, details⟩ := spellings_plain _ known
      dsimp only at made
      split_ifs at made
      obtain rfl := Option.some.inj made
      exact ⟨_, _, _, rfl, plain, fun _ => ⟨rfl, nofun⟩⟩
    · obtain ⟨⟨spelling, switch⟩, known, made⟩ := List.mem_filterMap.mp member
      obtain ⟨plain, details⟩ := spellings_plain _ known
      dsimp only at made
      split_ifs at made with begins
      obtain rfl := Option.some.inj made
      refine ⟨_, _, _, rfl, plain, fun asks => ?_⟩
      cases details asks
      exact ⟨rfl, fun _ => List.isPrefixOf_iff_prefix.mp begins⟩

/-- **What an argument can be** in front of the divider: a word, a stranger, or a switch. No switch takes
a value, and the one that asks for details has a long name and, unless a value is attached to it, is
spelled by one of the verbosities. -/
theorem classify_cases {argument : Text} {sort : ArgumentSort}
    (sorts : Request.grammar.classify argument = .ok sort) :
    sort = .word ∨ sort = .stranger ∨ ∃ switch short attached, sort = .switch switch short attached ∧
      switch.takesValue = false ∧ (switch.asksDetails = true →
        short = false ∧ (attached = none → argument ∈ Request.verbosities)) := by
  unfold classify at sorts
  split at sorts
  · exact Or.inl (Except.ok.inj sorts).symm
  split at sorts
  · exact Or.inl (Except.ok.inj sorts).symm
  split at sorts
  · -- the name of a switch
    rename_i known
    obtain ⟨plain, details⟩ := switch?_eq_some known
    refine Or.inr (Or.inr ⟨_, _, _, (Except.ok.inj sorts).symm, plain, fun asks => ?_⟩)
    rw [details asks]
    exact ⟨by decide, fun _ => by decide⟩
  split at sorts
  · exact Or.inl (Except.ok.inj sorts).symm
  dsimp only at sorts
  split at sorts
  · -- the name of a switch and a value
    rename_i signed
    obtain rfl := Except.ok.inj sorts
    obtain ⟨⟨name, value⟩, -, made⟩ := Option.bind_eq_some_iff.mp signed
    obtain ⟨other, known, rfl⟩ := Option.map_eq_some_iff.mp made
    obtain ⟨plain, details⟩ := switch?_eq_some known
    refine Or.inr (Or.inr ⟨_, _, _, rfl, plain, fun asks => ⟨?_, nofun⟩⟩)
    rw [details asks]
    decide
  split at sorts
  · -- the beginning of a single name
    rename_i only
    obtain rfl := Except.ok.inj sorts
    obtain ⟨_, _, _, same, plain, details⟩ := candidates_plain (only ▸ List.mem_singleton_self _)
    refine Or.inr (Or.inr ⟨_, _, _, same, plain, fun asks => ?_⟩)
    obtain ⟨long, begins⟩ := details asks
    refine ⟨long, fun detached => ?_⟩
    exact mem_verbosities_of_prefix _ ((List.mem_inits _ _).mpr (begins detached)) (by rw [only]; rfl)
  · split at sorts
    · exact Or.inl (Except.ok.inj sorts).symm
    · exact Or.inr (Or.inl (Except.ok.inj sorts).symm)
  · cases sorts

theorem classify_switch {argument : Text} {switch : Switch} {short : Bool} {attached : Option Text}
    (sorts : Request.grammar.classify argument = .ok (.switch switch short attached)) :
    switch.takesValue = false ∧ (switch.asksDetails = true →
      short = false ∧ (attached = none → argument ∈ Request.verbosities)) := by
  obtain ⟨⟨⟩⟩ | ⟨⟨⟩⟩ | ⟨_, _, _, ⟨⟩, plain⟩ := classify_cases sorts
  exact plain

theorem classify_ne_divider {argument : Text} : Request.grammar.classify argument ≠ .ok .divider := by
  intro sorts
  obtain ⟨⟨⟩⟩ | ⟨⟨⟩⟩ | ⟨_, _, _, ⟨⟩, -⟩ := classify_cases sorts

/-! ### What switches say -/

section Takes

variable {switch : Switch} {short : Bool} {taken : Taken}

theorem takeDetached_plain (plain : switch.takesValue = false) (rest : List Argument) :
    takeDetached switch rest = .ok ⟨[.switch switch []], 0⟩ := by
  rw [takeDetached.eq_def, plain, if_neg Bool.false_ne_true]

/-- **A row of switches without values** takes nothing of what is behind it, and none but the first of
them can ask for details. -/
theorem takeAttached_plain (plain : switch.takesValue = false) (rest : List Argument) (text : Text) :
    Request.grammar.takeAttached rest switch short text =
        Request.grammar.takeAttached [] switch short text ∧
      ∀ taken, Request.grammar.takeAttached [] switch short text = .ok taken →
        short = true ∧ taken.more = 0 ∧ mentionsDetails taken.found = switch.asksDetails := by
  induction text generalizing switch with
  | nil =>
    simp only [takeAttached, plain, Bool.false_eq_true, if_false]
    exact ⟨trivial, nofun⟩
  | cons letter others ih =>
    simp only [takeAttached, plain, Bool.false_eq_true, if_false]
    cases known : (if short then Request.grammar.switch? [hyphen, letter] else none) with
    | none => exact ⟨rfl, nofun⟩
    | some next =>
      cases short with
      | false => cases known
      | true =>
        obtain ⟨plain', details⟩ := switch?_eq_some known
        -- the next switch has a name of two characters
        have silent : next.asksDetails = false := by
          refine Bool.not_eq_true _ ▸ fun asks => ?_
          have sizes := congrArg List.length (details asks)
          rw [length_verbose] at sizes
          cases sizes
        obtain ⟨same, behind⟩ := ih plain'
        simp only [takeDetached_plain plain', same]
        refine ⟨trivial, fun taken takes => ?_⟩
        split_ifs at takes
        · obtain rfl := Except.ok.inj takes
          simp [mentionsDetails, Finding.asksDetails, silent]
        · cases following : Request.grammar.takeAttached [] next true others with
          | error fault =>
            rw [following] at takes
            cases takes
          | ok row =>
            rw [following] at takes
            obtain rfl := Except.ok.inj takes
            obtain ⟨-, more, found⟩ := behind row following
            refine ⟨trivial, more, ?_⟩
            show (switch.asksDetails || mentionsDetails row.found) = switch.asksDetails
            rw [found, silent, Bool.or_false]

variable {argument : Text} {attached : Option Text}
  (sorts : Request.grammar.classify argument = .ok (.switch switch short attached))

include sorts

/-- **What a switch says** does not depend on what is behind it. -/
theorem takeSwitch_eq (rest : List Argument) :
    Request.grammar.takeSwitch switch short rest attached =
      Request.grammar.takeSwitch switch short [] attached := by
  obtain ⟨plain, -⟩ := classify_switch sorts
  cases attached with
  | none => exact (takeDetached_plain plain rest).trans (takeDetached_plain plain []).symm
  | some text => exact (takeAttached_plain plain rest text).1

/-- A switch takes nothing of what is behind it, and only the verbosities ask for details. -/
theorem takeSwitch_plain (takes : Request.grammar.takeSwitch switch short [] attached = .ok taken) :
    taken.more = 0 ∧ (argument ∉ Request.verbosities → mentionsDetails taken.found = false) := by
  obtain ⟨plain, details⟩ := classify_switch sorts
  cases attached with
  | none =>
    obtain rfl := Except.ok.inj ((takeDetached_plain plain []).symm.trans takes)
    refine ⟨rfl, fun other => Bool.not_eq_true _ ▸ fun asks => other ?_⟩
    simp only [mentionsDetails, Finding.asksDetails, List.any_cons, List.any_nil, Bool.or_false] at asks
    exact (details asks).2 rfl
  | some text =>
    obtain ⟨row, more, found⟩ := (takeAttached_plain plain [] text).2 taken takes
    refine ⟨more, fun _ => found.trans (Bool.not_eq_true _ ▸ fun asks => ?_)⟩
    rw [(details asks).1] at row
    cases row

end Takes

/-! ### Steps of the reading -/

section Steps

variable {grammar : Grammar} {wanted : List String} {strangers : List Text} {text : Text}
  {rest : List Argument}

theorem readFrom_switch {switch : Switch} {short : Bool} {attached : Option Text} :
    grammar.readFrom wanted strangers (⟨text, .switch switch short attached⟩ :: rest) =
      match grammar.takeSwitch switch short rest attached with
      | .error fault => ⟨[], .error fault⟩
      | .ok taken => Findings.behind taken.found
          (grammar.readFrom wanted strangers (rest.drop taken.more)) := by
  rw [readFrom]
  rfl

theorem readFrom_stranger :
    grammar.readFrom wanted strangers (⟨text, .stranger⟩ :: rest) =
      grammar.readFrom wanted (strangers ++ [text]) rest := by
  rw [readFrom]
  rfl

end Steps

theorem silent_takeOperands (grammar : Grammar) (arguments : List Argument) (wanted : List String) :
    mentionsDetails (grammar.takeOperands arguments wanted).1 = false := by
  induction wanted generalizing arguments with
  | nil => rfl
  | cons name names ih =>
    unfold takeOperands
    split
    · rfl
    · rename_i size sized
      split
      · rfl
      · have others := ih (arguments.drop size)
        generalize grammar.takeOperands (arguments.drop size) names = taking at others ⊢
        exact others

theorem silent_readFrom_unswitched {grammar : Grammar} {wanted : List String} {strangers : List Text}
    {argument : Argument} {rest : List Argument} (unswitched : (argument :: rest).any isSwitch = false) :
    mentionsDetails (grammar.readFrom wanted strangers (argument :: rest)).found = false := by
  have silent := silent_takeOperands grammar (argument :: rest) wanted
  rw [readFrom, unswitched]
  generalize grammar.takeOperands (argument :: rest) wanted = taking at silent ⊢
  obtain ⟨found, later, taken⟩ := taking
  show mentionsDetails (readFrom.finish found later _).found = false
  unfold readFrom.finish
  split <;> exact silent

/-- **The command** takes everything that follows it. -/
theorem readFrom_word (strangers : List Text) (text : Text) (rest : List Argument) :
    Request.grammar.readFrom Request.grammar.operands strangers (⟨text, .word⟩ :: rest) =
      ⟨[.operand "command" (text :: rest.map Argument.text)], .ok strangers⟩ := by
  have taking : Request.grammar.takeOperands (⟨text, .word⟩ :: rest) ["command"] =
      ([.operand "command" (text :: rest.map Argument.text)], [], rest.length + 1) := rfl
  show Request.grammar.readFrom ["command"] strangers _ = _
  rw [readFrom]
  split
  · rw [taking]
    simp [readFrom.finish]
  · simp only [taking, List.drop_length]
    rw [readFrom]
    rfl

end Grammar

namespace Request

/-! ### Lines -/

/-- A line behind the divider, or behind a word, has no wish for details. -/
theorem quiet_of_not_leading {argument : Text} {rest : List Text} (here : isLeading argument = false) :
    quiet (argument :: rest) = argument :: rest ∧ isLoud (argument :: rest) = false := by
  rw [quiet, isLoud, here]
  exact ⟨rfl, rfl⟩

theorem isLeading_of_mem {argument : Text} (member : argument ∈ verbosities) :
    isLeading argument = true := by
  have sorts := Grammar.classify_verbosity argument member
  unfold isLeading
  rw [sorts, Bool.and_true]
  refine decide_eq_true ?_
  rintro rfl
  exact absurd member (by decide)

theorem quiet_of_mem {argument : Text} (member : argument ∈ verbosities) (rest : List Text) :
    quiet (argument :: rest) = quiet rest ∧ isLoud (argument :: rest) = true := by
  rw [quiet, isLoud, isLeading_of_mem member, List.contains_iff_mem.mpr member]
  exact ⟨rfl, rfl⟩

theorem quiet_of_not_mem {argument : Text} (leading : isLeading argument = true)
    (other : argument ∉ verbosities) (rest : List Text) :
    quiet (argument :: rest) = argument :: quiet rest ∧ isLoud (argument :: rest) = isLoud rest := by
  have apart : verbosities.contains argument = false :=
    Bool.not_eq_true _ ▸ List.contains_iff_mem.not.mpr other
  rw [quiet, isLoud, leading, apart]
  exact ⟨rfl, rfl⟩

theorem sortOut_cons {argument : Text} {rest : List Text}
    (other : argument ≠ [Grammar.hyphen, Grammar.hyphen]) :
    grammar.sortOut (argument :: rest) = do
      let sort ← grammar.classify argument
      let others ← grammar.sortOut rest
      return ⟨argument, sort⟩ :: others := if_neg other

theorem ne_divider_of_isLeading {argument : Text} (leading : isLeading argument = true) :
    argument ≠ [Grammar.hyphen, Grammar.hyphen] :=
  of_decide_eq_true (Bool.and_eq_true_iff.mp leading).1

theorem silent_readFrom_of_not_leading {argument : Text} {rest : List Text} {sorted : List Argument}
    (here : isLeading argument = false) (sorts : grammar.sortOut (argument :: rest) = .ok sorted)
    (strangers : List Text) :
    mentionsDetails (grammar.readFrom grammar.operands strangers sorted).found = false := by
  by_cases divider : argument = [Grammar.hyphen, Grammar.hyphen]
  · -- behind the divider there are words only
    have divided : grammar.sortOut (argument :: rest) =
        .ok (⟨argument, .divider⟩ :: rest.map fun argument => ⟨argument, .word⟩) := if_pos divider
    obtain rfl := Except.ok.inj (divided.symm.trans sorts)
    refine Grammar.silent_readFrom_unswitched ?_
    simp [Grammar.isSwitch, Grammar.isDivider, Grammar.isWord]
  · rw [sortOut_cons divider] at sorts
    obtain ⟨sort, found, behind⟩ := bind_ok_iff.mp sorts
    obtain ⟨others, -, same⟩ := bind_ok_iff.mp behind
    obtain rfl := Except.ok.inj same
    cases sort with
    | word =>
      rw [Grammar.readFrom_word]
      rfl
    | divider | switch | stranger =>
      simp [isLeading, divider, found] at here

/-- **A fault that is noticed before everything else** is noticed without the wish for details as well. -/
theorem sortOut_quiet_error {arguments : List Text} {fault : ArgumentFault}
    (failed : grammar.sortOut arguments = .error fault) :
    grammar.sortOut (quiet arguments) = .error fault := by
  induction arguments with
  | nil => cases failed
  | cons argument rest ih =>
    cases leading : isLeading argument with
    | false =>
      rw [(quiet_of_not_leading leading).1]
      exact failed
    | true =>
      have other := ne_divider_of_isLeading leading
      rw [sortOut_cons other] at failed
      by_cases member : argument ∈ verbosities
      · rw [Grammar.classify_verbosity argument member] at failed
        rw [(quiet_of_mem member rest).1]
        rcases bind_error_iff.mp failed with ⟨⟨⟩⟩ | ⟨sort, ⟨⟩, behind⟩
        rcases bind_error_iff.mp behind with later | ⟨others, -, ⟨⟩⟩
        exact ih later
      · rw [(quiet_of_not_mem leading member rest).1, sortOut_cons other]
        rcases bind_error_iff.mp failed with here | ⟨sort, here, behind⟩
        · rw [here]
          rfl
        · rcases bind_error_iff.mp behind with later | ⟨others, -, ⟨⟩⟩
          rw [here, ih later]
          rfl

/-- **What is found in a line** that is sorted out: without the wish for details the same is found but
for this wish, and unless the reading fails the wish is found just when it is there. The induction is on
the arguments in front of the command, of which only strangers are carried along. -/
theorem readFrom_quiet {arguments : List Text} {sorted : List Argument}
    (sorts : grammar.sortOut arguments = .ok sorted) :
    ∃ others, grammar.sortOut (quiet arguments) = .ok others ∧ ∀ strangers,
      let findings := grammar.readFrom grammar.operands strangers sorted
      grammar.readFrom grammar.operands strangers others = findings.hushed ∧
        ∀ left, findings.ending = .ok left → mentionsDetails findings.found = isLoud arguments := by
  induction arguments generalizing sorted with
  | nil =>
    obtain rfl := Except.ok.inj sorts
    refine ⟨[], rfl, fun strangers => ?_⟩
    rw [Grammar.readFrom]
    refine ⟨rfl, fun left ends => ?_⟩
    cases ends
  | cons argument rest ih =>
    cases leading : isLeading argument with
    | false =>
      obtain ⟨same, silent⟩ := @quiet_of_not_leading _ rest leading
      refine ⟨sorted, same.symm ▸ sorts, fun strangers => ?_⟩
      have unmentioned := silent_readFrom_of_not_leading leading sorts strangers
      refine ⟨?_, fun _ _ => unmentioned.trans silent.symm⟩
      unfold Findings.hushed
      rw [withoutDetails_of_silent unmentioned]
    | true =>
      rw [sortOut_cons (ne_divider_of_isLeading leading)] at sorts
      obtain ⟨sort, here, behind⟩ := bind_ok_iff.mp sorts
      obtain ⟨behindSorted, later, same⟩ := bind_ok_iff.mp behind
      obtain rfl := Except.ok.inj same
      obtain ⟨others, sorts', reads⟩ := ih later
      by_cases member : argument ∈ verbosities
      · obtain ⟨line, loud⟩ := quiet_of_mem member rest
        rw [Grammar.classify_verbosity argument member] at here
        cases here
        refine ⟨others, line.symm ▸ sorts', fun strangers => ?_⟩
        have takes : grammar.takeSwitch verboseSwitch false behindSorted none =
            .ok ⟨[.switch verboseSwitch []], 0⟩ := rfl
        rw [Grammar.readFrom_switch, takes, loud]
        exact ⟨(reads strangers).1, fun _ _ => rfl⟩
      · obtain ⟨line, loud⟩ := quiet_of_not_mem leading member rest
        have sortsHere : grammar.sortOut (argument :: quiet rest) =
            .ok (⟨argument, sort⟩ :: others) := by
          rw [sortOut_cons (ne_divider_of_isLeading leading), here, sorts']
          rfl
        refine ⟨_, line.symm ▸ sortsHere, fun strangers => ?_⟩
        rw [loud]
        cases sort with
        | word => simp [isLeading, here] at leading
        | divider => exact (Grammar.classify_ne_divider here).elim
        | stranger =>
          rw [Grammar.readFrom_stranger, Grammar.readFrom_stranger]
          exact reads _
        | switch switch short attached =>
          rw [Grammar.readFrom_switch, Grammar.readFrom_switch, Grammar.takeSwitch_eq here others,
            Grammar.takeSwitch_eq here behindSorted]
          cases takes : grammar.takeSwitch switch short [] attached with
          | error fault =>
            refine ⟨rfl, fun left ends => ?_⟩
            cases ends
          | ok taken =>
            obtain ⟨more, silent⟩ := Grammar.takeSwitch_plain here takes
            obtain ⟨same, complete⟩ := reads strangers
            simp only [more, List.drop_zero, same]
            exact ⟨(Findings.hushed_behind (silent member) _).symm, fun left ends =>
              (Findings.mentionsDetails_behind (silent member) _).trans (complete left ends)⟩

/-! ### What a line asks for -/

/-- A command that is refused is not a request. -/
theorem ofCommand_ne_request {arguments : List Text} {verbose : Bool} {request : Request} :
    ofCommand arguments ≠ .error (.request verbose request) := by
  have unmade {grammar : Grammar} {usage program help : String} {made : List Finding → Request}
      {others : List Text} :
      readCommand grammar usage program help made others ≠ .error (.request verbose request) := by
    unfold readCommand
    dsimp only
    split_ifs
    · nofun
    · split <;> nofun
  cases arguments with
  | nil => nofun
  | cons command others =>
    unfold ofCommand
    dsimp only
    split_ifs
    · exact unmade
    · exact unmade
    · nofun

section Asking

variable {wanted : Option (Request × List Text)} {verbose : Bool} {findings : Findings}

/-- A switch that asks for details changes nothing but that. -/
theorem ofFindings_hushed {others : Findings} (ends : findings.ending = others.ending)
    (verbose' : Bool) (found : List Finding) :
    (ofFindings wanted verbose findings found).hushed =
      (ofFindings wanted verbose' others (withoutDetails found)).hushed := by
  induction found generalizing wanted verbose verbose' with
  | nil =>
    show (ofFindings wanted verbose findings []).hushed = (ofFindings wanted verbose' others []).hushed
    unfold ofFindings
    rw [ends]
    split
    · rfl
    · rfl
    · split <;> rfl
  | cons finding rest ih =>
    cases finding with
    | operand name arguments =>
      rw [show withoutDetails (.operand name arguments :: rest) =
        .operand name arguments :: withoutDetails rest from rfl, ofFindings, ofFindings]
      cases ofCommand arguments with
      | error reading => rfl
      | ok request => exact ih _
    | switch switch arguments =>
      cases asks : switch.asksDetails with
      | true =>
        obtain ⟨noHelp, noVersion⟩ := Bool.and_eq_true_iff.mp asks
        rw [withoutDetails, List.filter_cons_of_neg (by simp [Finding.asksDetails, asks]), ofFindings,
          if_neg (of_decide_eq_true noHelp), if_neg (of_decide_eq_true noVersion)]
        exact ih _
      | false =>
        rw [withoutDetails, List.filter_cons_of_pos (by simp [Finding.asksDetails, asks]), ofFindings,
          ofFindings]
        split_ifs
        · rfl
        · rfl
        · exact ih _

/-- A request is made in detail just when it is asked for, and only if the reading does not fail. -/
theorem verbose_of_ofFindings {found : List Finding} {verbose' : Bool} {request : Request}
    (asked : ofFindings wanted verbose findings found = .request verbose' request) :
    verbose' = (verbose || mentionsDetails found) ∧ ∃ left, findings.ending = .ok left := by
  induction found generalizing wanted verbose with
  | nil =>
    unfold ofFindings at asked
    split at asked
    · cases asked
    · cases asked
    · rename_i ends
      split at asked
      · cases asked
        exact ⟨(Bool.or_false _).symm, _, ends⟩
      · cases asked
  | cons finding rest ih =>
    cases finding with
    | operand name arguments =>
      rw [ofFindings] at asked
      split at asked
      · rename_i refused
        exact (ofCommand_ne_request (refused.trans (congrArg Except.error asked))).elim
      · exact ih asked
    | switch switch arguments =>
      rw [ofFindings] at asked
      split_ifs at asked with noHelp noVersion
      have asks : switch.asksDetails = true := by simp [Switch.asksDetails, noHelp, noVersion]
      obtain ⟨same, ends⟩ := ih asked
      refine ⟨same.trans ?_, ends⟩
      show (true || _) = (verbose || (switch.asksDetails || _))
      rw [asks, Bool.true_or, Bool.true_or, Bool.or_true]

end Asking

/-- **A line asks for the same without its wish for details.** -/
theorem read_quiet (arguments : List Text) :
    (read (quiet arguments)).hushed = (read arguments).hushed := by
  unfold read Grammar.read
  cases sorts : grammar.sortOut arguments with
  | error fault => rw [sortOut_quiet_error sorts]
  | ok sorted =>
    obtain ⟨others, sorts', reads⟩ := readFrom_quiet sorts
    rw [sorts']
    dsimp only
    rw [(reads []).1]
    have same : (grammar.readFrom grammar.operands [] sorted).ending =
        (grammar.readFrom grammar.operands [] sorted).hushed.ending := rfl
    exact (ofFindings_hushed same false _).symm

/-- **A request is made in detail** just when the line wishes for it. -/
theorem verbose_of_read {arguments : List Text} {verbose : Bool} {request : Request}
    (asked : read arguments = .request verbose request) : verbose = isLoud arguments := by
  unfold read Grammar.read at asked
  dsimp only at asked
  obtain ⟨same, left, ends⟩ := verbose_of_ofFindings asked
  cases sorts : grammar.sortOut arguments with
  | error fault =>
    rw [sorts] at ends
    cases ends
  | ok sorted =>
    rw [sorts] at ends same
    obtain ⟨others, -, reads⟩ := readFrom_quiet sorts
    rw [same, Bool.false_or]
    exact (reads []).2 left ends

/-- In front of the command the switch counts, however short; behind it the argument is the command's. -/
example : quiet ["--verb", "plan", "--verbose"] = ["plan", "--verbose"] ∧
    isLoud ["--verb", "plan", "--verbose"] = true ∧ isLoud ["plan", "--verbose"] = false := by decide

end Request

end Splice
