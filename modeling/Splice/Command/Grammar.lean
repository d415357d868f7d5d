/-
**Command lines.**

A command line is a row of arguments: switches, which begin with a hyphen and may take a value, and
operands. A long switch may be cut short as long as one switch alone begins with it; its value may
follow behind `=`. Short switches without values may be run together. Behind `--`, the divider,
everything is an operand. A divider is no value of a switch and no operand either, so one that
stands alone in place of such a value leaves nothing in that place.

Reading gives the switches and operands in the order in which they are met, each with its value, so
that one which ends the program does so before anything behind it is examined; a fault or the
arguments that nothing could take come last. Only an ambiguous switch is noticed before everything
else.

* `Grammar.read`: the findings of a command line, and how the reading ends;
* `Grammar.classify`: what one argument is;
* `ArgumentFault.message`: the text of a fault.
-/

import Splice.Text.Quoted
import Splice.Text.Digits

namespace Splice

/-- A switch: the texts that spell it, and whether it takes a value. -/
structure Switch where
  names : List String
  takesValue : Bool
  deriving DecidableEq, Repr

/-- What a command line may hold: its switches, and the names of its operands. The last operand may
take everything that follows it. -/
structure Grammar where
  switches : List Switch
  operands : List String
  lastTakesAll : Bool

/-- Why a command line is refused. -/
inductive ArgumentFault where
  | ambiguous (argument : Text) (names : List String)
  | valueMissing (switch : Switch)
  | valueIgnored (switch : Switch) (value : Text)
  | operandsMissing (names : List String)
  | badChoice (operand : String) (value : Text) (choices : List String)
  | unrecognized (arguments : List Text)

/-- Something that a command line says: a switch or an operand, with its arguments. -/
inductive Finding where
  | switch (switch : Switch) (arguments : List Text)
  | operand (name : String) (arguments : List Text)

/-- Everything that a command line says, and how its reading ends: with the arguments that nothing
took, or with a fault. -/
structure Findings where
  found : List Finding
  ending : Except ArgumentFault (List Text)

/-- What an argument is. A switch may have something attached to it. -/
inductive ArgumentSort where
  | word
  | divider
  | switch (switch : Switch) (short : Bool) (attached : Option Text)
  | stranger

/-- An argument and what it is. -/
structure Argument where
  text : Text
  sort : ArgumentSort

namespace Grammar

/-- The names of the switches, each with its switch, in order. -/
def spellings (grammar : Grammar) : List (String × Switch) :=
  grammar.switches.flatMap fun switch => switch.names.map (·, switch)

/-- The switch of a name. -/
def switch? (grammar : Grammar) (name : Text) : Option Switch :=
  (grammar.spellings.find? fun (spelling, _) => Text.ofString spelling = name).map (·.2)

/-- The hyphen. -/
def hyphen : CodePoint := .scalar '-'

/-- Whether a name has a single hyphen. -/
def isShort (name : Text) : Bool := name.tail.head? ≠ some hyphen

/-- Whether an argument is a negative number: digits, with a point among or before them, and perhaps
a line feed at the end. -/
def isNegativeNumber (argument : Text) : Bool :=
  let isDigit (point : CodePoint) : Bool := point.decimalDigit?.isSome
  let ends (rest : Text) : Bool := rest = [] || rest = [.scalar '\n']
  match argument with
  | .scalar '-' :: rest =>
    let behind := rest.dropWhile isDigit
    (ends behind && (rest.takeWhile isDigit) ≠ []) ||
      match behind with
      | .scalar '.' :: fraction =>
        (fraction.takeWhile isDigit) ≠ [] && ends (fraction.dropWhile isDigit)
      | _ => false
  | _ => false

/-- The switches that an argument may be short for, with the value attached to it. -/
def candidates (grammar : Grammar) (argument : Text) : List (String × ArgumentSort) :=
  if isShort argument then
    grammar.spellings.filterMap fun (spelling, switch) =>
      if Text.ofString spelling = argument.take 2 then
        some (spelling, .switch switch true (some (argument.drop 2)))
      else if (Text.ofString spelling).startsWith argument then
        some (spelling, .switch switch (isShort (Text.ofString spelling)) none)
      else none
  else
    let (start, attached) := match argument.splitAt? (.scalar '=') with
      | some (start, value) => (start, some value)
      | none => (argument, none)
    grammar.spellings.filterMap fun (spelling, switch) =>
      if (Text.ofString spelling).startsWith start then
        some (spelling, .switch switch false attached)
      else none

/-- What an argument in front of the divider is. -/
def classify (grammar : Grammar) (argument : Text) : Except ArgumentFault ArgumentSort :=
  match argument with
  | [] => .ok .word
  | first :: rest =>
    if first ≠ hyphen then .ok .word
    else match grammar.switch? argument with
    | some switch => .ok (.switch switch (isShort argument) none)
    | none =>
      if rest.isEmpty then .ok .word
      else
        let signed := (argument.splitAt? (.scalar '=')).bind fun (name, value) =>
          (grammar.switch? name).map fun switch =>
            ArgumentSort.switch switch (isShort name) (some value)
        match signed with
        | some sort => .ok sort
        | none =>
          match grammar.candidates argument with
          | [(_, sort)] => .ok sort
          | [] =>
            if isNegativeNumber argument || argument.contains (.scalar ' ') then .ok .word
            else .ok .stranger
          | several => .error (.ambiguous argument (several.map (·.1)))

/-- What the arguments are. Behind the divider all are words. -/
def sortOut (grammar : Grammar) : List Text → Except ArgumentFault (List Argument)
  | [] => .ok []
  | argument :: rest =>
    if argument = [hyphen, hyphen] then
      .ok (⟨argument, .divider⟩ :: rest.map fun argument => ⟨argument, .word⟩)
    else do
      let sort ← grammar.classify argument
      let others ← grammar.sortOut rest
      return ⟨argument, sort⟩ :: others

/-! ### Operands -/

/-- Whether an argument is the divider. -/
def isDivider (argument : Argument) : Bool :=
  match argument.sort with
  | .divider => true
  | _ => false

/-- Whether an argument is a word. -/
def isWord (argument : Argument) : Bool :=
  match argument.sort with
  | .word => true
  | _ => false

/-- Whether an argument is a switch, known or not. -/
def isSwitch (argument : Argument) : Bool := !isDivider argument && !isWord argument

/-- How many arguments at the front make one operand: a word with a divider on either side. -/
def operandSize (arguments : List Argument) : Option Nat :=
  let before := (arguments.takeWhile isDivider).length
  match arguments.drop before with
  | argument :: rest =>
    if isWord argument then some (before + 1 + (rest.takeWhile isDivider).length) else none
  | [] => none

/-- Arguments without the first divider among them. -/
def undivided (arguments : List Text) : List Text := arguments.erase [hyphen, hyphen]

/-- The operands at the front, as many as are wanted and there are: the findings, the names of the
operands still wanted, and how many arguments were taken. -/
def takeOperands (grammar : Grammar) (arguments : List Argument) :
    List String → List Finding × List String × Nat
  | [] => ([], [], 0)
  | name :: names =>
    match operandSize arguments with
    | none => ([], name :: names, 0)
    | some size =>
      if names.isEmpty && grammar.lastTakesAll then
        ([.operand name (arguments.map Argument.text)], [], arguments.length)
      else
        let (found, wanted, taken) := takeOperands grammar (arguments.drop size) names
        (.operand name (undivided ((arguments.take size).map Argument.text)) :: found, wanted,
          size + taken)

/-! ### Switches -/

/-- What a switch at the front says, and how many of the arguments behind it belong to it. -/
structure Taken where
  found : List Finding
  more : Nat

/-- A switch with a value. -/
def valued (switch : Switch) (value : Text) : Finding := .switch switch (undivided [value])

/-- A switch with nothing attached, in front of the other arguments. -/
def takeDetached (switch : Switch) (rest : List Argument) : Except ArgumentFault Taken :=
  if switch.takesValue then
    match rest with
    | argument :: _ =>
      if isWord argument then .ok ⟨[valued switch argument.text], 1⟩
      else .error (.valueMissing switch)
    | [] => .error (.valueMissing switch)
  else .ok ⟨[.switch switch []], 0⟩

/-- A switch with something attached, which is its value or a row of short switches. -/
def takeAttached (grammar : Grammar) (rest : List Argument) (switch : Switch) (short : Bool) :
    Text → Except ArgumentFault Taken
  | [] =>
    if switch.takesValue then .ok ⟨[valued switch []], 0⟩ else .error (.valueIgnored switch [])
  | letter :: others =>
    if switch.takesValue then .ok ⟨[valued switch (letter :: others)], 0⟩
    else match if short then grammar.switch? [hyphen, letter] else none with
    | none => .error (.valueIgnored switch (letter :: others))
    | some next =>
      let following :=
        if others.isEmpty then takeDetached next rest
        else takeAttached grammar rest next short others
      following.map fun taken => { taken with found := .switch switch [] :: taken.found }

/-- What the switch at the front says. -/
def takeSwitch (grammar : Grammar) (switch : Switch) (short : Bool) (rest : List Argument) :
    Option Text → Except ArgumentFault Taken
  | some attached => grammar.takeAttached rest switch short attached
  | none => takeDetached switch rest

/-! ### Whole lines -/

/-- Findings in front of others. -/
def Findings.behind (found : List Finding) (findings : Findings) : Findings :=
  { findings with found := found ++ findings.found }

/-- The findings of arguments, given the operands still wanted and the arguments that
nothing took. -/
def readFrom (grammar : Grammar) (wanted : List String) (strangers : List Text)
    (arguments : List Argument) : Findings :=
  match arguments with
  | [] => finish [] wanted strangers
  | argument :: rest =>
    if !(argument :: rest).any isSwitch then
      let (found, wanted, taken) := grammar.takeOperands (argument :: rest) wanted
      finish found wanted (strangers ++ ((argument :: rest).drop taken).map Argument.text)
    else match argument.sort with
    | .stranger => readFrom grammar wanted (strangers ++ [argument.text]) rest
    | .switch switch short attached =>
      match grammar.takeSwitch switch short rest attached with
      | .error fault => ⟨[], .error fault⟩
      | .ok taken =>
        Findings.behind taken.found (readFrom grammar wanted strangers (rest.drop taken.more))
    | .word | .divider =>
      match grammar.takeOperands (argument :: rest) wanted with
      | (found, wanted, taken + 1) =>
        Findings.behind found (readFrom grammar wanted strangers (rest.drop taken))
      | (_, _, 0) => readFrom grammar wanted (strangers ++ [argument.text]) rest
termination_by arguments.length
decreasing_by all_goals simp [List.length_drop]; try omega
where
  /-- The end of a line: operands that are still wanted are a fault. -/
  finish (found : List Finding) (wanted : List String) (strangers : List Text) : Findings :=
    if wanted.isEmpty then ⟨found, .ok strangers⟩ else ⟨found, .error (.operandsMissing wanted)⟩

/-- The findings of a command line. -/
def read (grammar : Grammar) (arguments : List Text) : Findings :=
  match grammar.sortOut arguments with
  | .error fault => ⟨[], .error fault⟩
  | .ok sorted => grammar.readFrom grammar.operands [] sorted

end Grammar

/-- The name by which messages call a switch. -/
def Switch.title (switch : Switch) : Text :=
  Text.joined [.scalar '/'] (switch.names.map Text.ofString)

/-- The text of a fault. -/
def ArgumentFault.message : ArgumentFault → Text
  | .ambiguous argument names =>
    Text.concat ["ambiguous option: ", argument, " could match ",
      Text.joined (Text.ofString ", ") (names.map Text.ofString)]
  | .valueMissing switch => Text.concat ["argument ", switch.title, ": expected one argument"]
  | .valueIgnored switch value =>
    Text.concat ["argument ", switch.title, ": ignored explicit argument ", value.quoted]
  | .operandsMissing names =>
    Text.concat ["the following arguments are required: ",
      Text.joined (Text.ofString ", ") (names.map Text.ofString)]
  | .badChoice operand value choices =>
    Text.concat ["argument ", operand, ": invalid choice: ", value.quoted, " (choose from ",
      Text.joined (Text.ofString ", ") (choices.map fun choice => (Text.ofString choice).quoted),
      ")"]
  | .unrecognized arguments =>
    Text.concat ["unrecognized arguments: ", Text.joined [.scalar ' '] arguments]

end Splice
