/-
**Requests.**

A command line asks for one of two things: to apply an edit script to a text file, or to show which
edits of the script take effect. It may also ask for help or the version, or be refused.

* `Request.read`: what a command line asks for;
* `Variable.parseAll`: the context that variables spell, the last value of a name counting;
* `Reading`: a request, a text to show, or a refusal.
-/

import Splice.Command.Grammar
import Splice.Command.Tree
import Splice.Value

namespace Splice

/-- An operand that names a path. A lone divider gives an operand no text at all. -/
abbrev Operand := Option PathName

/-- The value of a switch. A lone divider gives a switch no text at all. -/
abbrev SwitchValue := Option Text

/-- What `apply` is told beside its two files. -/
structure ApplyOptions where
  output : Option PathName
  stream : Bool
  encoding : SwitchValue
  bindings : List SwitchValue
  deriving DecidableEq

/-- What a command line asks for. -/
inductive Request where
  | apply (source script : Operand) (options : ApplyOptions)
  | plan (source script : Operand)
  deriving DecidableEq

/-- What comes of reading a command line. -/
inductive Reading where
  | request (verbose : Bool) (request : Request)
  | display (text : Text)
  | refusal (text : Text)
  deriving DecidableEq

namespace Request

/-! ### Texts -/

/-- How the program is called. -/
def usage : String := "usage: patchwork [-h] [-v] [--verbose] \x7bapply,plan\x7d ...\n"

/-- How `apply` is called. -/
def applyUsage : String :=
  "usage: patchwork apply [-h] [-o OUTPUT] [--stream] [--encoding ENCODING]\n" ++
  "                       [--var NAME=VALUE]\n" ++
  "                       source edits\n"

/-- How `plan` is called. -/
def planUsage : String := "usage: patchwork plan [-h] source edits\n"

/-- The help of the program. -/
def help : String :=
  usage ++
  "\n" ++
  "Patchwork: positional text rewriting\n" ++
  "\n" ++
  "positional arguments:\n" ++
  "  \x7bapply,plan\x7d   Subcommands\n" ++
  "    apply        Apply a JSON edit file to a text file\n" ++
  "    plan         Show which edits survive merging\n" ++
  "\n" ++
  "options:\n" ++
  "  -h, --help     show this help message and exit\n" ++
  "  -v, --version  show program's version number and exit\n" ++
  "  --verbose      Log debug output to stderr\n"

/-- The help of `apply`. -/
def applyHelp : String :=
  applyUsage ++
  "\n" ++
  "positional arguments:\n" ++
  "  source                Original text file\n" ++
  "  edits                 JSON file containing edits\n" ++
  "\n" ++
  "options:\n" ++
  "  -h, --help            show this help message and exit\n" ++
  "  -o OUTPUT, --output OUTPUT\n" ++
  "                        Output file (default: stdout)\n" ++
  "  --stream              Write chunks as they are produced\n" ++
  "  --encoding ENCODING   Output encoding (default: utf-8)\n" ++
  "  --var NAME=VALUE      Context value available to template edits (repeatable)\n"

/-- The help of `plan`. -/
def planHelp : String :=
  planUsage ++
  "\n" ++
  "positional arguments:\n" ++
  "  source      Original text file\n" ++
  "  edits       JSON file containing edits\n" ++
  "\n" ++
  "options:\n" ++
  "  -h, --help  show this help message and exit\n"

/-- The name and the version of the program. -/
def version : String := "patchwork 0.1.0\n"

/-! ### Grammars -/

/-- Asks for help. -/
def helpSwitch : Switch := ⟨["-h", "--help"], false⟩

/-- Asks for the version. -/
def versionSwitch : Switch := ⟨["-v", "--version"], false⟩

/-- Asks for every detail in the journal. -/
def verboseSwitch : Switch := ⟨["--verbose"], false⟩

/-- Names the file that is written. -/
def outputSwitch : Switch := ⟨["-o", "--output"], true⟩

/-- Asks for writing piece by piece. -/
def streamSwitch : Switch := ⟨["--stream"], false⟩

/-- Names the encoding that is written. -/
def encodingSwitch : Switch := ⟨["--encoding"], true⟩

/-- Gives a variable its value. -/
def variableSwitch : Switch := ⟨["--var"], true⟩

/-- The line of the program: its command takes everything that follows. -/
def grammar : Grammar := ⟨[helpSwitch, versionSwitch, verboseSwitch], ["command"], true⟩

/-- The line of `apply`. -/
def applyGrammar : Grammar :=
  ⟨[helpSwitch, outputSwitch, streamSwitch, encodingSwitch, variableSwitch],
    ["source", "edits"], false⟩

/-- The line of `plan`. -/
def planGrammar : Grammar := ⟨[helpSwitch], ["source", "edits"], false⟩

/-! ### Reading -/

/-- The refusal of a command line, with how the program is called. -/
def refused (usage program : String) (fault : ArgumentFault) : Reading :=
  .refusal (Text.concat [usage, program, ": error: ", fault.message, "\n"])

/-- Whether a switch is among findings. -/
def mentions (switch : Switch) (found : List Finding) : Bool :=
  found.any fun
    | .switch other _ => other = switch
    | .operand _ _ => false

/-- The values of a switch, in order. -/
def valuesOf (switch : Switch) (found : List Finding) : List SwitchValue :=
  found.filterMap fun
    | .switch other arguments => if other = switch then some arguments.head? else none
    | .operand _ _ => none

/-- The path that an operand names. -/
def operandOf (name : String) (found : List Finding) : Operand :=
  found.findSome? fun
    | .operand other arguments => if other = name then arguments.head?.map PathName.ofText else none
    | .switch _ _ => none

/-- The options of `apply`; of a repeated switch the last value counts. -/
def optionsOf (found : List Finding) : ApplyOptions where
  output := (valuesOf outputSwitch found).getLast?.join.map PathName.ofText
  stream := mentions streamSwitch found
  encoding := (valuesOf encodingSwitch found).getLast?.getD (some (Text.ofString "utf-8"))
  bindings := valuesOf variableSwitch found

/-- What the line behind a command asks for, with the arguments that nothing took. -/
def readCommand (grammar : Grammar) (usage program help : String) (request : List Finding → Request)
    (arguments : List Text) : Except Reading (Request × List Text) :=
  let findings := grammar.read arguments
  if mentions helpSwitch findings.found then .error (.display (Text.ofString help))
  else match findings.ending with
  | .error fault => .error (refused usage program fault)
  | .ok strangers => .ok (request findings.found, strangers)

/-- The commands. -/
def commands : List String := ["apply", "plan"]

/-- What a command and the arguments behind it ask for. -/
def ofCommand : List Text → Except Reading (Request × List Text)
  | [] => .error (.refusal [])
  | command :: arguments =>
    if command = Text.ofString "apply" then
      readCommand applyGrammar applyUsage "patchwork apply" applyHelp
        (fun found => .apply (operandOf "source" found) (operandOf "edits" found) (optionsOf found))
        arguments
    else if command = Text.ofString "plan" then
      readCommand planGrammar planUsage "patchwork plan" planHelp
        (fun found => .plan (operandOf "source" found) (operandOf "edits" found)) arguments
    else .error (refused usage "patchwork" (.badChoice "command" command commands))

/-- What findings ask for, in order: help and version end the reading, and so does a command that is
refused. `request` is what the command asks for, once it has been met. -/
def ofFindings (request : Option (Request × List Text)) (verbose : Bool) (findings : Findings) :
    List Finding → Reading
  | [] =>
    match findings.ending, request with
    | .error fault, _ => refused usage "patchwork" fault
    | .ok _, none => .refusal []
    | .ok strangers, some (request, others) =>
      if (strangers ++ others).isEmpty then .request verbose request
      else refused usage "patchwork" (.unrecognized (strangers ++ others))
  | .switch switch _ :: rest =>
    if switch = helpSwitch then .display (Text.ofString help)
    else if switch = versionSwitch then .display (Text.ofString version)
    else ofFindings request true findings rest
  | .operand _ arguments :: rest =>
    match ofCommand arguments with
    | .error reading => reading
    | .ok request => ofFindings (some request) verbose findings rest

/-- What a command line asks for. -/
def read (arguments : List Text) : Reading :=
  let findings := grammar.read arguments
  ofFindings none false findings findings.found

end Request

/-! ### Variables -/

namespace Variable

/-- The name and the value of a variable: what stands before and behind the first equals sign, the
name not being empty. -/
def parse? (pair : Text) : Option (Text × Text) :=
  match pair.splitAt? (.scalar '=') with
  | some (name, value) => if name.isEmpty then none else some (name, value)
  | none => none

/-- The fault of a text that spells no variable, or of a value without a text. -/
inductive Fault where
  | shapeless (pair : Text)
  | lost
  deriving DecidableEq

/-- The values of variables, added to a record, or the first fault. -/
def collect (record : Record) : List SwitchValue → Except Fault Record
  | [] => .ok record
  | none :: _ => .error .lost
  | some pair :: rest =>
    match parse? pair with
    | none => .error (.shapeless pair)
    | some (name, value) => collect (record.put name (.text value)) rest

/-- The values of variables, or the first fault. -/
def parseAll (pairs : List SwitchValue) : Except Fault Record := collect [] pairs

end Variable

end Splice
