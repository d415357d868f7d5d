/-
**Runs.**

A run reads a command line in a tree of files and answers with an ending, the octets of the output,
the notices on the error stream, and the tree as it is then. Nothing else is read or changed. It takes
the machine as it finds it; where nothing else is said, this is the standard one.

* `run`: the answer to a command line;
* `Outcome.printed`: the error stream, with the events that reach the threshold in force;
* `Ending`: an exit code, or a fault of the files or the program that no message replaces.
-/

import Splice.Command.Request
import Splice.Session
import Splice.Standard.Records
import Splice.Standard.Runtime

namespace Splice

/-- What a run finds: the files, and the word that names the threshold of the journal. -/
structure World where
  tree : Tree
  levelWord : Option Text

/-- A fault that ends a run without a message. -/
inductive Breakdown where
  | file (fault : FileFault) (name : PathName)
  | undecodable (fault : Utf8.Fault)
  | failure (failure : Failure)
  | lostOperand
  | lostEncoding
  | lostVariable

/-- How a run ends. -/
inductive Ending where
  | exit (code : Nat)
  | broken (breakdown : Breakdown)

/-- Something for the error stream. -/
inductive Notice where
  | event (event : Event)
  | message (text : Text)

/-- What comes of a run. -/
structure Outcome where
  ending : Ending
  output : Bytes
  notices : List Notice
  tree : Tree

/-- The text of a breakdown. -/
def Breakdown.message [Schema] : Breakdown → Text
  | .file fault name => fault.message name
  | .undecodable fault => fault.message
  | .failure cause => cause.message
  | .lostOperand => "'list' object has no attribute 'exists'"
  | .lostEncoding => "lookup() argument must be str, not list"
  | .lostVariable => "'list' object has no attribute 'partition'"

namespace Command

/-- Why a command goes no further: a message and exit code 1, or a breakdown. -/
inductive Halt where
  | message (text : Text)
  | breakdown (breakdown : Breakdown)

/-- The notices so far, and a result or why there is none. -/
structure Progress (α : Type) where
  notices : List Notice
  result : Except Halt α

/-- A message in a line of its own. -/
def line (text : Text) : Notice := .message (text ++ [.scalar '\n'])

/-- Events as notices. -/
def noted (events : List Event) : List Notice := events.map .event

/-- A halt with an error message. -/
def errorLine (text : Text) : Halt := .message (Text.ofString "Error: " ++ text)

/-- The end of a command that halts. -/
def Halt.ending : Halt → Ending
  | .message _ => .exit 1
  | .breakdown cause => .broken cause

/-- What a halt says. -/
def Halt.notices : Halt → List Notice
  | .message text => [line text]
  | .breakdown _ => []

/-- Whether faults of a kind are reported by a message when they come without their template. -/
def isReported : Template.Kind → Bool
  | .key | .index | .value | .lookup => true
  | .attribute | .type | .overflow | .memory | .recursion | .other => false

section Machine

variable [Runtime]

/-- The halt of a failure: a message, but for the faults of a template that are not reported. -/
def haltOf (failure : Failure) : Halt :=
  match failure with
  | .render (.unwrapped fault) =>
    if isReported fault.kind then errorLine failure.message else .breakdown (.failure failure)
  | _ => errorLine failure.message

/-! ### Reading the two files -/

/-- Line ends of every kind as line feeds. -/
def unifiedLines : List Char → List Char
  | '\r' :: '\n' :: rest => '\n' :: unifiedLines rest
  | '\r' :: rest => '\n' :: unifiedLines rest
  | char :: rest => char :: unifiedLines rest
  | [] => []

/-- The name of a file that must be there. -/
def present (tree : Tree) (complaint : String) (operand : Operand) : Except Halt PathName :=
  match operand with
  | none => .error (.breakdown .lostOperand)
  | some name =>
    match tree.leadsSomewhere name with
    | .error fault => .error (.breakdown (.file fault name))
    | .ok true => .ok name
    | .ok false => .error (errorLine (Text.ofString complaint ++ name.shown))

/-- The text of a source. -/
def sourceText (tree : Tree) (name : PathName) : Except Halt Text :=
  match tree.readFile name with
  | .error fault => .error (.breakdown (.file fault name))
  | .ok octets =>
    match Utf8.decode octets with
    | .error fault => .error (.breakdown (.undecodable fault))
    | .ok chars => .ok (Text.ofChars chars)

/-- A halt that names the script. -/
def loadingHalt (name : PathName) (text : Text) : Halt :=
  .message (Text.concat ["Error loading edits from ", name.shown, ": ", text])

/-- The script in a file. A document that is nested too deep is not reported. -/
def scriptOf (tree : Tree) (name : PathName) : Except Halt Script :=
  match tree.readFile name with
  | .error fault => .error (.breakdown (.file fault name))
  | .ok octets =>
    match Utf8.decode octets with
    | .error fault => .error (loadingHalt name fault.message)
    | .ok chars =>
      match Script.parse (Text.ofChars (unifiedLines chars)) with
      | .error fault =>
        if fault.isDepth then .error (.breakdown (.failure (.script fault)))
        else .error (loadingHalt name fault.message)
      | .ok script => .ok script

/-- The two files of a command: the text of the source, the name of the script, and the script. -/
def files (tree : Tree) (source script : Operand) : Except Halt (Text × PathName × Script) := do
  let sourceName ← present tree "File not found: " source
  let scriptName ← present tree "Edits file not found: " script
  let text ← sourceText tree sourceName
  let script ← scriptOf tree scriptName
  return (text, scriptName, script)

/-- The draft of a source with all edits of a script. -/
def draftOf (tree : Tree) (source script : Operand) : Progress Draft :=
  match files tree source script with
  | .error halt => ⟨[], .error halt⟩
  | .ok (text, name, script) =>
    let reply := (Session.ofText text).load script
    match reply.result with
    | .error failure => ⟨noted reply.events, .error (loadingHalt name failure.message)⟩
    | .ok _ => ⟨noted reply.events, .ok reply.session.draft⟩

/-- The edits that take effect, or the clash between two of them. -/
def planOf (draft : Draft) : Progress (List Edit) :=
  let plan := draft.plan
  match plan.result with
  | .error clash => ⟨noted plan.events, .error (errorLine clash.message)⟩
  | .ok kept => ⟨noted plan.events, .ok kept⟩

/-! ### Showing the plan -/

/-- A command that halts. -/
def halted (notices : List Notice) (halt : Halt) (output : Bytes) (tree : Tree) : Outcome :=
  ⟨halt.ending, output, notices ++ halt.notices, tree⟩

/-- A command that shows a text on the console. -/
def shown (tree : Tree) (notices : List Notice) (text : Text) (more : List Notice) : Outcome :=
  match Console.print text with
  | .error fault => halted notices (.breakdown (.failure (.unencodable fault))) [] tree
  | .ok octets => ⟨.exit 0, octets, notices ++ more, tree⟩

/-- Shows which edits of a script take effect. -/
def plan (tree : Tree) (source script : Operand) : Outcome :=
  let drafted := draftOf tree source script
  match drafted.result with
  | .error halt => halted drafted.notices halt [] tree
  | .ok draft =>
    let planned := planOf draft
    let notices := drafted.notices ++ planned.notices
    match planned.result with
    | .error halt => halted notices halt [] tree
    | .ok kept =>
      let stats := Text.concat ["Stats: ", Text.digits 10 kept.length, " applied, ",
        Text.digits 10 (draft.edits.length - kept.length), " contained."]
      shown tree notices (kept.flatMap fun edit => edit.summary ++ [.scalar '\n']) [line stats]

/-! ### Applying a script -/

/-- The context that variables spell. -/
def contextOf (bindings : List SwitchValue) : Except Halt Context :=
  match Variable.parseAll bindings with
  | .error (.shapeless pair) =>
    .error (errorLine (Text.concat ["Expected NAME=VALUE, got '", pair, "'"]))
  | .error .lost => .error (.breakdown .lostVariable)
  | .ok record => .ok (some record)

/-- The name of an encoding that there is. -/
def encodingOf (name : SwitchValue) : Except Halt Text :=
  match name with
  | none => .error (.breakdown .lostEncoding)
  | some name =>
    match Codecs.named name with
    | .ok _ => .ok name
    | .error (.unknown _) => .error (errorLine (Text.ofString "Unknown encoding: " ++ name))
    | .error fault => .error (errorLine fault.message)

/-- The octets that a sink has taken. -/
def taken (marks : List Mark) : Bytes :=
  marks.flatMap fun
    | .wrote (.octets octets) => octets
    | .wrote (.text _) | .drained => []

/-- A halt because a file cannot be opened: a message when its name is at fault. -/
def openingHalt (fault : FileFault) (name : PathName) : Halt :=
  if fault.ofName then errorLine (fault.message name) else .breakdown (.file fault name)

/-- The end of a command that has written a file. -/
def saved (notices : List Notice) (name : PathName) (tree : Tree) : Outcome :=
  ⟨.exit 0, [], notices ++ [line (Text.ofString "✅ Saved to " ++ name.shown)], tree⟩

/-- Writes piece by piece to a file, which is emptied first. -/
def streamToFile (tree : Tree) (notices : List Notice) (draft : Draft) (context : Context)
    (encoding : Text) (name : PathName) : Outcome :=
  match tree.writeFile name [] with
  | .error fault => halted notices (openingHalt fault name) [] tree
  | .ok emptied =>
    let delivery := draft.deliver context (some encoding) .accepting []
    let notices := notices ++ noted delivery.events
    let written := (emptied.writeFile name (taken delivery.marks)).toOption.getD emptied
    match delivery.result with
    | .error failure => halted notices (haltOf failure) [] written
    | .ok _ => saved notices name written

/-- The octets of a whole text for a file that has been opened in an encoding. -/
def fileOctets (encoding : Text) (text : Text) : Except Failure Bytes :=
  match Codecs.ofName encoding "codecs.open()" with
  | .error fault => .error (.charsetName fault)
  | .ok codec =>
    match codec.store text with
    | .error fault => .error (.unencodable fault)
    | .ok octets => .ok octets

/-- Writes the whole text to a file, which is emptied first. -/
def writeToFile (tree : Tree) (notices : List Notice) (draft : Draft) (context : Context)
    (encoding : Text) (name : PathName) : Outcome :=
  let rendering := draft.render context []
  let notices := notices ++ noted rendering.events
  match rendering.result with
  | .error failure => halted notices (haltOf failure) [] tree
  | .ok text =>
    match tree.writeFile name [] with
    | .error fault => halted notices (openingHalt fault name) [] tree
    | .ok emptied =>
      match fileOctets encoding text with
      | .error failure => halted notices (haltOf failure) [] emptied
      | .ok octets => saved notices name ((emptied.writeFile name octets).toOption.getD emptied)

/-- Writes piece by piece to the output. -/
def streamToOutput (tree : Tree) (notices : List Notice) (draft : Draft) (context : Context)
    (encoding : Text) : Outcome :=
  let delivery := draft.deliver context (some encoding) .accepting []
  let notices := notices ++ noted delivery.events
  match delivery.result with
  | .error failure => halted notices (haltOf failure) (taken delivery.marks) tree
  | .ok _ => ⟨.exit 0, taken delivery.marks, notices, tree⟩

/-- Writes the whole text to the console. -/
def writeToOutput (tree : Tree) (notices : List Notice) (draft : Draft) (context : Context) :
    Outcome :=
  let rendering := draft.render context []
  let notices := notices ++ noted rendering.events
  match rendering.result with
  | .error failure => halted notices (haltOf failure) [] tree
  | .ok text =>
    match Console.print text with
    | .error fault => halted notices (haltOf (.unencodable fault)) [] tree
    | .ok octets => ⟨.exit 0, octets, notices, tree⟩

/-- Writes the text of a draft to a file or to the output, as a whole or piece by piece. -/
def emit (tree : Tree) (notices : List Notice) (draft : Draft) (context : Context)
    (encoding : Text) (output : Option PathName) (stream : Bool) : Outcome :=
  match output, stream with
  | some name, true => streamToFile tree notices draft context encoding name
  | some name, false => writeToFile tree notices draft context encoding name
  | none, true => streamToOutput tree notices draft context encoding
  | none, false => writeToOutput tree notices draft context

/-- Applies a script. Variables are examined before the encoding, and a clash shows before anything
is written. -/
def apply (tree : Tree) (source script : Operand) (options : ApplyOptions) : Outcome :=
  let drafted := draftOf tree source script
  match drafted.result with
  | .error halt => halted drafted.notices halt [] tree
  | .ok draft =>
    match contextOf options.bindings with
    | .error halt => halted drafted.notices halt [] tree
    | .ok context =>
      match encodingOf options.encoding with
      | .error halt => halted drafted.notices halt [] tree
      | .ok encoding =>
        let planned := planOf draft
        let notices := drafted.notices ++ planned.notices
        match planned.result with
        | .error halt => halted notices halt [] tree
        | .ok _ => emit tree notices draft context encoding options.output options.stream

end Machine

end Command

/-- The answer to a command line, and the threshold of its journal. -/
def run [Runtime] (world : World) (arguments : List Text) : Threshold × Outcome :=
  let named := Threshold.named (world.levelWord.getD (Text.ofString "WARNING"))
  match Request.read arguments with
  | .display text => (named, Command.shown world.tree [] text [])
  | .refusal text => (named, ⟨.exit 2, [], [.message text], world.tree⟩)
  | .request verbose request =>
    let threshold := if verbose then Threshold.details else named
    match request with
    | .apply source script options => (threshold, Command.apply world.tree source script options)
    | .plan source script => (threshold, Command.plan world.tree source script)

/-- A notice as it is printed: an event only when it reaches the threshold. -/
def Notice.printed [Journal] (threshold : Threshold) (stamp : Text) : Notice → Text
  | .event reported =>
    if Journal.admits threshold reported.level then Journal.line stamp reported ++ [.scalar '\n']
    else []
  | .message text => text

/-- The error stream. A surrogate is written as an escape. -/
def Outcome.printed [Journal] (outcome : Outcome) (threshold : Threshold) (stamp : Text) : Text :=
  (outcome.notices.flatMap (Notice.printed threshold stamp)).flatMap fun point =>
    if point.isSurrogate then point.escaped else [point]

end Splice
