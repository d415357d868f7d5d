/-
**Emissions.**

An emission walks over a text and the edits that take effect. It takes the text between the edits as
it stands and asks each edit's replacement for its text, in order, each at most once, and nothing
after the first failure. Replacements without text produce nothing.

The pieces of a walk can be gathered into one text, or delivered piece by piece to a sink, which may
refuse a write. A sink may also be asynchronous: it makes a write at once or when the write is
awaited, and one that drains does so after every write, and may refuse that too.

* `stretches`: the parts of the text to be kept and the edits to be rendered, in order;
* `Draft.render`: the whole text;
* `Draft.deliver`, `Draft.deliverAsync`: the writes to a sink, with or without an encoding.
-/

import Splice.Draft
import Splice.Event

namespace Splice

/-! ### The walk -/

/-- A stretch of the way: a part of the text that is kept, or an edit to be rendered. -/
inductive Stretch where
  | kept (text : Text)
  | replaced (edit : Edit)

/-- The stretches over a text from an offset on, with the edits that take effect there. -/
def stretches (text : Text) (offset : Int) : List Edit → List Stretch
  | [] => if offset < text.length then [.kept (text.slice offset text.length)] else []
  | edit :: rest =>
    (if offset < edit.start then [.kept (text.slice offset edit.start)] else []) ++
      .replaced edit :: stretches text edit.stop rest

/-! ### One text -/

/-- What came of an emission: its events, the edits whose replacements were asked, and
the outcome. -/
structure Rendering where
  events : List Event
  asked : List Edit
  result : Except Failure Text

/-- A rendering with one more question in front. -/
def Rendering.asking (edit : Edit) (rendering : Rendering) : Rendering :=
  { rendering with asked := edit :: rendering.asked }

/-- A rendering with one more part in front. -/
def Rendering.withPart (part : Text) (rendering : Rendering) : Rendering :=
  { rendering with result := rendering.result.map (part ++ ·) }

/-- The text of stretches. -/
def gather (context : Context) (history : History) : List Stretch → Rendering
  | [] => ⟨[], [], .ok []⟩
  | .kept text :: rest => (gather context history rest).withPart text
  | .replaced edit :: rest =>
    match edit.replacement.ask context history with
    | .error fault => ⟨[], [edit], .error (.render fault)⟩
    | .ok text =>
      ((gather context (history ++ [edit.replacement.key]) rest).withPart text).asking edit

/-! ### Sinks -/

/-- What is written to a sink. -/
inductive Chunk where
  | text (text : Text)
  | octets (octets : Bytes)
  deriving DecidableEq

/-- What a sink has taken. -/
inductive Mark where
  | wrote (chunk : Chunk)
  | drained
  deriving DecidableEq

/-- What a sink did: what it took, and why it stopped, if it did. -/
structure Taking where
  marks : List Mark
  failure : Option Failure

namespace Taking

/-- Nothing was to be done. -/
def nothing : Taking := ⟨[], none⟩

/-- One thing behind another, which is not begun if the first has failed. -/
def followedBy (first second : Taking) : Taking :=
  match first.failure with
  | some _ => first
  | none => ⟨first.marks ++ second.marks, second.failure⟩

end Taking

/-- A text as it is written: as it is, or in the encoding of a name that is not empty. -/
def chunkOf [Codecs] (encoding : Option Text) (text : Text) : Except Failure Chunk :=
  match encoding with
  | none | some [] => .ok (.text text)
  | some name =>
    match Codecs.ofName name "codecs.encode()" with
    | .error fault => .error (.charsetName fault)
    | .ok codec =>
      match codec.encode text with
      | .error fault => .error (.unencodable fault)
      | .ok octets => .ok (.octets octets)

/-- Something that takes writes one after another. It may refuse the write that comes after a number
of complete ones, and then says why. -/
structure Sink where
  refusesWrite : Nat → Option Text

namespace Sink

/-- A sink that takes everything. -/
def accepting : Sink := ⟨fun _ => none⟩

/-- A write, after a number of complete ones. -/
def write (sink : Sink) (writes : Nat) (chunk : Chunk) : Taking :=
  match sink.refusesWrite writes with
  | some message => ⟨[], some (.sink message)⟩
  | none => ⟨[.wrote chunk], none⟩

/-- What is done for one text: it is encoded and written. -/
def take [Codecs] (sink : Sink) (encoding : Option Text) (writes : Nat) (text : Text) : Taking :=
  match chunkOf encoding text with
  | .error failure => ⟨[], some failure⟩
  | .ok chunk => sink.write writes chunk

end Sink

/-- A write that has been asked for: what was done at once, and what is done when the rest of it is
awaited, if there is a rest. -/
structure Pledge where
  atOnce : Taking
  awaited : Option Taking

/-- A sink that need not make a write until it is awaited. One that drains does so behind every
write, and may refuse that as well. -/
structure AsyncSink extends Sink where
  defersWrites : Bool
  refusesDrain : Option (Nat → Option Text)

namespace AsyncSink

/-- Asks for a write, after a number of complete ones. -/
def ask (sink : AsyncSink) (writes : Nat) (chunk : Chunk) : Pledge :=
  if sink.defersWrites then ⟨.nothing, some (sink.write writes chunk)⟩
  else ⟨sink.write writes chunk, none⟩

/-- Drains, if the sink does so at all. -/
def drain (sink : AsyncSink) (writes : Nat) : Taking :=
  match sink.refusesDrain with
  | none => .nothing
  | some refuses =>
    match refuses writes with
    | some message => ⟨[], some (.sink message)⟩
    | none => ⟨[.drained], none⟩

/-- What is done for one text: it is encoded, its write is asked for and awaited, and drained. -/
def take [Codecs] (sink : AsyncSink) (encoding : Option Text) (writes : Nat) (text : Text) :
    Taking :=
  match chunkOf encoding text with
  | .error failure => ⟨[], some failure⟩
  | .ok chunk =>
    let pledge := sink.ask writes chunk
    (pledge.atOnce.followedBy (pledge.awaited.getD .nothing)).followedBy (sink.drain writes)

end AsyncSink

/-! ### Deliveries -/

/-- What came of a delivery: its events, the edits whose replacements were asked, what the sink
took, and the number of writes or the failure. -/
structure Delivery where
  events : List Event
  asked : List Edit
  marks : List Mark
  result : Except Failure Nat

/-- A delivery with one more question in front. -/
def Delivery.asking (edit : Edit) (delivery : Delivery) : Delivery :=
  { delivery with asked := edit :: delivery.asked }

/-- A delivery with more marks in front. -/
def Delivery.behind (marks : List Mark) (delivery : Delivery) : Delivery :=
  { delivery with marks := marks ++ delivery.marks }

/-- A delivery that ends with a failure. -/
def Delivery.failed (marks : List Mark) (failure : Failure) : Delivery :=
  ⟨[], [], marks, .error failure⟩

/-- The delivery of stretches after a number of complete writes, given what is done for a text. Text
that is kept is written even if it is empty. -/
def deliverFrom (context : Context) (take : Nat → Text → Taking) (history : History)
    (writes : Nat) : List Stretch → Delivery
  | [] => ⟨[], [], [], .ok writes⟩
  | .kept text :: rest =>
    match take writes text with
    | ⟨marks, some failure⟩ => .failed marks failure
    | ⟨marks, none⟩ => (deliverFrom context take history (writes + 1) rest).behind marks
  | .replaced edit :: rest =>
    match edit.replacement.ask context history with
    | .error fault => (Delivery.failed [] (.render fault)).asking edit
    | .ok text =>
      let history := history ++ [edit.replacement.key]
      if text.isEmpty then (deliverFrom context take history writes rest).asking edit
      else
        match take writes text with
        | ⟨marks, some failure⟩ => (Delivery.failed marks failure).asking edit
        | ⟨marks, none⟩ =>
          ((deliverFrom context take history (writes + 1) rest).behind marks).asking edit

namespace Draft

/-- The stretches over a draft, or the clash that keeps them from being taken, with the events up
to there. -/
def walk (draft : Draft) : List Event × Except Failure (List Stretch) :=
  let plan := draft.plan
  match plan.result with
  | .error clash => (plan.events, .error (.overlap clash))
  | .ok kept =>
    (plan.events ++ [.emitting draft.edits.length kept.length], .ok (stretches draft.text 0 kept))

/-- The text with all edits that take effect. -/
def render (draft : Draft) (context : Context) (history : History) : Rendering :=
  match draft.walk with
  | (events, .error failure) => ⟨events, [], .error failure⟩
  | (events, .ok way) => { gather context history way with events := events }

/-- The delivery of the text, given what is done for each part of it. -/
def deliverBy (draft : Draft) (context : Context) (take : Nat → Text → Taking)
    (history : History) : Delivery :=
  match draft.walk with
  | (events, .error failure) => ⟨events, [], [], .error failure⟩
  | (events, .ok way) => { deliverFrom context take history 0 way with events := events }

/-- The delivery of the text to a sink. -/
def deliver [Codecs] (draft : Draft) (context : Context) (encoding : Option Text) (sink : Sink)
    (history : History) : Delivery :=
  draft.deliverBy context (sink.take encoding) history

/-- The delivery of the text to an asynchronous sink. -/
def deliverAsync [Codecs] (draft : Draft) (context : Context) (encoding : Option Text)
    (sink : AsyncSink) (history : History) : Delivery :=
  draft.deliverBy context (sink.take encoding) history

end Draft

end Splice
