/-
**Sessions.**

A session registers edits for one text. Each registration that succeeds appends one edit with the
next order and gives a new draft; one that fails changes nothing. Drafts taken from a session keep
their value, and a session can be started over any draft.

* `Session.register`: an edit of the range between an offset and the one a signed length away;
* `Session.replace`, `Session.delete` and their forms for locations: special replacements;
* `Session.load`: the edits of a script one after another, up to the first that fails;
* `Reply`: the session afterwards, the events on the way, and the outcome.
-/

import Splice.Emission
import Splice.Location

namespace Splice

/-- A draft under construction, and the order given out last. -/
structure Session where
  draft : Draft
  lastOrder : Int

/-- What came of an operation on a session. -/
structure Reply (α : Type) where
  session : Session
  events : List Event
  result : Except Failure α

namespace Session

/-- A session over a draft goes on behind the greatest order in it. -/
def ofDraft (draft : Draft) : Session := ⟨draft, draft.nextOrder - 1⟩

/-- A session over a text without edits. -/
def ofText (text : Text) : Session := ofDraft (.ofText text)

/-- The session in which the edit of a span has been registered. -/
def registerSpan (session : Session) (span : Span) (replacement : Replacement) : Reply Edit :=
  let edit : Edit := ⟨span, session.lastOrder + 1, replacement⟩
  match session.draft.add edit with
  | .error failure => ⟨session, [], .error failure⟩
  | .ok draft => ⟨⟨draft, edit.order⟩, [.registered edit], .ok edit⟩

/-- Registers a replacement for the range between an offset and the one a signed length away. -/
def register (session : Session) (start length : Int) (replacement : Replacement) : Reply Edit :=
  session.registerSpan (.directed start length) replacement

/-- Registers a fixed text. -/
def replace (session : Session) (start length : Int) (text : Text) : Reply Edit :=
  session.register start length (.fixed text)

/-- Registers the removal of a range. -/
def delete (session : Session) (start length : Int) : Reply Edit := session.replace start length []

/-- Registers a replacement for a location. -/
def registerAt (session : Session) (location : Location) (replacement : Replacement) : Reply Edit :=
  session.register location.start location.length replacement

/-- Registers a fixed text for a location. -/
def replaceAt (session : Session) (location : Location) (text : Text) : Reply Edit :=
  session.replace location.start location.length text

/-- Registers the removal of a location. -/
def deleteAt (session : Session) (location : Location) : Reply Edit :=
  session.delete location.start location.length

/-- The part of the text in a range, whatever edits there are. -/
def read (session : Session) (start length : Int) : Except Failure Text :=
  session.draft.read start length

/-- The part of the text at a location. -/
def readAt (session : Session) (location : Location) : Except Failure Text :=
  session.read location.start location.length

section Scripts

variable [Objects] [Limits]

/-- Registers an entry of a script. A template takes the text of its range with it. -/
def loadEntry (session : Session) (entry : Entry) : Reply Edit :=
  let reach := entry.reach
  if entry.isTemplate then
    match session.read (min entry.start (entry.start + reach)) reach.natAbs with
    | .error failure => ⟨session, [], .error failure⟩
    | .ok replaced => session.register entry.start reach (.template entry.text replaced)
  else session.replace entry.start reach entry.text

/-- Registers entries one after another, up to the first that fails. -/
def loadEntries (session : Session) : List Entry → Reply Unit
  | [] => ⟨session, [], .ok ()⟩
  | entry :: rest =>
    let reply := session.loadEntry entry
    match reply.result with
    | .error failure => ⟨reply.session, reply.events, .error failure⟩
    | .ok _ =>
      let others := loadEntries reply.session rest
      { others with events := reply.events ++ others.events }

/-- Registers a script, and says how many entries it has. -/
def load (session : Session) (script : Script) : Reply Nat :=
  let reply := session.loadEntries script
  match reply.result with
  | .error failure => ⟨reply.session, reply.events, .error failure⟩
  | .ok _ => ⟨reply.session, reply.events ++ [.loaded script.length], .ok script.length⟩

end Scripts

end Session

end Splice
