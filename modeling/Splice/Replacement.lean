/-
**Replacements.**

A replacement gives the text that takes the place of a range. It may depend on the context of an
emission and on how often it has been asked, this time included, and it may fail.

* `Replacement.fixed`, `Replacement.template`, `Replacement.field`, `Replacement.counted`,
  `Replacement.failing`: the replacements there are names for;
* `Replacement.ask`: the text for a context and the record of all questions so far.
-/

import Splice.Template.Expansion

namespace Splice

/-- What the caller of an emission provides: named values, or nothing at all. -/
abbrev Context := Option Record

/-- Why a replacement has no text. -/
inductive RenderFault where
  | template (source : Text) (fault : Template.Fault)
  | unwrapped (fault : Template.Fault)
  | missingName (name : Text)
  | noContext
  | raised (message : Text)
  deriving DecidableEq, Repr

/-- A rule for the text of a range. Replacements that keep count share a count exactly when they
share a key. -/
structure Replacement where
  key : Nat
  render : Context → Nat → Except RenderFault Text

/-- The keys of the replacements that have been asked, in order. -/
abbrev History := List Nat

namespace Replacement

/-- The same text always. -/
def fixed (text : Text) : Replacement := ⟨0, fun _ _ => .ok text⟩

/-- The name under which a template finds the text that it replaces. -/
def replacedName : Text := Text.ofString "original"

/-- The values that a template sees: those of the context, and the text that it replaces, which
takes the place of a value of the same name. -/
def scope (replaced : Text) (context : Context) : Record :=
  (context.getD []).put replacedName (.text replaced)

section Contexts

variable [Objects] [Limits]

/-- The text of a template. Faults of the listed kinds are reported together with the template, and
others are not. -/
def expanded (source replaced : Text) (context : Context) : Except RenderFault Text :=
  match Template.expand source (scope replaced context) with
  | .ok text => .ok text
  | .error fault =>
    if fault.kind.isListed then .error (.template source fault) else .error (.unwrapped fault)

/-- A template, expanded anew for every context. -/
def template (source replaced : Text) : Replacement :=
  ⟨0, fun context _ => expanded source replaced context⟩

/-- The text that the context has under a name. -/
def field (name : Text) : Replacement :=
  ⟨0, fun context _ =>
    match context with
    | none => .error .noContext
    | some record =>
      match record.find? name with
      | none => .error (.missingName name)
      | some value => value.asText.mapError .unwrapped⟩

end Contexts

/-- A text followed by how often it has been asked for. -/
def counted (key : Nat) (text : Text) : Replacement :=
  ⟨key, fun _ count => .ok (text ++ Text.digits 10 count)⟩

/-- No text, ever. -/
def failing (message : Text) : Replacement := ⟨0, fun _ _ => .error (.raised message)⟩

/-- The text for a context, after the questions on record. -/
def ask (replacement : Replacement) (context : Context) (history : History) :
    Except RenderFault Text :=
  replacement.render context (history.count replacement.key + 1)

end Replacement

/-- The text of a fault. -/
def RenderFault.message : RenderFault → Text
  | .template source fault =>
    Text.concat ["Cannot render template ", source.quoted, ": ", fault.word, ": ", fault.message]
  | .unwrapped fault => fault.message
  | .missingName name => name.quoted
  | .noContext => "'NoneType' object is not subscriptable"
  | .raised message => message

end Splice
