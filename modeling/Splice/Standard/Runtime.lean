/-
**The standard machine.**

A machine for the program to run on: values have no attributes and there are no objects, the registry
has the well-known encodings, and the console is one of UTF-8.

* `Standard.objects`, `Standard.limits`, `Standard.codecs`, `Standard.console`: its parts;
* the instance of `Runtime` on which the program runs.
-/

import Splice.Runtime
import Splice.Standard.Journal
import Splice.Standard.Reading

namespace Splice

namespace Standard

/-- What an object answers where there are none. -/
def noObject : Template.Fault := .raised .other "Exception" "there are no objects"

/-- No objects, and nothing said of attributes. -/
abbrev mute : Objects where
  attributeOf _ _ := .error noObject
  typeName _ := "object"
  part _ _ := .error noObject
  shown _ := .error noObject
  asText _ := .error noObject
  formatted _ _ := .error noObject

/-- No objects, and values without attributes. -/
abbrev objects : Objects :=
  { mute with attributeOf := fun value name => .error (.missingAttribute (@Value.typeName mute value) name) }

/-- How many calls stand in each other before a document or a value counts as too deep. -/
def callDepth : Nat := 990

/-- How many fill characters there is no memory for. -/
def rowLimit : Nat := Nat.pow 2 32

/-- The limits of a common machine. -/
abbrev limits : Limits where
  nesting := callDepth
  levels := callDepth
  fits count := count < rowLimit
  two_le_nesting := by decide
  fits_zero := by decide
  fits_of_le less enough := by
    simp only [decide_eq_true_eq] at enough ⊢
    exact Nat.lt_of_le_of_lt less enough

/-- The well-known encodings. -/
abbrev codecs : Codecs where
  named name := (Charset.named name).map Charset.Named.entry
  named_nil := congrArg (Except.map Charset.Named.entry) Charset.named_nil
  named_of_known known := by rw [known]; rfl

theorem octets_of_ascii {point : CodePoint} {octets : Bytes}
    (written : Charset.ascii.octets? point = some octets) :
    Charset.utf8.octets? point = some octets := by
  cases point with
  | surrogate _ => cases written
  | scalar char =>
    by_cases small : char.toNat < 0x80
    · have same : some [UInt8.ofNat char.toNat] = some octets := by
        rw [← written]
        simp only [Charset.octets?, Charset.octet?, if_pos small, Option.map_some]
      rw [← same]
      simp only [Charset.octets?, Utf8.encodeChar, if_pos small]
    · simp only [Charset.octets?, Charset.octet?, if_neg small, Option.map_none] at written
      cases written

/-- What ASCII covers is in UTF-8 what it is in ASCII. -/
theorem encodeFrom_of_ascii {text : Text} {offset : Nat} {octets : Bytes}
    (written : Charset.ascii.encodeFrom offset text = .ok octets) :
    Charset.utf8.encodeFrom offset text = .ok octets := by
  induction text generalizing offset octets with
  | nil => exact written
  | cons point rest ih =>
    rw [Charset.encodeFrom] at written ⊢
    cases here : Charset.ascii.octets? point with
    | none =>
      rw [here] at written
      cases written
    | some first =>
      rw [here] at written
      rw [octets_of_ascii here]
      cases others : Charset.ascii.encodeFrom (offset + 1) rest with
      | error fault =>
        rw [others] at written
        cases written
      | ok more =>
        rw [others] at written
        simp only [ih others]
        exact written

/-- A console of UTF-8. -/
abbrev console : Console where
  print := Charset.utf8.codec.encode
  print_of_ascii := by
    intro text octets written
    unfold Charset.encode at written
    cases rest : Charset.ascii.encodeFrom 0 text with
    | error fault =>
      rw [rest] at written
      cases written
    | ok row =>
      rw [rest] at written
      obtain rfl : row = octets := Except.ok.inj written
      simp only [Charset.codec, Charset.encode, encodeFrom_of_ascii rest]
      rfl

end Standard

/-- The standard machine. -/
instance : Runtime :=
  { Standard.objects, Standard.limits, Standard.codecs, @Standard.schema Standard.objects Standard.limits,
    Standard.console, Standard.journal with }

end Splice
