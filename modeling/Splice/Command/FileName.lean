/-
**File names.**

A file name is a row of octets, and a text names it in UTF-8. An octet that is no part of a
character has a surrogate of its own, from `0xDC80` on for the octets from `0x80` on, so that every
file name can be shown and named; the other surrogates name nothing.

* `FileName.ofText`: the octets that a text names, or the range that names none;
* `FileName.shown`: a text that names octets.
-/

import Splice.Encoding.Charset

namespace Splice

/-- The octets of a name in a folder. -/
abbrev FileName := Bytes

namespace FileName

/-- The octets that a code point names. -/
def octetsOf? : CodePoint → Option Bytes
  | .scalar char => some (Utf8.encodeChar char)
  | .surrogate index =>
    if 0x480 ≤ index.val ∧ index.val < 0x500 then some [.ofNat (index.val - 0x400)] else none

/-- The octets that a text names, the first code point of which has the given offset. -/
def ofTextFrom (offset : Nat) : Text → Except Charset.Fault Bytes
  | [] => .ok []
  | point :: rest =>
    match octetsOf? point with
    | some octets => (ofTextFrom (offset + 1) rest).map (octets ++ ·)
    | none => .error ⟨.utf8, point, offset, (rest.takeWhile CodePoint.isSurrogate).length + 1⟩

/-- The octets that a text names. -/
def ofText (text : Text) : Except Charset.Fault Bytes := ofTextFrom 0 text

/-- The character with which octets begin, and the number of octets behind its first one. -/
def firstChar? (octets : Bytes) : Option (Char × Nat) :=
  [0, 1, 2, 3].findSome? fun more =>
    match Utf8.decode (octets.take (more + 1)) with
    | .ok [char] => some (char, more)
    | _ => none

/-- The text that names octets. -/
def shown (octets : Bytes) : Text :=
  match octets with
  | [] => []
  | octet :: rest =>
    match firstChar? (octet :: rest) with
    | some (char, more) => .scalar char :: shown (rest.drop more)
    | none => .ofNumber (0xDC00 + octet.toNat) :: shown rest
termination_by octets.length
decreasing_by all_goals simp [List.length_drop]; try omega

end FileName

end Splice
