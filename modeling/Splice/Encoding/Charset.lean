/-
**Encodings.**

An encoding writes each code point as a row of octets, or has no octets for it; some put a
byte-order mark in front of everything they write. What cannot be written is reported by the range
of code points concerned, counted from the start of the text that was to be written.

* `Charset.octets?`: the octets of one code point;
* `Charset.encode`: the octets of a text, its byte-order mark in front;
* `Charset.Fault`: the range that cannot be written: for most encodings the longest one that begins
  with the first such code point, for UTF-16 and UTF-32 that code point alone.
-/

import Splice.Encoding.Utf8
import Splice.Text.Quoted

namespace Splice

/-- An encoding of texts. -/
inductive Charset where
  | utf8
  | utf8Marked
  | utf16
  | utf16Little
  | utf16Big
  | utf32
  | utf32Little
  | utf32Big
  | ascii
  | latin1
  | latin9
  | windows1252
  deriving DecidableEq, Repr

namespace Charset

/-- The two octets of a number below `2 ^ 16`. -/
def pair (bigEndian : Bool) (number : Nat) : Bytes :=
  let high : UInt8 := .ofNat (number / 256)
  let low : UInt8 := .ofNat (number % 256)
  if bigEndian then [high, low] else [low, high]

/-- The octets of a character in UTF-16. -/
def octets16 (bigEndian : Bool) (char : Char) : Bytes :=
  let number := char.toNat
  if number < 0x10000 then pair bigEndian number
  else
    pair bigEndian (0xD800 + (number - 0x10000) / 0x400) ++
      pair bigEndian (0xDC00 + (number - 0x10000) % 0x400)

/-- The octets of a character in UTF-32. -/
def octets32 (bigEndian : Bool) (char : Char) : Bytes :=
  let number := char.toNat
  if bigEndian then pair true (number / 0x10000) ++ pair true (number % 0x10000)
  else pair false (number % 0x10000) ++ pair false (number / 0x10000)

/-- The octets from `0x80` to `0x9F` that have a character in windows-1252, with that character. -/
def windowsTable : List (Nat × Nat) :=
  [(0x20AC, 0x80), (0x201A, 0x82), (0x192, 0x83), (0x201E, 0x84), (0x2026, 0x85), (0x2020, 0x86),
    (0x2021, 0x87), (0x2C6, 0x88), (0x2030, 0x89), (0x160, 0x8A), (0x2039, 0x8B), (0x152, 0x8C),
    (0x17D, 0x8E), (0x2018, 0x91), (0x2019, 0x92), (0x201C, 0x93), (0x201D, 0x94), (0x2022, 0x95),
    (0x2013, 0x96), (0x2014, 0x97), (0x2DC, 0x98), (0x2122, 0x99), (0x161, 0x9A), (0x203A, 0x9B),
    (0x153, 0x9C), (0x17E, 0x9E), (0x178, 0x9F)]

/-- The characters by which ISO 8859-15 differs from ISO 8859-1, with their octets. -/
def latin9Table : List (Nat × Nat) :=
  [(0x20AC, 0xA4), (0x160, 0xA6), (0x161, 0xA8), (0x17D, 0xB4), (0x17E, 0xB8), (0x152, 0xBC),
    (0x153, 0xBD), (0x178, 0xBE)]

/-- The octet of a character that has one octet. -/
def octet? (charset : Charset) (number : Nat) : Option Nat :=
  match charset with
  | .ascii => if number < 0x80 then some number else none
  | .latin1 => if number < 0x100 then some number else none
  | .windows1252 =>
    if number < 0x80 ∨ (0xA0 ≤ number ∧ number < 0x100) then some number
    else windowsTable.lookup number
  | .latin9 =>
    if number < 0x100 ∧ latin9Table.all (·.2 ≠ number) then some number
    else latin9Table.lookup number
  | _ => none

/-- The octets of a code point; a surrogate has none. -/
def octets? (charset : Charset) : CodePoint → Option Bytes
  | .surrogate _ => none
  | .scalar char =>
    match charset with
    | .utf8 | .utf8Marked => some (Utf8.encodeChar char)
    | .utf16 | .utf16Little => some (octets16 false char)
    | .utf16Big => some (octets16 true char)
    | .utf32 | .utf32Little => some (octets32 false char)
    | .utf32Big => some (octets32 true char)
    | .ascii | .latin1 | .latin9 | .windows1252 =>
      (charset.octet? char.toNat).map fun octet => [.ofNat octet]

/-- The byte-order mark that an encoding puts in front. -/
def mark : Charset → Bytes
  | .utf8Marked => [0xEF, 0xBB, 0xBF]
  | .utf16 => [0xFF, 0xFE]
  | .utf32 => [0xFF, 0xFE, 0, 0]
  | _ => []

/-- Whether a whole row of code points without octets is reported together. -/
def reportsRuns : Charset → Bool
  | .utf16 | .utf16Little | .utf16Big | .utf32 | .utf32Little | .utf32Big => false
  | _ => true

/-- A range of a text that an encoding cannot write. -/
structure Fault where
  charset : Charset
  point : CodePoint
  first : Nat
  count : Nat
  deriving DecidableEq, Repr

/-- The octets of code points, the first of which has the given offset. -/
def encodeFrom (charset : Charset) (offset : Nat) : Text → Except Fault Bytes
  | [] => .ok []
  | point :: rest =>
    match charset.octets? point with
    | some octets => (encodeFrom charset (offset + 1) rest).map (octets ++ ·)
    | none =>
      let more :=
        if charset.reportsRuns then (rest.takeWhile (charset.octets? · |>.isNone)).length else 0
      .error ⟨charset, point, offset, more + 1⟩

/-- The octets of a text. -/
def encode (charset : Charset) (text : Text) : Except Fault Bytes :=
  (charset.encodeFrom 0 text).map (charset.mark ++ ·)

/-- The name by which faults call an encoding. -/
def label : Charset → String
  | .utf8 | .utf8Marked => "utf-8"
  | .utf16 => "utf-16"
  | .utf16Little => "utf-16-le"
  | .utf16Big => "utf-16-be"
  | .utf32 => "utf-32"
  | .utf32Little => "utf-32-le"
  | .utf32Big => "utf-32-be"
  | .ascii => "ascii"
  | .latin1 => "latin-1"
  | .latin9 | .windows1252 => "charmap"

/-- Why an encoding has no octets for a code point. -/
def reason : Charset → String
  | .ascii => "ordinal not in range(128)"
  | .latin1 => "ordinal not in range(256)"
  | .latin9 | .windows1252 => "character maps to <undefined>"
  | _ => "surrogates not allowed"

/-- The text of a fault. -/
def Fault.message (fault : Fault) : Text :=
  let place : Text :=
    if fault.count = 1 then
      Text.concat ["character '", fault.point.escaped, "' in position ", Text.digits 10 fault.first]
    else
      Text.concat ["characters in position ", Text.digits 10 fault.first, "-",
        Text.digits 10 (fault.first + fault.count - 1)]
  Text.concat ["'", fault.charset.label, "' codec can't encode ", place, ": ", fault.charset.reason]

end Charset

end Splice
