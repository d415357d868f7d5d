/-
**Values laid out by a format.**

A text is cut to its precision. A number is laid out as `fill sign lead fill digits rest fill`, where
separators stand between groups of digits; zeros that fill a field between sign and digits belong to the
groups. When it is known what is laid out, it is filled to its width, as long as there is memory for what
fills it.

* `Format.text`, `Format.whole`, `Format.real`: what is laid out for a text, an integer and a double;
* `laidOut`: what is laid out for a value by a written format;
* `padded`, `grouped`: a text filled to a width, and digits in groups with as many zeros in front as
  a least width asks for;
* `Format.fillUp`, `Format.row`: a layout filled to its width, and how many fill characters this takes;
* `formatted`: the text of a value by a written format, an empty one giving the plain form. An object
  is asked itself.
-/

import Splice.Template.Display
import Splice.Template.Format

namespace Splice.Template

/-- Code points on both sides of a content to give it a width. -/
def padded [Limits] (fill : CodePoint) (align : Align) (width : Nat) (content : Text) :
    Except Fault Text :=
  let missing := width - content.length
  if Limits.fits missing then
    let left := match align with
      | .left | .inside => 0
      | .right => missing
      | .center => missing / 2
    .ok (List.replicate left fill ++ content ++ List.replicate (missing - left) fill)
  else .error .pastMemory

/-! ### Groups of digits -/

/-- How many digits fill a least width when a separator follows each `size` of them, seen from the
right. -/
def digitsFor (size width : Nat) : Nat := width - (width - 1) / (size + 1)

/-- A separator in front of each `size` digits, seen from the right. -/
def separated (separator : CodePoint) (size : Nat) : Text → Text
  | [] => []
  | digit :: rest =>
    if rest.length % size = 0 ∧ rest ≠ [] then digit :: separator :: separated separator size rest
    else digit :: separated separator size rest

/-- Digits in groups, filled with zeros to a least width. -/
def grouped (groups : Option (Char × Nat)) (width : Nat) (digits : Text) : Text :=
  match groups with
  | none => List.replicate (width - digits.length) (.scalar '0') ++ digits
  | some (separator, size) =>
    let count := digitsFor size width
    separated separator size (List.replicate (count - digits.length) (.scalar '0') ++ digits)

/-! ### Numbers -/

/-- The parts of a number: its sign, what stands in front of its digits, the digits that may be
grouped, and what follows them. -/
structure NumberParts where
  negative : Bool
  lead : Text
  digits : Text
  rest : Text

/-- What is laid out: a text, or the parts of a number. -/
inductive Layout where
  | text (content : Text)
  | number (parts : NumberParts)

/-- A letter in upper case. -/
def upper : CodePoint → CodePoint
  | .scalar char => .scalar char.toUpper
  | point => point

namespace Format

/-- The sign of a number. -/
def signText (format : Format) (negative : Bool) : Text :=
  if negative then [.scalar '-']
  else match format.sign with
    | some .plus => [.scalar '+']
    | some .space => [.scalar ' ']
    | _ => []

/-- How the digits of a number are grouped. -/
def groups (format : Format) : Option (Char × Nat) := do
  let separator ← format.separator
  let size ← groupSize? separator format.code
  return (separator.char, size)

/-- How much of a number is no digits that may be grouped. -/
def bare (format : Format) (parts : NumberParts) : Nat :=
  (format.signText parts.negative).length + parts.lead.length + parts.rest.length

/-- Whether zeros between sign and digits fill a number to its width. -/
def fillsZeros (format : Format) : Bool := format.fill = .scalar '0' && format.align = .inside

/-- The least width to which the digits of a number are filled with zeros. -/
def least (format : Format) (parts : NumberParts) : Nat :=
  if format.fillsZeros then format.width.getD 0 - format.bare parts else 0

/-- The digits of a number in groups, filled with zeros to a least width; no digits stay none. -/
def groupedTo (format : Format) (least : Nat) (parts : NumberParts) : Text :=
  if parts.digits.isEmpty then [] else grouped format.groups least parts.digits

/-- How many fill characters a layout takes. -/
def row (format : Format) : Layout → Nat
  | .text content => format.width.getD 0 - content.length
  | .number parts =>
    if format.fillsZeros then format.least parts
    else format.width.getD 0 - (format.bare parts + (format.groupedTo 0 parts).length)

section Filling

variable [Limits]

/-- The parts of a number, filled to the width of the format. -/
def assemble (format : Format) (parts : NumberParts) : Except Fault Text :=
  let width := format.width.getD 0
  if Limits.fits (format.least parts) then
    let raised := if format.code = .scalar 'X' then List.map upper else id
    let head := format.signText parts.negative ++ raised parts.lead
    let tail := raised (format.groupedTo (format.least parts) parts) ++ parts.rest
    match format.align with
    | .inside =>
      let missing := width - (head.length + tail.length)
      if Limits.fits missing then .ok (head ++ List.replicate missing format.fill ++ tail)
      else .error .pastMemory
    | align => padded format.fill align width (head ++ tail)
  else .error .pastMemory

/-- A layout, filled to the width of the format. -/
def fillUp (format : Format) : Layout → Except Fault Text
  | .text content => padded format.fill format.align (format.width.getD 0) content
  | .number parts => format.assemble parts

end Filling

/-- A text by a format. -/
def text (format : Format) (value : Text) : Except Fault Layout := do
  match format.sign with
  | some .space => throw .spaceOnText
  | some _ => throw .signOnText
  | none => pure ()
  if format.dropZeroSign then throw .zeroSignOnText
  if format.alternate then throw .alternateOnText
  if format.align = .inside then throw .insideOnText
  match format.precision with
  | some precision => return .text (value.take precision)
  | none => return .text value

/-- The base of an integer code, and what an alternate form puts in front of the digits. -/
def baseOf : CodePoint → Nat × String
  | .scalar 'b' => (2, "0b")
  | .scalar 'o' => (8, "0o")
  | .scalar 'x' | .scalar 'X' => (16, "0x")
  | _ => (10, "")

/-- The character whose number is an integer. -/
def character (value : Int) : Except Fault CodePoint :=
  if value < -(Int.pow 2 63) ∨ Int.pow 2 63 ≤ value then .error .pastMachineWord
  else if value < 0 ∨ 0x110000 ≤ value then .error .notACharacter
  else .ok (.ofNumber value.toNat)

/-- An integer by a format whose code is for integers. -/
def whole (format : Format) (value : Int) : Except Fault Layout := do
  if format.precision.isSome then throw .precisionOnWhole
  if format.dropZeroSign then throw .zeroSignOnWhole
  if format.code = .scalar 'c' then
    if format.sign.isSome then throw .signOnCharacter
    if format.alternate then throw .alternateOnCharacter
    let point ← character value
    return .number ⟨false, [], [], [point]⟩
  else
    let (base, lead) := baseOf format.code
    if base = 10 ∧ !writable value then throw .tooManyDigits
    return .number
      ⟨decide (value < 0), if format.alternate then Text.ofString lead else [],
        Text.digits base value.natAbs, []⟩

/-- The greatest precision of a double. -/
def precisionLimit : Nat := Nat.pow 2 31 - 1

/-- The form of a double that a code and a precision ask for. -/
def formOf (code : CodePoint) (precision : Option Nat) : NumberForm :=
  match code with
  | .scalar 'e' | .scalar 'E' => .scientific (precision.getD 6)
  | .scalar 'f' | .scalar 'F' | .scalar '%' => .fixed (precision.getD 6)
  | .scalar '\x00' =>
    match precision with
    | some precision => .general precision true
    | none => .shortest
  | _ => .general (precision.getD 6) false

/-- A double by a format whose code is for doubles. -/
def real (format : Format) (value : Binary64) : Except Fault Layout := do
  if precisionLimit < format.precision.getD 0 then throw .precisionTooLarge
  let percent := format.code = .scalar '%'
  let number := if percent then value.hundredfold else value
  let written :=
    number.written (formOf format.code format.precision) format.alternate format.dropZeroSign
  let written := if percent then written ++ [.scalar '%'] else written
  let written :=
    if format.code ∈ ['E', 'F', 'G'].map CodePoint.scalar then written.map upper else written
  let (negative, size) := match written with
    | .scalar '-' :: size => (true, size)
    | size => (false, size)
  let isDigit (point : CodePoint) : Bool := point.asciiDigit?.isSome
  return .number ⟨negative, [], size.takeWhile isDigit, size.dropWhile isDigit⟩

end Format

/-- The codes of integers. -/
def wholeCodes : List CodePoint := ['b', 'c', 'd', 'o', 'x', 'X', 'n'].map CodePoint.scalar

/-- The codes of doubles. -/
def realCodes : List CodePoint := ['e', 'E', 'f', 'F', 'g', 'G', '%'].map CodePoint.scalar

/-- What is laid out for an integer; codes of doubles take the double nearest to it. -/
def laidOutWhole (type : String) (value : Int) (format : Format) : Except Fault Layout :=
  if format.code ∈ wholeCodes then format.whole value
  else if format.code ∈ realCodes then
    match Binary64.ofInt value with
    | .infinite _ => .error .pastDoubles
    | double => format.real double
  else .error (.unknownCode format.code type)

/-- A value by a written format: the format, and what is laid out. -/
def laidOut [Objects] (value : Value) (written : Text) : Except Fault (Format × Layout) :=
  match value with
  | .text content => do
    let format ← Format.read "str" 's' .left written
    if format.code = .scalar 's' then return (format, ← format.text content)
    else throw (.unknownCode format.code "str")
  | .whole number => do
    let format ← Format.read "int" 'd' .right written
    return (format, ← laidOutWhole "int" number format)
  | .truth flag => do
    let format ← Format.read "bool" 'd' .right written
    return (format, ← laidOutWhole "bool" (if flag then 1 else 0) format)
  | .real number => do
    let format ← Format.read "float" '\x00' .right written
    if format.code ∈ realCodes ∨ format.code = .scalar 'n' ∨ format.code = .scalar '\x00' then
      return (format, ← format.real number)
    else throw (.unknownCode format.code "float")
  | value => .error (.noFormat value.typeName)

/-- A value by a written format. The empty format gives the value as a text. -/
def formatted [Objects] [Limits] (value : Value) (written : Text) : Except Fault Text :=
  match value with
  | .object key => Objects.formatted key written
  | value =>
    if written.isEmpty then value.asText
    else do
      let (format, layout) ← laidOut value written
      format.fillUp layout

end Splice.Template
