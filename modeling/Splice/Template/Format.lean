/-
**Formats.**

A format is written `[[fill]align][sign][z][#][0][width][grouping][.precision][code]`; every part
may be missing, and their order is fixed.

* `Format.read`: the parts of a written format, or the first fault;
* `Format.readCount`: a row of decimal digits of any script, its value below `2 ^ 63`;
* `groupSize?`: how many digits stand between two separators.
-/

import Splice.Template.Fault
import Splice.Text.Digits

namespace Splice.Template

/-- The side on which a field is filled. -/
inductive Align where
  | left
  | right
  | center
  | inside
  deriving DecidableEq, Repr

/-- How the sign of a number that is not negative is written. -/
inductive SignRule where
  | minus
  | plus
  | space
  deriving DecidableEq, Repr

/-- The character between groups of digits. -/
inductive Separator where
  | comma
  | underscore
  deriving DecidableEq, Repr

/-- The character of a separator. -/
def Separator.char : Separator → Char
  | .comma => ','
  | .underscore => '_'

/-- The parts of a format. -/
structure Format where
  fill : CodePoint
  align : Align
  sign : Option SignRule
  dropZeroSign : Bool
  alternate : Bool
  width : Option Nat
  separator : Option Separator
  precision : Option Nat
  code : CodePoint
  deriving DecidableEq, Repr

namespace Format

/-- Counts in a template are below this number. -/
def countLimit : Nat := Nat.pow 2 63

/-- The alignment that a character stands for. -/
def alignOf? : CodePoint → Option Align
  | .scalar '<' => some .left
  | .scalar '>' => some .right
  | .scalar '^' => some .center
  | .scalar '=' => some .inside
  | _ => none

/-- The rule that a character stands for. -/
def signOf? : CodePoint → Option SignRule
  | .scalar '-' => some .minus
  | .scalar '+' => some .plus
  | .scalar ' ' => some .space
  | _ => none

/-- Whether a code point is a decimal digit. -/
def isDigit (point : CodePoint) : Bool := point.decimalDigit?.isSome

/-- The number that a row of decimal digits spells. -/
def spelled (digits : Text) : Nat :=
  digits.foldl (fun number point => number * 10 + point.decimalDigit?.getD 0) 0

/-- The digits at the front, if there are any, and what follows. -/
def readCount (source : Text) : Except Fault (Option Nat × Text) :=
  let digits := source.takeWhile isDigit
  if digits.isEmpty then .ok (none, source)
  else if countLimit ≤ spelled digits then .error .countTooLarge
  else .ok (some (spelled digits), source.dropWhile isDigit)

/-- A fill character and an alignment at the front, each optional. -/
def readAlign (source : Text) : Option CodePoint × Option Align × Text :=
  match source with
  | fill :: mark :: rest =>
    match alignOf? mark with
    | some align => (some fill, some align, rest)
    | none =>
      match alignOf? fill with
      | some align => (none, some align, mark :: rest)
      | none => (none, none, source)
  | [mark] =>
    match alignOf? mark with
    | some align => (none, some align, [])
    | none => (none, none, source)
  | [] => (none, none, [])

/-- Whether one character stands at the front, and what follows. -/
def readMark (mark : Char) : Text → Bool × Text
  | [] => (false, [])
  | point :: rest => if point = .scalar mark then (true, rest) else (false, point :: rest)

/-- A sign rule at the front. -/
def readSign : Text → Option SignRule × Text
  | [] => (none, [])
  | point :: rest =>
    match signOf? point with
    | some rule => (some rule, rest)
    | none => (none, point :: rest)

/-- A separator at the front; the two kinds exclude each other. -/
def readSeparator (source : Text) : Except Fault (Option Separator × Text) :=
  let (comma, rest) := readMark ',' source
  let (underscore, rest) := readMark '_' rest
  if comma && underscore then .error .bothSeparators
  else if underscore then
    if (readMark ',' rest).1 then .error .bothSeparators else .ok (some .underscore, rest)
  else .ok (if comma then some .comma else none, rest)

/-- A precision at the front. -/
def readPrecision (source : Text) : Except Fault (Option Nat × Text) :=
  let (point, rest) := readMark '.' source
  if point then do
    let (count, rest) ← readCount rest
    if count.isNone then throw .precisionMissing
    return (count, rest)
  else .ok (none, source)

/-- How many digits stand between two separators, for the codes that admit them. -/
def groupSize? (separator : Separator) (code : CodePoint) : Option Nat :=
  if code ∈ ['d', 'e', 'f', 'g', 'E', 'G', '%', 'F', '\x00'].map CodePoint.scalar then some 3
  else if separator = .underscore ∧ code ∈ ['b', 'o', 'x', 'X'].map CodePoint.scalar then some 4
  else none

/-- The format that a text spells, for a kind of value with its own code and alignment. -/
def read (type : String) (ownCode : Char) (ownAlign : Align) (source : Text) :
    Except Fault Format := do
  let (fill, align, rest) := readAlign source
  let (sign, rest) := readSign rest
  let (dropZeroSign, rest) := readMark 'z' rest
  let (alternate, rest) := readMark '#' rest
  let (zeroFill, rest) := if fill.isSome then (false, rest) else readMark '0' rest
  let implied := if zeroFill ∧ ownAlign = .right then Align.inside else ownAlign
  let (width, rest) ← readCount rest
  let (separator, rest) ← readSeparator rest
  let (precision, rest) ← readPrecision rest
  let code ← match rest with
    | [] => pure (CodePoint.scalar ownCode)
    | [code] => pure code
    | _ => throw (.invalidFormat source type)
  if let some separator := separator then
    if (groupSize? separator code).isNone then throw (.separatorBefore separator.char code)
  return {
    fill := fill.getD (if zeroFill then .scalar '0' else .scalar ' ')
    align := align.getD implied
    sign, dropZeroSign, alternate, width, separator, precision, code }

end Format

end Splice.Template
