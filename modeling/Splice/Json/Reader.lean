/-
**Reading JSON documents.**

The reader takes a document from its front. What is left after each part is shorter than what the
part began with, which bounds the reading, and a fault is found at the offset where what is left
begins. Lists and records stand in each other only so many levels deep: one past the last level is
not entered. Beside the grammar it accepts `NaN`, `Infinity` and `-Infinity`, and of two fields of one
name the last counts.

* `Json.read`: the value of a document, or the first fault;
* `Json.readUnits`, `Json.joinUnits`: a text between quotation marks; two escapes that spell a
  surrogate pair make one character, any other surrogate stands alone;
* `Json.numeral?`: the longest number at the front.
-/

import Splice.Json.Fault
import Splice.Limits
import Splice.Value

namespace Splice.Json

/-- A cause and how much of the document was left when it was seen. -/
structure Stop where
  cause : Cause
  left : Nat

/-- The end of a reading that began with `source`: what was read and what is left. -/
structure Taken (source : Text) (α : Type) where
  value : α
  rest : Text
  shorter : rest.length < source.length

/-! ### Blanks -/

/-- Whether a code point is a blank of the grammar. -/
def isBlank (point : CodePoint) : Bool :=
  point = .scalar ' ' || point = .scalar '\t' || point = .scalar '\n' || point = .scalar '\r'

/-- What follows the blanks at the front. -/
def skipBlanks (source : Text) : Text := source.dropWhile isBlank

theorem length_skipBlanks_le (source : Text) : (skipBlanks source).length ≤ source.length := by
  unfold skipBlanks
  induction source with
  | nil => simp
  | cons point rest ih =>
    rw [List.dropWhile_cons]
    split
    · exact Nat.le_succ_of_le ih
    · exact Nat.le_refl _

/-! ### Texts -/

/-- A part of a text between quotation marks: a code point as it stands, or an escaped
UTF-16 unit. -/
inductive CodeUnit where
  | plain (point : CodePoint)
  | escaped (unit : Nat)

/-- The character of a one-letter escape. -/
def shortEscape? : CodePoint → Option Char
  | .scalar '"' => some '"'
  | .scalar '\\' => some '\\'
  | .scalar '/' => some '/'
  | .scalar 'b' => some '\x08'
  | .scalar 'f' => some '\x0c'
  | .scalar 'n' => some '\n'
  | .scalar 'r' => some '\r'
  | .scalar 't' => some '\t'
  | _ => none

/-- The number of four hexadecimal digits. -/
def unitOf? (a b c d : CodePoint) : Option Nat := do
  let a ← a.hexDigit?
  let b ← b.hexDigit?
  let c ← c.hexDigit?
  let d ← d.hexDigit?
  return ((a * 16 + b) * 16 + c) * 16 + d

/-- The units of a text up to its closing quotation mark. `opening` is how much was left at its
opening one. Four digits of an escape must be followed by something. -/
def readUnits (opening : Nat) : (source : Text) → Except Stop (Taken source (List CodeUnit))
  | [] => .error ⟨.openText, opening⟩
  | .scalar '"' :: rest => .ok ⟨[], rest, by simp⟩
  | .scalar '\\' :: .scalar 'u' :: a :: b :: c :: d :: next :: rest =>
    match unitOf? a b c d with
    | none => .error ⟨.unicodeEscape, rest.length + 6⟩
    | some unit =>
      (readUnits opening (next :: rest)).map fun taken =>
        ⟨.escaped unit :: taken.value, taken.rest, by have := taken.shorter; simp at this ⊢; omega⟩
  | .scalar '\\' :: .scalar 'u' :: rest => .error ⟨.unicodeEscape, rest.length + 1⟩
  | .scalar '\\' :: letter :: rest =>
    match shortEscape? letter with
    | none => .error ⟨.escape, rest.length + 2⟩
    | some char =>
      (readUnits opening rest).map fun taken =>
        ⟨.plain char :: taken.value, taken.rest, by have := taken.shorter; simp at this ⊢; omega⟩
  | [.scalar '\\'] => .error ⟨.openText, opening⟩
  | point :: rest =>
    if point.number < 0x20 then .error ⟨.control, rest.length + 1⟩
    else
      (readUnits opening rest).map fun taken =>
        ⟨.plain point :: taken.value, taken.rest, by have := taken.shorter; simp at this ⊢; omega⟩

/-- The code points of units: an escaped high surrogate with an escaped low one behind it make one
character. -/
def joinUnits : List CodeUnit → Text
  | [] => []
  | .plain point :: rest => point :: joinUnits rest
  | .escaped high :: .escaped low :: rest =>
    if 0xD800 ≤ high ∧ high < 0xDC00 ∧ 0xDC00 ≤ low ∧ low < 0xE000 then
      .ofNumber (0x10000 + (high - 0xD800) * 0x400 + (low - 0xDC00)) :: joinUnits rest
    else .ofNumber high :: joinUnits (.escaped low :: rest)
  | .escaped unit :: rest => .ofNumber unit :: joinUnits rest

/-- A text whose opening quotation mark has been taken. -/
def readText (source : Text) : Except Stop (Taken source Text) :=
  (readUnits (source.length + 1) source).map fun taken =>
    ⟨joinUnits taken.value, taken.rest, taken.shorter⟩

/-! ### Numbers -/

/-- A number as it is written. -/
structure Numeral where
  negative : Bool
  whole : Text
  fraction : Text
  power : Int
  isReal : Bool

/-- Whether a code point is an ASCII digit. -/
def isDigit (point : CodePoint) : Bool := point.asciiDigit?.isSome

/-- The number that a row of digits spells. -/
def spelled (digits : Text) : Nat :=
  digits.foldl (fun number point => number * 10 + point.asciiDigit?.getD 0) 0

/-- The digits in front of the point, and what follows: one zero, or a row that does not begin
with it. -/
def wholePart? : Text → Option (Text × Text)
  | [] => none
  | point :: rest =>
    if point = .scalar '0' then some ([point], rest)
    else if isDigit point then
      some (point :: rest.takeWhile isDigit, rest.dropWhile isDigit)
    else none

/-- The digits behind the point, and what follows; no digits when there is no point with a digit
behind it. -/
def fractionPart (source : Text) : Text × Text :=
  match source with
  | .scalar '.' :: rest =>
    if (rest.takeWhile isDigit).isEmpty then ([], source)
    else (rest.takeWhile isDigit, rest.dropWhile isDigit)
  | _ => ([], source)

/-- The sign and digits of an exponent, and what follows. -/
def powerPart? (source : Text) : Option (Int × Text) :=
  let signed (rest : Text) : Bool × Text := match rest with
    | .scalar '-' :: rest => (true, rest)
    | .scalar '+' :: rest => (false, rest)
    | rest => (false, rest)
  let digits (rest : Text) : Option (Int × Text) :=
    let (negative, rest) := signed rest
    if (rest.takeWhile isDigit).isEmpty then none
    else
      let size : Int := spelled (rest.takeWhile isDigit)
      some (if negative then -size else size, rest.dropWhile isDigit)
  match source with
  | .scalar 'e' :: rest => digits rest
  | .scalar 'E' :: rest => digits rest
  | _ => none

/-- The longest number at the front of a document. -/
def numeral? (source : Text) : Option (Numeral × Text) := do
  let (negative, unsigned) := match source with
    | .scalar '-' :: rest => (true, rest)
    | source => (false, source)
  let (whole, rest) ← wholePart? unsigned
  let (fraction, rest) := fractionPart rest
  match powerPart? rest with
  | some (power, rest) => return (⟨negative, whole, fraction, power, true⟩, rest)
  | none => return (⟨negative, whole, fraction, 0, !fraction.isEmpty⟩, rest)

/-- The value of a number: an integer when it has neither point nor exponent, otherwise a double. -/
def Numeral.value (numeral : Numeral) : Except Cause Value :=
  if numeral.isReal then
    .ok (.real (Binary64.ofDecimal numeral.negative (spelled (numeral.whole ++ numeral.fraction))
      (numeral.power - numeral.fraction.length)))
  else if digitLimit < numeral.whole.length then .error (.digits numeral.whole.length)
  else
    let size : Int := spelled numeral.whole
    .ok (.whole (if numeral.negative then -size else size))

/-! ### Values -/

/-- The words that are values. -/
def words : List (String × Value) :=
  [("null", .nothing), ("true", .truth true), ("false", .truth false), ("NaN", .real .undefined),
    ("Infinity", .real (.infinite false)), ("-Infinity", .real (.infinite true))]

/-- A word at the front of a document. -/
def word? (source : Text) : Option (Value × Text) :=
  words.findSome? fun (word, value) =>
    if source.startsWith (Text.ofString word) then some (value, source.drop word.length) else none

/-- A word or a number at the front of a document. A value whose rest is not shorter is none. -/
def readSimple (source : Text) : Except Stop (Taken source Value) :=
  match word? source with
  | some (value, rest) =>
    if shorter : rest.length < source.length then .ok ⟨value, rest, shorter⟩
    else .error ⟨.value, source.length⟩
  | none =>
    match numeral? source with
    | none => .error ⟨.value, source.length⟩
    | some (numeral, rest) =>
      match numeral.value with
      | .error cause => .error ⟨cause, source.length⟩
      | .ok value =>
        if shorter : rest.length < source.length then .ok ⟨value, rest, shorter⟩
        else .error ⟨.value, source.length⟩

mutual

/-- The value at the front of a document, given how many levels there are. -/
def readValue (levels : Nat) (source : Text) : Except Stop (Taken source Value) :=
  match source with
  | .scalar '"' :: rest =>
    (readText rest).map fun taken =>
      ⟨.text taken.value, taken.rest, by have := taken.shorter; simp; omega⟩
  | .scalar '[' :: rest =>
    match levels with
    | 0 => .error ⟨.deepList, rest.length + 1⟩
    | levels + 1 =>
      have bound := length_skipBlanks_le rest
      match inner : skipBlanks rest with
      | .scalar ']' :: after =>
        .ok ⟨.list [], after, by rw [inner] at bound; simp at bound ⊢; omega⟩
      | _ =>
        (readItems levels (skipBlanks rest)).map fun taken =>
          ⟨.list taken.value, taken.rest, by have := taken.shorter; simp; omega⟩
  | .scalar '{' :: rest =>
    match levels with
    | 0 => .error ⟨.deepRecord, rest.length + 1⟩
    | levels + 1 =>
      have bound := length_skipBlanks_le rest
      match inner : skipBlanks rest with
      | .scalar '}' :: after =>
        .ok ⟨.record [], after, by rw [inner] at bound; simp at bound ⊢; omega⟩
      | _ =>
        (readFields levels (skipBlanks rest)).map fun taken =>
          ⟨.record (Record.ofFields taken.value), taken.rest, by
            have := taken.shorter; simp; omega⟩
  | source => readSimple source
  termination_by 2 * source.length
  decreasing_by
    all_goals simp
    all_goals omega

/-- The values of a list up to its closing bracket. -/
def readItems (levels : Nat) (source : Text) : Except Stop (Taken source (List Value)) := do
  let first ← readValue levels source
  have bound := length_skipBlanks_le first.rest
  have start := first.shorter
  match inner : skipBlanks first.rest with
  | .scalar ']' :: after =>
    return ⟨[first.value], after, by rw [inner] at bound; simp at bound; omega⟩
  | .scalar ',' :: after =>
    have next := length_skipBlanks_le after
    let others ← readItems levels (skipBlanks after)
    return ⟨first.value :: others.value, others.rest, by
      have := others.shorter; rw [inner] at bound; simp at bound; omega⟩
  | other => throw ⟨.comma, other.length⟩
  termination_by 2 * source.length + 1
  decreasing_by
    · omega
    · rw [inner] at bound; simp at bound; omega

/-- The fields of a record up to its closing brace. -/
def readFields (levels : Nat) (source : Text) : Except Stop (Taken source (List (Text × Value))) :=
  match source with
  | .scalar '"' :: opened => do
    let name ← readText opened
    have nameBound := length_skipBlanks_le name.rest
    have nameStart := name.shorter
    match colon : skipBlanks name.rest with
    | .scalar ':' :: behind =>
      have behindBound := length_skipBlanks_le behind
      let value ← readValue levels (skipBlanks behind)
      have bound := length_skipBlanks_le value.rest
      have start := value.shorter
      match inner : skipBlanks value.rest with
      | .scalar '}' :: after =>
        return ⟨[(name.value, value.value)], after, by
          rw [inner] at bound; rw [colon] at nameBound; simp at bound nameBound ⊢; omega⟩
      | .scalar ',' :: after =>
        have next := length_skipBlanks_le after
        let others ← readFields levels (skipBlanks after)
        return ⟨(name.value, value.value) :: others.value, others.rest, by
          have := others.shorter
          rw [inner] at bound; rw [colon] at nameBound; simp at bound nameBound ⊢; omega⟩
      | other => throw ⟨.comma, other.length⟩
    | other => throw ⟨.colon, other.length⟩
  | other => .error ⟨.name, other.length⟩
  termination_by 2 * source.length
  decreasing_by
    · rw [colon] at nameBound; simp at nameBound; simp; omega
    · rw [inner] at bound; rw [colon] at nameBound; simp at bound nameBound; simp; omega

end

/-- The value of a document, with blanks around it. -/
def read [Limits] (document : Text) : Except Fault Value :=
  let located (stop : Stop) : Fault := ⟨stop.cause, document.length - stop.left⟩
  if document.startsWith [.scalar '\uFEFF'] then .error ⟨.byteOrderMark, 0⟩
  else
    match readValue Limits.nesting (skipBlanks document) with
    | .error stop => .error (located stop)
    | .ok taken =>
      match skipBlanks taken.rest with
      | [] => .ok taken.value
      | rest => .error (located ⟨.trailing, rest.length⟩)

end Splice.Json
