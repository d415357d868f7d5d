/-
**Texts as sequences of code points.**

A text is a list of code points, and a code point is either a character or a lone surrogate: an
edit script may spell a surrogate with an escape, so a text can hold one although no encoding
accepts it. Offsets count code points.

* `Text.ofString`, `Text.toChars?`: a string read as a text, and back when no surrogate is left;
* `Text.decimal`: the decimal digits of an integer, least count, `-` in front of a negative one;
* `Text.slice`: the part between two offsets, where a negative offset counts from the end and one
  that lies outside is moved to the nearest end;
* `writable`, `Text.withNumbers`: the integers that can be written, and a text with integers in it.
-/

namespace Splice

/-- A code point: a character, or the surrogate `0xD800 + index` standing alone. -/
inductive CodePoint where
  | scalar (char : Char)
  | surrogate (index : Fin 2048)
  deriving DecidableEq, Repr, Inhabited

namespace CodePoint

instance : Coe Char CodePoint := ⟨.scalar⟩

/-- The number of the code point. -/
def number : CodePoint → Nat
  | .scalar char => char.toNat
  | .surrogate index => 0xD800 + index.val

/-- The code point of a number below `0x110000`. -/
def ofNumber (number : Nat) : CodePoint :=
  if inside : 0xD800 ≤ number ∧ number < 0xE000 then
    .surrogate ⟨number - 0xD800, by omega⟩
  else .scalar (Char.ofNat number)

/-- Whether the code point is a surrogate. -/
def isSurrogate : CodePoint → Bool
  | .scalar _ => false
  | .surrogate _ => true

/-- The value of an ASCII decimal digit. -/
def asciiDigit? (point : CodePoint) : Option Nat :=
  let number := point.number
  if 48 ≤ number ∧ number ≤ 57 then some (number - 48) else none

/-- The value of an ASCII hexadecimal digit in either case. -/
def hexDigit? (point : CodePoint) : Option Nat :=
  let number := point.number
  if 48 ≤ number ∧ number ≤ 57 then some (number - 48)
  else if 97 ≤ number ∧ number ≤ 102 then some (number - 87)
  else if 65 ≤ number ∧ number ≤ 70 then some (number - 55)
  else none

end CodePoint

/-- A text: its code points in order. -/
abbrev Text := List CodePoint

namespace Text

/-- A string as a text. -/
def ofString (string : String) : Text := string.toList.map .scalar

instance : Coe String Text := ⟨ofString⟩

/-- A list of characters as a text. -/
def ofChars (chars : List Char) : Text := chars.map .scalar

/-- The characters of a text that holds no surrogate. -/
def toChars? : Text → Option (List Char)
  | [] => some []
  | .scalar char :: rest => (toChars? rest).map (char :: ·)
  | .surrogate _ :: _ => none

/-- Texts one after another. -/
def concat (parts : List Text) : Text := parts.flatten

/-- Texts with a separator between each two. -/
def joined (separator : Text) (parts : List Text) : Text := (parts.intersperse separator).flatten

/-- The digits of a natural number in a base up to sixteen, least count. -/
def digits (base : Nat) (number : Nat) : Text := ofChars (Nat.toDigits base number)

/-- The decimal digits of an integer, with `-` in front of a negative one. -/
def decimal (number : Int) : Text :=
  if number < 0 then .scalar '-' :: digits 10 number.natAbs else digits 10 number.natAbs

/-- Lower-case hexadecimal digits, filled with zeros on the left up to a width. -/
def hex (width number : Nat) : Text :=
  let written := digits 16 number
  List.replicate (width - written.length) (.scalar '0') ++ written

/-- An offset made definite: a negative one counts from the end, and the nearest end replaces one
that lies outside. -/
def clamp (size : Nat) (offset : Int) : Nat :=
  if offset < 0 then (offset + size).toNat else min offset.toNat size

/-- The part from one offset up to another, empty when they are out of order. -/
def slice (text : Text) (start stop : Int) : Text :=
  let first := clamp text.length start
  (text.drop first).take (clamp text.length stop - first)

/-- The text with each ASCII letter in lower case. -/
def asciiLower (text : Text) : Text :=
  text.map fun
    | .scalar char => .scalar char.toLower
    | point => point

/-- The parts around the first occurrence of a code point, if there is one. -/
def splitAt? (mark : CodePoint) : Text → Option (Text × Text)
  | [] => none
  | point :: rest =>
    if point = mark then some ([], rest)
    else (splitAt? mark rest).map fun (before, after) => (point :: before, after)

/-- Whether a text begins with another. -/
def startsWith (text beginning : Text) : Bool := beginning.isPrefixOf text

end Text

/-- An integer has a written form only up to this many digits. -/
def digitLimit : Nat := 4300

/-- Whether an integer is short enough to be written. -/
def writable (number : Int) : Bool := number.natAbs < Nat.pow 10 digitLimit

/-- What is said when an integer is too long to be written. -/
def Text.tooLong : Text :=
  Text.concat ["Exceeds the limit (4300 digits) for integer string conversion; ",
    "use sys.set_int_max_str_digits() to increase the limit"]

/-- A text with integers in it, all of which must be short enough to be written. -/
def Text.withNumbers (numbers : List Int) (text : Text) : Text :=
  if numbers.all writable then text else tooLong

end Splice
