/-
**Decimal digits and blanks.**

* `CodePoint.decimalDigit?`: the value of a decimal digit of any script, in Unicode 14.0.0;
* `CodePoint.isBlank`: the Unicode property White_Space, which `Text.trim` removes at both ends;
* `foldl_digits_lt`: a row of digits spells a number below the power of ten of its length, so that as
  many digits as can be written spell an integer that can.
-/

import Splice.Text

namespace Splice

/-- The code points with decimal value zero; the nine that follow each of them have values one to
nine. -/
def Text.decimalZeros : List Nat :=
  [
    0x30, 0x660, 0x6F0, 0x7C0, 0x966, 0x9E6, 0xA66, 0xAE6, 0xB66, 0xBE6, 0xC66, 0xCE6, 0xD66, 0xDE6,
    0xE50, 0xED0, 0xF20, 0x1040, 0x1090, 0x17E0, 0x1810, 0x1946, 0x19D0, 0x1A80, 0x1A90, 0x1B50,
    0x1BB0, 0x1C40, 0x1C50, 0xA620, 0xA8D0, 0xA900, 0xA9D0, 0xA9F0, 0xAA50, 0xABF0, 0xFF10, 0x104A0,
    0x10D30, 0x11066, 0x110F0, 0x11136, 0x111D0, 0x112F0, 0x11450, 0x114D0, 0x11650, 0x116C0,
    0x11730, 0x118E0, 0x11950, 0x11C50, 0x11D50, 0x11DA0, 0x16A60, 0x16AC0, 0x16B50, 0x1D7CE,
    0x1D7D8, 0x1D7E2, 0x1D7EC, 0x1D7F6, 0x1E140, 0x1E2F0, 0x1E950, 0x1FBF0]

/-- The value of a decimal digit of any script. -/
def CodePoint.decimalDigit? (point : CodePoint) : Option Nat :=
  let number := point.number
  if number < 0x80 then point.asciiDigit?
  else (Text.decimalZeros.find? fun first => first ≤ number && number ≤ first + 9).map (number - ·)

/-- The property White_Space. -/
def CodePoint.isBlank (point : CodePoint) : Bool :=
  let number := point.number
  (0x9 ≤ number && number ≤ 0xD) || number = 0x20 || number = 0x85 || number = 0xA0 ||
    number = 0x1680 || (0x2000 ≤ number && number ≤ 0x200A) || number = 0x2028 ||
    number = 0x2029 || number = 0x202F || number = 0x205F || number = 0x3000

/-- A text without the blanks at its two ends. -/
def Text.trim (text : Text) : Text :=
  ((text.dropWhile CodePoint.isBlank).reverse.dropWhile CodePoint.isBlank).reverse

/-! ### Rows of digits -/

theorem writable_iff {number : Int} : writable number = true ↔ number.natAbs < Nat.pow 10 digitLimit :=
  decide_eq_true_iff

theorem writable_neg (number : Int) : writable (-number) = writable number := by
  unfold writable
  rw [Int.natAbs_neg]

theorem pow_ten_le {digits limit : Nat} (few : digits ≤ limit) : Nat.pow 10 digits ≤ Nat.pow 10 limit :=
  Nat.pow_le_pow_right (by decide) few

/-- A number below a power of ten that can be written can be written itself. -/
theorem writable_of_lt {number : Int} {digits : Nat} (small : number.natAbs < Nat.pow 10 digits)
    (few : digits ≤ digitLimit) : writable number = true :=
  writable_iff.mpr (Nat.lt_of_lt_of_le small (pow_ten_le few))

theorem CodePoint.asciiDigit_le (point : CodePoint) : point.asciiDigit?.getD 0 ≤ 9 := by
  unfold asciiDigit?
  dsimp only
  split
  · rw [Option.getD_some]
    omega
  · exact Nat.zero_le _

/-- **Digits in a row**, behind a number, spell less than the next number with as many zeros. -/
theorem foldl_digits_lt (digits : Text) (start : Nat) :
    digits.foldl (fun number point => number * 10 + point.asciiDigit?.getD 0) start <
      (start + 1) * Nat.pow 10 digits.length := by
  induction digits generalizing start with
  | nil => simp
  | cons point rest ih =>
    have digit := point.asciiDigit_le
    have more : start * 10 + point.asciiDigit?.getD 0 + 1 ≤ (start + 1) * 10 := by omega
    have power : Nat.pow 10 (point :: rest).length = 10 * Nat.pow 10 rest.length := Nat.pow_succ'
    rw [List.foldl_cons, power, ← Nat.mul_assoc]
    exact Nat.lt_of_lt_of_le (ih _) (Nat.mul_le_mul_right _ more)

/-- As many digits as can be written, at most, spell an integer that can. -/
theorem writable_of_length_le {digits : Text} {number : Nat}
    (spelled : number = digits.foldl (fun number point => number * 10 + point.asciiDigit?.getD 0) 0)
    (few : digits.length ≤ digitLimit) : writable number = true := by
  have bound := foldl_digits_lt digits 0
  rw [Nat.zero_add, Nat.one_mul, ← spelled] at bound
  exact writable_of_lt bound few

end Splice
