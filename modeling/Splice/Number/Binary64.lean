/-
**Double-precision numbers.**

A finite double is `± significand · 2 ^ exponent` with a significand below `2 ^ 53` and an exponent
from `-1074` to `971`. All arithmetic here is exact, on natural numbers.

* `roundHalfEven`: the nearest natural number to a quotient, a half going to the even neighbour;
* `Binary64.nearest`: the double nearest to a quotient, or infinity past the largest one;
* `Binary64.ofDecimal`: the double nearest to a decimal numeral;
* `Binary64.wholeValue?`: the integer that a double is equal to, if there is one.
-/

import Splice.Text

namespace Splice

/-- The natural number nearest to a quotient; of two equally near ones the even one. -/
def roundHalfEven (numerator denominator : Nat) : Nat :=
  let quotient := numerator / denominator
  let twice := 2 * (numerator % denominator)
  if denominator < twice ∨ (twice = denominator ∧ quotient % 2 = 1) then quotient + 1 else quotient

/-- A double-precision number. -/
inductive Binary64 where
  | finite (negative : Bool) (significand : Nat) (exponent : Int)
  | infinite (negative : Bool)
  | undefined
  deriving DecidableEq, Repr, Inhabited

namespace Binary64

/-- A quotient divided by `2 ^ exponent`, again as numerator and denominator. -/
def scaled (numerator denominator : Nat) (exponent : Int) : Nat × Nat :=
  if exponent < 0 then (numerator * Nat.pow 2 exponent.natAbs, denominator)
  else (numerator, denominator * Nat.pow 2 exponent.natAbs)

/-- The exponent with which a positive quotient has a significand of 53 bits, or the least one. -/
def exponentFor (numerator denominator : Nat) : Int :=
  let first : Int := (numerator.log2 : Int) - denominator.log2 - 53
  let (top, bottom) := scaled numerator denominator first
  max (-1074) (if top / bottom < Nat.pow 2 53 then first else first + 1)

/-- The double nearest to a quotient, with the given sign. -/
def nearest (negative : Bool) (numerator denominator : Nat) : Binary64 :=
  if numerator = 0 then .finite negative 0 (-1074)
  else
    let exponent := exponentFor numerator denominator
    let (top, bottom) := scaled numerator denominator exponent
    let rounded := roundHalfEven top bottom
    let (significand, exponent) :=
      if rounded = Nat.pow 2 53 then (Nat.pow 2 52, exponent + 1) else (rounded, exponent)
    if 971 < exponent then .infinite negative else .finite negative significand exponent

/-- The double nearest to `± coefficient · 10 ^ power`. A numeral far outside the range is decided
by its size alone, so that no huge power is computed. -/
def ofDecimal (negative : Bool) (coefficient : Nat) (power : Int) : Binary64 :=
  let size : Int := power + (Nat.toDigits 10 coefficient).length
  if coefficient = 0 ∨ size < -330 then .finite negative 0 (-1074)
  else if 320 < size then .infinite negative
  else if power < 0 then nearest negative coefficient (Nat.pow 10 power.natAbs)
  else nearest negative (coefficient * Nat.pow 10 power.natAbs) 1

/-- The double nearest to an integer. -/
def ofInt (number : Int) : Binary64 := nearest (decide (number < 0)) number.natAbs 1

/-- The size of a finite double as numerator and denominator. -/
def ratio (significand : Nat) (exponent : Int) : Nat × Nat :=
  if exponent < 0 then (significand, Nat.pow 2 exponent.natAbs)
  else (significand * Nat.pow 2 exponent.natAbs, 1)

/-- The integer that a double is equal to. -/
def wholeValue? : Binary64 → Option Int
  | .finite negative significand exponent =>
    let (top, bottom) := ratio significand exponent
    if top % bottom = 0 then
      some (if negative then -((top / bottom : Nat) : Int) else ((top / bottom : Nat) : Int))
    else none
  | _ => none

/-- A double times one hundred, rounded. -/
def hundredfold : Binary64 → Binary64
  | .finite negative significand exponent =>
    let (top, bottom) := ratio significand exponent
    nearest negative (100 * top) bottom
  | number => number

end Binary64

end Splice
