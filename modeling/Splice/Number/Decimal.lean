/-
**Decimal digits of a double.**

Digits are chosen exactly, as a row of digits `d₁ d₂ …` and the place of the point: the number is
`0.d₁d₂… · 10 ^ point`.

* `Decimal.shortest`: the fewest digits that read back as the same double, and of those the nearest;
* `Decimal.significant`: a given number of digits, the last one rounded half to even;
* `Decimal.places`: a given number of digits after the point, rounded alike.
-/

import Splice.Number.Binary64

namespace Splice

/-- A row of decimal digits and the place of the point before which the first `point` of
them stand. -/
structure Decimal where
  digits : Text
  point : Int
  deriving DecidableEq, Repr, Inhabited

namespace Decimal

/-- The number zero. -/
def zero : Decimal := ⟨[.scalar '0'], 1⟩

/-- The digits of `coefficient · 10 ^ power` without trailing zeros. -/
def ofScaled (coefficient : Nat) (power : Int) : Decimal :=
  let written := Text.digits 10 coefficient
  ⟨(written.reverse.dropWhile (· = .scalar '0')).reverse, power + written.length⟩

/-- The place of the point of a positive quotient: the least `p` with the quotient below `10
^ p`. -/
def pointOf (numerator denominator : Nat) : Int :=
  if denominator ≤ numerator then (Nat.toDigits 10 (numerator / denominator)).length
  else
    let width := (Nat.toDigits 10 (denominator / numerator)).length
    if denominator ≤ numerator * Nat.pow 10 (width - 1) then 2 - (width : Int) else 1 - (width : Int)

/-- A quotient divided by `10 ^ power`, again as numerator and denominator. -/
def scaled (numerator denominator : Nat) (power : Int) : Nat × Nat :=
  if power < 0 then (numerator * Nat.pow 10 power.natAbs, denominator)
  else (numerator, denominator * Nat.pow 10 power.natAbs)

/-- A positive quotient rounded to `count` digits. -/
def significant (numerator denominator count : Nat) : Decimal :=
  if numerator = 0 then zero
  else
    let power := pointOf numerator denominator - count
    let (top, bottom) := scaled numerator denominator power
    ofScaled (roundHalfEven top bottom) power

/-- A quotient rounded to `count` digits after the point. -/
def places (numerator denominator count : Nat) : Decimal :=
  let rounded := roundHalfEven (numerator * Nat.pow 10 count) denominator
  if rounded = 0 then ⟨[], -(count : Int)⟩ else ofScaled rounded (-(count : Int))

/-- The numbers that round to one double, in quarters of its last place: the closed interval from
`low` to `high` when the ends belong to it, and the open one otherwise. -/
structure Basin where
  low : Nat
  middle : Nat
  high : Nat
  closed : Bool

/-- The numbers that round to `significand · 2 ^ exponent`. -/
def Basin.around (significand : Nat) (exponent : Int) : Basin where
  low :=
    if significand = Nat.pow 2 52 ∧ -1074 < exponent then 4 * significand - 1
    else 4 * significand - 2
  middle := 4 * significand
  high := 4 * significand + 2
  closed := significand % 2 = 0

/-- Whether `top / bottom` quarters lie in the interval. -/
def Basin.holds (basin : Basin) (top bottom : Nat) : Bool :=
  if basin.closed then basin.low * bottom ≤ top && top ≤ basin.high * bottom
  else basin.low * bottom < top && top < basin.high * bottom

/-- The nearest number of `count` digits that lies in the interval, when one does. The unit of the
grid is `10 ^ power`, and a quarter of the last place is `numerator / denominator`. -/
def onGrid? (basin : Basin) (numerator denominator : Nat) (power : Int) : Option Decimal :=
  let (top, bottom) := scaled (basin.middle * numerator) denominator power
  let lower := top / bottom
  -- `unitTop / unitBottom` quarters make one unit of the grid
  let (unitBottom, unitTop) := scaled numerator denominator power
  let below := basin.holds (lower * unitTop) unitBottom
  let above := basin.holds ((lower + 1) * unitTop) unitBottom
  let twice := 2 * (top % bottom)
  if below && (!above || twice < bottom || (twice = bottom && lower % 2 = 0)) then
    some (ofScaled lower power)
  else if above then some (ofScaled (lower + 1) power)
  else none

/-- The fewest digits that read back as `significand · 2 ^ exponent`: seventeen always suffice. -/
def shortest (significand : Nat) (exponent : Int) : Decimal :=
  if significand = 0 then zero
  else
    let basin := Basin.around significand exponent
    let (numerator, denominator) := Binary64.ratio 1 (exponent - 2)
    let point := pointOf (basin.middle * numerator) denominator
    ((List.range 17).findSome? fun (count : Nat) =>
      onGrid? basin numerator denominator (point - (count + 1))).getD
        (significant (basin.middle * numerator) denominator 17)

end Decimal

end Splice
