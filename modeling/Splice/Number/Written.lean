/-
**Written forms of a double.**

* `Binary64.plain`: the shortest digits, positional from `10 ^ -4` up to `10 ^ 16` and with an
  exponent outside, always with a point or an exponent;
* `Binary64.written`: the forms with a chosen number of digits, fixed, scientific and general;
* `Decimal.layout`: a row of digits with its point and exponent.
-/

import Splice.Number.Decimal

namespace Splice

/-- The digits up to the place `upTo`, filled with zeros on both sides, with the point in its place
and, when asked for, an exponent of at least two digits. -/
def Decimal.layout (decimal : Decimal) (upTo : Int) (exponent : Option Int) (keepPoint : Bool) :
    Text :=
  let wide := decimal.point.toNat
  let whole :=
    if decimal.point ≤ 0 then [.scalar '0']
    else decimal.digits.take wide ++ List.replicate (wide - decimal.digits.length) (.scalar '0')
  let given := List.replicate (-decimal.point).toNat (.scalar '0') ++ decimal.digits.drop wide
  let fraction :=
    given ++ List.replicate ((upTo - decimal.point).toNat - given.length) (.scalar '0')
  let mark := if fraction.isEmpty && !keepPoint then [] else [.scalar '.']
  let power := match exponent with
    | none => []
    | some power =>
      let written := Text.digits 10 power.natAbs
      [.scalar 'e', .scalar (if power < 0 then '-' else '+')] ++
        List.replicate (2 - written.length) (.scalar '0') ++ written
  whole ++ mark ++ fraction ++ power

/-- How a number is written: the shortest digits, digits after the point, or significant digits. -/
inductive NumberForm where
  | shortest
  | fixed (places : Nat)
  | scientific (places : Nat)
  | general (digits : Nat) (withPoint : Bool)
  deriving DecidableEq, Repr

/-- The digits laid out with an exponent, or positionally. In positional form `withPoint` asks for
at least one digit after the point. -/
def Decimal.shaped (decimal : Decimal) (useExponent withPoint keepPoint : Bool) (upTo : Int) :
    Text :=
  if useExponent then
    Decimal.layout ⟨decimal.digits, 1⟩ (max upTo 1) (some (decimal.point - 1)) keepPoint
  else
    let upTo :=
      if decimal.point < upTo then upTo
      else if withPoint then decimal.point + 1
      else decimal.point
    decimal.layout upTo none keepPoint

/-- The size of a finite double in a form. -/
def Binary64.size (form : NumberForm) (significand : Nat) (exponent : Int) (keepPoint : Bool) :
    Text :=
  let (top, bottom) := Binary64.ratio significand exponent
  match form with
  | .shortest =>
    let decimal := Decimal.shortest significand exponent
    decimal.shaped (decimal.point ≤ -4 || 16 < decimal.point) true keepPoint decimal.digits.length
  | .fixed places =>
    let decimal := Decimal.places top bottom places
    decimal.shaped false false keepPoint (decimal.point + places)
  | .scientific places =>
    let decimal := Decimal.significant top bottom (places + 1)
    decimal.shaped true false keepPoint (places + 1)
  | .general digits withPoint =>
    let digits := max digits 1
    let decimal := Decimal.significant top bottom digits
    let limit : Int := if withPoint then (digits : Int) - 1 else digits
    decimal.shaped (decimal.point ≤ -4 || limit < decimal.point) withPoint keepPoint
      (if keepPoint then digits else decimal.digits.length)

/-- A double in a form. `keepPoint` keeps a point with no digit after it, and `dropZeroSign` drops
the sign of a number whose digits are all zero. -/
def Binary64.written (number : Binary64) (form : NumberForm) (keepPoint dropZeroSign : Bool) :
    Text :=
  let signed (negative : Bool) (text : Text) : Text :=
    if negative then .scalar '-' :: text else text
  match number with
  | .undefined => Text.ofString "nan"
  | .infinite negative => signed negative (Text.ofString "inf")
  | .finite negative significand exponent =>
    let text := Binary64.size form significand exponent keepPoint
    let zero := text.takeWhile (· ≠ .scalar 'e') |>.all fun point => point.asciiDigit?.getD 0 = 0
    signed (negative && !(dropZeroSign && zero)) text

/-- The plain written form: the fewest digits that read back. -/
def Binary64.plain (number : Binary64) : Text := number.written .shortest false false

end Splice
