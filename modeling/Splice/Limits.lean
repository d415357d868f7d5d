/-
**Limits of the machine.**

A machine nests calls only so deep and has only so much memory. Where these limits lie is a matter of the
machine and of the place in the program, so they are parameters; what comes of running into one of them
is an outcome like any other.

* `Limits.nesting`: how many lists and records of a document may stand in each other;
* `Limits.levels`: how many levels of a value can be displayed;
* `Limits.fits`: whether there is memory for a row of fill characters.
-/

namespace Splice

/-- The limits of a machine. There is room for the entries of a script, which are records in a list, and
for a row that is shorter than another for which there is memory. -/
class Limits where
  nesting : Nat
  levels : Nat
  fits : Nat → Bool
  two_le_nesting : 2 ≤ nesting
  fits_zero : fits 0 = true
  fits_of_le {count more : Nat} (less : count ≤ more) (enough : fits more = true) : fits count = true

end Splice
