/-
**Locations.**

A position is an offset, with a line and a column that are only carried along. A location is a pair
of positions, as a parser reports it; its end may lie before its start, and its offsets may be any
integers.

* `Location.start`, `Location.length`: a location as an offset and a signed length.
-/

namespace Splice

/-- A position in a text. -/
structure Position where
  offset : Int
  line : Int
  column : Int
  deriving DecidableEq, Repr

/-- The range between two positions, in either order. -/
structure Location where
  first : Position
  last : Position
  deriving DecidableEq, Repr

namespace Location

/-- Where the location begins. -/
def start (location : Location) : Int := location.first.offset

/-- How far the end lies behind the start; negative when it lies before it. -/
def length (location : Location) : Int := location.last.offset - location.first.offset

end Location

end Splice
