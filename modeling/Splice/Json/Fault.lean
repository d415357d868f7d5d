/-
**Why a JSON document cannot be read.**

* `Json.Fault`: the cause and the offset, in code points, at which it was seen;
* `Json.Fault.message`: its text, with line, column and offset;
* `Json.Cause.digits`, `Json.Cause.deepList`, `Json.Cause.deepRecord`: the causes that are no faults
  of the grammar, an integer past the digit limit, and a list or a record past the last level.
-/

import Splice.Text

namespace Splice.Json

/-- Why reading stopped. -/
inductive Cause where
  | value
  | name
  | colon
  | comma
  | openText
  | control
  | escape
  | unicodeEscape
  | trailing
  | byteOrderMark
  | digits (count : Nat)
  | deepList
  | deepRecord
  deriving DecidableEq, Repr

/-- Whether the document is nested too deep to be read. -/
def Cause.isDepth : Cause → Bool
  | .deepList | .deepRecord => true
  | _ => false

/-- A cause and the offset at which it was seen. -/
structure Fault where
  cause : Cause
  offset : Nat
  deriving DecidableEq, Repr

/-- The words of a cause. -/
def Cause.words : Cause → String
  | .value => "Expecting value"
  | .name => "Expecting property name enclosed in double quotes"
  | .colon => "Expecting ':' delimiter"
  | .comma => "Expecting ',' delimiter"
  | .openText => "Unterminated string starting at"
  | .control => "Invalid control character at"
  | .escape => "Invalid \\escape"
  | .unicodeEscape => "Invalid \\uXXXX escape"
  | .trailing => "Extra data"
  | .byteOrderMark => "Unexpected UTF-8 BOM (decode using utf-8-sig)"
  | .digits _ => "Exceeds the limit (4300 digits) for integer string conversion"
  | .deepList => "maximum recursion depth exceeded while decoding a JSON array from a unicode string"
  | .deepRecord =>
    "maximum recursion depth exceeded while decoding a JSON object from a unicode string"

/-- The line of an offset, counted from one. -/
def line (document : Text) (offset : Nat) : Nat :=
  (document.take offset).count (.scalar '\n') + 1

/-- The column of an offset, counted from one. -/
def column (document : Text) (offset : Nat) : Nat :=
  ((document.take offset).reverse.takeWhile (· ≠ .scalar '\n')).length + 1

/-- The text of a fault in a document. -/
def Fault.message (fault : Fault) (document : Text) : Text :=
  match fault.cause with
  | .digits count =>
    Text.concat [fault.cause.words, ": value has ", Text.digits 10 count,
      " digits; use sys.set_int_max_str_digits() to increase the limit"]
  | .deepList | .deepRecord => fault.cause.words
  | _ =>
    Text.concat [fault.cause.words, ": line ", Text.digits 10 (line document fault.offset),
      " column ", Text.digits 10 (column document fault.offset),
      " (char ", Text.digits 10 fault.offset, ")"]

end Splice.Json
