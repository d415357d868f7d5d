/-
**Writing JSON documents.**

Values are written in one line, with a blank behind each comma and colon, and in ASCII: every other
code point stands as an escape, one past `0xFFFF` as the escapes of its surrogate pair. Objects have
no document and stand as nothing.

* `Json.write`: the document of a value;
* `Json.writeText`: a text between quotation marks.
-/

import Splice.Number.Written
import Splice.Value

namespace Splice.Json

/-- A UTF-16 unit as an escape. -/
def escape (unit : Nat) : Text := Text.ofString "\\u" ++ Text.hex 4 unit

/-- A code point inside a text. -/
def writePoint (point : CodePoint) : Text :=
  let number := point.number
  if point = .scalar '"' ∨ point = .scalar '\\' then [.scalar '\\', point]
  else if point = .scalar '\n' then Text.ofString "\\n"
  else if point = .scalar '\r' then Text.ofString "\\r"
  else if point = .scalar '\t' then Text.ofString "\\t"
  else if number = 0x8 then Text.ofString "\\b"
  else if number = 0xC then Text.ofString "\\f"
  else if 0x20 ≤ number ∧ number < 0x7F then [point]
  else if number = 0x7F then [point]
  else if number ≤ 0xFFFF then escape number
  else
    escape (0xD800 + (number - 0x10000) / 0x400) ++ escape (0xDC00 + (number - 0x10000) % 0x400)

/-- A text between quotation marks. -/
def writeText (text : Text) : Text := .scalar '"' :: text.flatMap writePoint ++ [.scalar '"']

/-- A double. -/
def writeReal : Binary64 → Text
  | .undefined => Text.ofString "NaN"
  | .infinite false => Text.ofString "Infinity"
  | .infinite true => Text.ofString "-Infinity"
  | number => number.plain

mutual

/-- The document of a value. -/
def write : Value → Text
  | .nothing => Text.ofString "null"
  | .truth true => Text.ofString "true"
  | .truth false => Text.ofString "false"
  | .whole number => Text.decimal number
  | .real number => writeReal number
  | .text text => writeText text
  | .list values => .scalar '[' :: writeItems values ++ [.scalar ']']
  | .record fields => .scalar '{' :: writeFields fields ++ [.scalar '}']
  | .object _ => Text.ofString "null"

/-- Values with commas between them. -/
def writeItems : List Value → Text
  | [] => []
  | [value] => write value
  | value :: next :: rest => write value ++ Text.ofString ", " ++ writeItems (next :: rest)

/-- Fields with commas between them. -/
def writeFields : List (Text × Value) → Text
  | [] => []
  | [(name, value)] => writeText name ++ Text.ofString ": " ++ write value
  | (name, value) :: next :: rest =>
    writeText name ++ Text.ofString ": " ++ write value ++ Text.ofString ", " ++
      writeFields (next :: rest)

end

end Splice.Json
