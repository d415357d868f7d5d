/-
**Quoted texts.**

A quoted text stands between apostrophes, or between quotation marks when it holds an apostrophe
and no quotation mark. Inside, a backslash and the mark itself get a backslash, tab, line feed and
carriage return have their letters, and a code point that is not printable is written by number.

* `Text.quoted`: the quoted form;
* `Text.quotedAscii`: the quoted form in which every code point above `0x7E` is written by number;
* `CodePoint.escaped`: the written number, `\x` with two digits, `\u` with four, `\U` with eight.
-/

import Splice.Text.Printable

namespace Splice

namespace CodePoint

/-- A code point written by its number, in the shortest of the three widths that holds it. -/
def escaped (point : CodePoint) : Text :=
  let number := point.number
  if number ≤ 0xFF then Text.ofString "\\x" ++ Text.hex 2 number
  else if number ≤ 0xFFFF then Text.ofString "\\u" ++ Text.hex 4 number
  else Text.ofString "\\U" ++ Text.hex 8 number

/-- A code point inside a quoted text that stands between two copies of `mark`. -/
def quoted (mark point : CodePoint) : Text :=
  if point = mark ∨ point = .scalar '\\' then [.scalar '\\', point]
  else if point = .scalar '\t' then Text.ofString "\\t"
  else if point = .scalar '\n' then Text.ofString "\\n"
  else if point = .scalar '\r' then Text.ofString "\\r"
  else if point.isPrintable then [point]
  else point.escaped

end CodePoint

namespace Text

/-- The mark around a quoted text. -/
def quoteMark (text : Text) : CodePoint :=
  if text.contains (.scalar '\'') ∧ ¬ text.contains (.scalar '"') then .scalar '"'
  else .scalar '\''

/-- The quoted form of a text. -/
def quoted (text : Text) : Text :=
  let mark := text.quoteMark
  mark :: text.flatMap (CodePoint.quoted mark) ++ [mark]

/-- A text in which every code point above `0x7E` is written by its number. -/
def inAscii (text : Text) : Text :=
  text.flatMap fun point => if point.number < 0x7F then [point] else point.escaped

/-- The quoted form of a text, in ASCII alone. -/
def quotedAscii (text : Text) : Text := text.quoted.inAscii

end Text

end Splice
