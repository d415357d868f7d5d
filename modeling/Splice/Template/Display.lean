/-
**Displayed values.**

The displayed form of a list or a record holds those of its parts, in which texts stand quoted. Values
stand in each other only so many levels deep: a part below the last level cannot be displayed. Nor can
an integer with too many digits, and an object may refuse.

* `Value.shown`: the displayed form of a value;
* `Value.asText`: the value as a text.
-/

import Splice.Limits
import Splice.Number.Written
import Splice.Template.Objects

namespace Splice

open Template (Fault)

namespace Value

variable [Objects]

mutual

/-- The displayed form of a value, given how many levels there are. -/
def shown : Nat → Value → Except Fault Text
  | 0, _ => .error .tooDeep
  | _ + 1, .nothing => .ok (Text.ofString "None")
  | _ + 1, .truth true => .ok (Text.ofString "True")
  | _ + 1, .truth false => .ok (Text.ofString "False")
  | _ + 1, .whole value =>
    if writable value then .ok (Text.decimal value) else .error .tooManyDigits
  | _ + 1, .real value => .ok value.plain
  | _ + 1, .text value => .ok value.quoted
  | levels + 1, .list values =>
    (shownItems levels values).map fun items =>
      .scalar '[' :: Text.joined (Text.ofString ", ") items ++ [.scalar ']']
  | levels + 1, .record fields =>
    (shownFields levels fields).map fun items =>
      .scalar '{' :: Text.joined (Text.ofString ", ") items ++ [.scalar '}']
  | _ + 1, .object key => Objects.shown key

/-- The displayed forms of values, in order. -/
def shownItems (levels : Nat) : List Value → Except Fault (List Text)
  | [] => .ok []
  | value :: rest => do
    let item ← shown levels value
    let items ← shownItems levels rest
    return item :: items

/-- The displayed forms of fields, in order. -/
def shownFields (levels : Nat) : List (Text × Value) → Except Fault (List Text)
  | [] => .ok []
  | (name, value) :: rest => do
    let item ← shown levels value
    let items ← shownFields levels rest
    return (name.quoted ++ Text.ofString ": " ++ item) :: items

end

/-- The value as a text: a text is itself, an object is asked, any other value is displayed. -/
def asText [Limits] : Value → Except Fault Text
  | .text value => .ok value
  | .object key => Objects.asText key
  | value => shown Limits.levels value

end Value

end Splice
