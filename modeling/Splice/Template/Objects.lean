/-
**Objects.**

Values have attributes, which a template can ask for, and these may be objects of any kind; so may be
the values of a context. What attributes there are, and what objects answer, is a matter of the
machine, and a parameter here. It is taken as a function: the same value has the same attributes, and
the same object the same answers, whenever a template asks. So an object that shows its place in memory
is taken to keep it from one emission to the next.

* `Objects`: the attributes of values, and what objects answer;
* `Value.typeName`: the name of the kind of a value, as messages use it.
-/

import Splice.Template.Fault
import Splice.Value

namespace Splice

open Template (Fault)

/-- The attributes of values, and what objects answer: the name of their kind, their part under an
index or a name, their displayed form, their text, and their text by a written format. -/
class Objects where
  attributeOf : Value → Text → Except Fault Value
  typeName : Nat → String
  part : Nat → Value → Except Fault Value
  shown : Nat → Except Fault Text
  asText : Nat → Except Fault Text
  formatted : Nat → Text → Except Fault Text

/-- The name of the kind of a value. -/
def Value.typeName [Objects] : Value → String
  | .nothing => "NoneType"
  | .truth _ => "bool"
  | .whole _ => "int"
  | .real _ => "float"
  | .text _ => "str"
  | .list _ => "list"
  | .record _ => "dict"
  | .object key => Objects.typeName key

end Splice
