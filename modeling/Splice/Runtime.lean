/-
**The machine.**

Everything that the program leaves to the machine and to the libraries that it uses, taken together:
what objects answer, where the limits lie, which encodings there are, how values are read, what the
console writes, and how events are reported.

* `Runtime`: the machine.
-/

import Splice.Command.Console
import Splice.Command.Journal
import Splice.Schema.Reading
import Splice.Template.Objects

namespace Splice

/-- What the program leaves to the machine and to the libraries that it uses. -/
class Runtime extends Objects, Limits, Codecs, Schema, Console, Journal

end Splice
