/-
**The console.**

The output is a console with an encoding of its own, which the machine has chosen and no request
changes. It writes a text as a whole or not at all. The console is a parameter; whatever its encoding
is, what is ASCII is written as ASCII.

* `Console.print`: the octets that the console writes for a text;
* `Console.IsUtf8`: a console whose encoding is UTF-8.
-/

import Splice.Encoding.Codec

namespace Splice

/-- What the console makes of texts. -/
class Console where
  print : Text → Except Codec.Fault Bytes
  print_of_ascii {text : Text} {octets : Bytes} (written : Charset.ascii.encode text = .ok octets) :
    print text = .ok octets

/-- Whether the encoding of the console is UTF-8. -/
def Console.IsUtf8 [Console] : Prop := ∀ text, print text = Charset.utf8.codec.encode text

end Splice
