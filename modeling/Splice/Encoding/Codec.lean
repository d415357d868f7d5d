/-
**Codecs.**

Which encodings there are is a matter of the machine: a registry that finds by name what encodes texts.
A text is encoded in one piece, or stored in a file that has been opened in the encoding; these need not
come to the same. The registry is a parameter. It has the well-known encodings under all their names,
and may have any others.

* `Codec`: what an encoding makes of texts; `Charset.codec`: a well-known one;
* `Codecs`: the registry;
* `Codecs.ofName`: the encoding of a name.
-/

import Splice.Encoding.Name

namespace Splice

/-- Why an encoding has no octets for a text: a range of code points that it cannot write, or something
else that it says. -/
inductive Codec.Fault where
  | range (fault : Charset.Fault)
  | said (message : Text)
  deriving DecidableEq, Repr

/-- The text of a fault. -/
def Codec.Fault.message : Codec.Fault → Text
  | .range fault => fault.message
  | .said message => message

/-- An encoding of texts: the octets of a text in one piece, and those of a file in which it is
stored. -/
structure Codec where
  encode : Text → Except Codec.Fault Bytes
  store : Text → Except Codec.Fault Bytes

/-- What a name in the registry stands for. -/
inductive Codec.Named where
  | codec (codec : Codec)
  | transformation

/-- A well-known encoding, which stores texts as it encodes them. -/
def Charset.codec (charset : Charset) : Codec :=
  let encoded (text : Text) := (charset.encode text).mapError Codec.Fault.range
  ⟨encoded, encoded⟩

/-- What a well-known name stands for in the registry. -/
def Charset.Named.entry : Charset.Named → Codec.Named
  | .charset known => .codec known.codec
  | .transformation => .transformation

/-- The registry of encodings. What is well-known goes by its names there, and nothing goes by no
name. -/
class Codecs where
  named : Text → Except Charset.NameFault Codec.Named
  named_nil : named [] = .error (.unknown [])
  named_of_known {name : Text} {found : Charset.Named} (known : Charset.named name = .ok found) :
    named name = .ok found.entry

/-- The encoding of a name. `advice` names what serves a transformation instead. -/
def Codecs.ofName [Codecs] (name : Text) (advice : String) : Except Charset.NameFault Codec :=
  match named name with
  | .error fault => .error fault
  | .ok (.codec codec) => .ok codec
  | .ok .transformation => .error (.transformation name advice)

end Splice
