/-
**Why a template cannot be expanded.**

A fault is a flaw of the markup, a look-up that finds nothing, a format that does not suit its
value, a value that does not fit, or whatever an object says that is asked for a part or a text.

* `Template.Fault`: the causes;
* `Template.Fault.kind`, `Template.Fault.word`: the kind of a fault, and the name of its kind;
* `Template.Kind.isListed`: whether faults of a kind are reported together with their template;
* `Template.Fault.message`: the text of a fault.
-/

import Splice.Text.Quoted

namespace Splice.Template

/-- The kinds of faults. Those of a look-up that are neither of a key nor of an index are a kind of
their own. -/
inductive Kind where
  | key
  | attribute
  | index
  | type
  | value
  | lookup
  | overflow
  | memory
  | recursion
  | other
  deriving DecidableEq, Repr

/-- Why a template cannot be expanded. -/
inductive Fault where
  -- Flaws of the markup
  | loneOpening
  | loneClosing
  | openingInName
  | fieldNotClosed
  | conversionMissing
  | conversionNotEnded
  | formatNotClosed
  | nestedTooDeep
  | positional
  | emptyName
  | strayAfterBracket
  | bracketNotClosed
  | countTooLarge
  | unknownConversion (letter : CodePoint)
  -- Look-ups that find nothing
  | missingName (name : Text)
  | missingIndex (index : Nat)
  | missingAttribute (type : String) (name : Text)
  | pastText
  | pastList
  | textByName
  | listByName
  | noParts (type : String)
  -- Formats that do not suit
  | bothSeparators
  | separatorBefore (separator : Char) (code : CodePoint)
  | precisionMissing
  | invalidFormat (format : Text) (type : String)
  | unknownCode (code : CodePoint) (type : String)
  | noFormat (type : String)
  | signOnText
  | spaceOnText
  | zeroSignOnText
  | alternateOnText
  | insideOnText
  | precisionOnWhole
  | zeroSignOnWhole
  | signOnCharacter
  | alternateOnCharacter
  | precisionTooLarge
  -- Values that do not fit
  | tooManyDigits
  | notACharacter
  | pastMachineWord
  | pastDoubles
  | pastMemory
  | tooDeep
  -- What an object says
  | raised (kind : Kind) (word : String) (message : Text)
  deriving DecidableEq, Repr

/-- The kind of a fault. -/
def Fault.kind : Fault → Kind
  | .missingName _ | .missingIndex _ => .key
  | .missingAttribute _ _ => .attribute
  | .pastText | .pastList => .index
  | .textByName | .listByName | .noParts _ | .noFormat _ => .type
  | .notACharacter | .pastMachineWord | .pastDoubles => .overflow
  | .pastMemory => .memory
  | .tooDeep => .recursion
  | .raised kind _ _ => kind
  | _ => .value

/-- Whether faults of a kind are reported together with their template. -/
def Kind.isListed : Kind → Bool
  | .key | .attribute | .index | .type | .value => true
  | .lookup | .overflow | .memory | .recursion | .other => false

/-- The name of a kind. -/
def Kind.word : Kind → String
  | .key => "KeyError"
  | .attribute => "AttributeError"
  | .index => "IndexError"
  | .type => "TypeError"
  | .value => "ValueError"
  | .lookup => "LookupError"
  | .overflow => "OverflowError"
  | .memory => "MemoryError"
  | .recursion => "RecursionError"
  | .other => "Exception"

/-- The name of the kind of a fault. What an object says may have a kind of a name of its own. -/
def Fault.word : Fault → String
  | .raised _ word _ => word
  | fault => fault.kind.word

/-- A code point in a message: itself when it is visible and below `limit`, and its
number otherwise. -/
def visible (limit : Nat) (point : CodePoint) : Text :=
  if 0x20 < point.number ∧ point.number < limit then [point]
  else Text.ofString "\\x" ++ Text.digits 16 point.number

/-- The text of a fault. -/
def Fault.message : Fault → Text
  | .loneOpening => "Single '\x7b' encountered in format string"
  | .loneClosing => "Single '\x7d' encountered in format string"
  | .openingInName => "unexpected '\x7b' in field name"
  | .fieldNotClosed => "expected '\x7d' before end of string"
  | .conversionMissing => "end of string while looking for conversion specifier"
  | .conversionNotEnded => "expected ':' after conversion specifier"
  | .formatNotClosed => "unmatched '\x7b' in format spec"
  | .nestedTooDeep => "Max string recursion exceeded"
  | .positional => "Format string contains positional fields"
  | .emptyName => "Empty attribute in format string"
  | .strayAfterBracket => "Only '.' or '[' may follow ']' in format field specifier"
  | .bracketNotClosed => "Missing ']' in format string"
  | .countTooLarge => "Too many decimal digits in format string"
  | .unknownConversion letter =>
    Text.concat ["Unknown conversion specifier ", visible 0x7F letter]
  | .missingName name => name.quoted
  | .missingIndex index => Text.digits 10 index
  | .missingAttribute type name =>
    Text.concat ["'", type, "' object has no attribute '", name, "'"]
  | .pastText => "string index out of range"
  | .pastList => "list index out of range"
  | .textByName => "string indices must be integers, not 'str'"
  | .listByName => "list indices must be integers or slices, not str"
  | .noParts type => Text.concat ["'", type, "' object is not subscriptable"]
  | .bothSeparators => "Cannot specify both ',' and '_'."
  | .separatorBefore separator code =>
    Text.concat ["Cannot specify '", [.scalar separator], "' with '", visible 0x80 code, "'."]
  | .precisionMissing => "Format specifier missing precision"
  | .invalidFormat format type =>
    Text.concat ["Invalid format specifier '", format, "' for object of type '", type, "'"]
  | .unknownCode code type =>
    Text.concat ["Unknown format code '", visible 0x80 code, "' for object of type '", type, "'"]
  | .noFormat type => Text.concat ["unsupported format string passed to ", type, ".__format__"]
  | .signOnText => "Sign not allowed in string format specifier"
  | .spaceOnText => "Space not allowed in string format specifier"
  | .zeroSignOnText => "Negative zero coercion (z) not allowed in string format specifier"
  | .alternateOnText => "Alternate form (#) not allowed in string format specifier"
  | .insideOnText => "'=' alignment not allowed in string format specifier"
  | .precisionOnWhole => "Precision not allowed in integer format specifier"
  | .zeroSignOnWhole => "Negative zero coercion (z) not allowed in integer format specifier"
  | .signOnCharacter => "Sign not allowed with integer format specifier 'c'"
  | .alternateOnCharacter => "Alternate form (#) not allowed with integer format specifier 'c'"
  | .precisionTooLarge => "precision too big"
  | .tooManyDigits => Text.tooLong
  | .notACharacter => "%c arg not in range(0x110000)"
  | .pastMachineWord => "Python int too large to convert to C long"
  | .pastDoubles => "int too large to convert to float"
  | .pastMemory => ""
  | .tooDeep => "maximum recursion depth exceeded while getting the repr of an object"
  | .raised _ _ message => message

end Splice.Template
