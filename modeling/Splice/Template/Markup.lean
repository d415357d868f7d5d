/-
**The markup of templates.**

A template is text with fields in braces; a doubled brace stands for itself. A field is a name, an
optional conversion behind `!`, and an optional format behind `:`, which may hold fields in turn. A
name is a head followed by attributes behind `.` and items between brackets.

A flaw counts only when everything before it has been expanded, so reading gives the pieces in front
of the first flaw together with the flaw.

* `Markup.read`: the pieces of a template and its flaw;
* `Path.read`: the steps behind the head of a name and their flaw;
* `Field.head`: the head of a field's name.
-/

import Splice.Template.Format

namespace Splice.Template

/-- A field of a template. -/
structure Field where
  name : Text
  conversion : Option CodePoint
  format : Text
  nested : Bool
  deriving DecidableEq, Repr

/-- A piece of a template: a code point of its text, or a field. -/
inductive Piece where
  | literal (point : CodePoint)
  | field (field : Field)
  deriving DecidableEq, Repr

/-- The pieces of a template up to its first flaw. -/
structure Markup where
  pieces : List Piece
  flaw : Option Fault
  deriving DecidableEq, Repr

/-- Where the reading of a template stands. -/
inductive Place where
  | text
  | name (read : Text)
  | bracket (read : Text)
  | conversion (name : Text)
  | converted (name : Text) (letter : CodePoint)
  | format (name : Text) (conversion : Option CodePoint) (depth : Nat) (nested : Bool) (read : Text)
  deriving DecidableEq, Repr

namespace Markup

/-- Nothing but a flaw. -/
def flawed (fault : Fault) : Markup := ⟨[], some fault⟩

/-- A markup with one more piece in front. -/
def cons (piece : Piece) (markup : Markup) : Markup := ⟨piece :: markup.pieces, markup.flaw⟩

/-- The markup of the rest of a template, from a place on. Parts read so far are kept in reverse. -/
def readFrom : Place → Text → Markup
  | .text, [] => ⟨[], none⟩
  | .text, [.scalar '\x7b'] => flawed .loneOpening
  | .text, .scalar '\x7b' :: .scalar '\x7b' :: rest =>
    cons (.literal (.scalar '\x7b')) (readFrom .text rest)
  | .text, .scalar '\x7b' :: point :: rest => readFrom (.name []) (point :: rest)
  | .text, .scalar '\x7d' :: .scalar '\x7d' :: rest =>
    cons (.literal (.scalar '\x7d')) (readFrom .text rest)
  | .text, .scalar '\x7d' :: _ => flawed .loneClosing
  | .text, point :: rest => cons (.literal point) (readFrom .text rest)
  | .name _, [] => flawed .fieldNotClosed
  | .name _, .scalar '\x7b' :: _ => flawed .openingInName
  | .name read, .scalar '[' :: rest => readFrom (.bracket (.scalar '[' :: read)) rest
  | .name read, .scalar '\x7d' :: rest =>
    cons (.field ⟨read.reverse, none, [], false⟩) (readFrom .text rest)
  | .name read, .scalar ':' :: rest => readFrom (.format read.reverse none 1 false []) rest
  | .name read, .scalar '!' :: rest => readFrom (.conversion read.reverse) rest
  | .name read, point :: rest => readFrom (.name (point :: read)) rest
  | .bracket _, [] => flawed .fieldNotClosed
  | .bracket read, .scalar ']' :: rest => readFrom (.name (.scalar ']' :: read)) rest
  | .bracket read, point :: rest => readFrom (.bracket (point :: read)) rest
  | .conversion _, [] => flawed .conversionMissing
  | .conversion name, letter :: rest => readFrom (.converted name letter) rest
  | .converted _ _, [] => flawed .formatNotClosed
  | .converted name letter, .scalar '\x7d' :: rest =>
    cons (.field ⟨name, some letter, [], false⟩) (readFrom .text rest)
  | .converted name letter, .scalar ':' :: rest =>
    readFrom (.format name (some letter) 1 false []) rest
  | .converted _ _, _ :: _ => flawed .conversionNotEnded
  | .format _ _ _ _ _, [] => flawed .formatNotClosed
  | .format name conversion depth _ read, .scalar '\x7b' :: rest =>
    readFrom (.format name conversion (depth + 1) true (.scalar '\x7b' :: read)) rest
  | .format name conversion depth nested read, .scalar '\x7d' :: rest =>
    if depth ≤ 1 then
      cons (.field ⟨name, conversion, read.reverse, nested⟩) (readFrom .text rest)
    else readFrom (.format name conversion (depth - 1) nested (.scalar '\x7d' :: read)) rest
  | .format name conversion depth nested read, point :: rest =>
    readFrom (.format name conversion depth nested (point :: read)) rest

/-- The markup of a template. -/
def read (template : Text) : Markup := readFrom .text template

end Markup

/-! ### Names -/

/-- The number that a name spells, when it is a row of decimal digits. Digits past the limit are a
flaw whatever follows them. -/
def index? (name : Text) : Except Fault (Option Nat) :=
  let digits := name.takeWhile Format.isDigit
  if Format.countLimit ≤ Format.spelled digits then .error .countTooLarge
  else if digits.length = name.length ∧ name ≠ [] then .ok (some (Format.spelled digits))
  else .ok none

/-- Whether a code point ends the head of a name or an attribute. -/
def endsName (point : CodePoint) : Bool := point = .scalar '.' || point = .scalar '['

/-- The head of a field's name. -/
def Field.head (field : Field) : Text := field.name.takeWhile (!endsName ·)

/-- What follows the head of a field's name. -/
def Field.tail (field : Field) : Text := field.name.dropWhile (!endsName ·)

/-- A step from a value to a part of it. -/
inductive Step where
  | attribute (name : Text)
  | item (name : Text)
  | position (index : Nat)
  deriving DecidableEq, Repr

/-- The steps of a name up to the first flaw. -/
structure Path where
  steps : List Step
  flaw : Option Fault
  deriving DecidableEq, Repr

/-- Where the reading of a path stands. -/
inductive PathPlace where
  | between
  | attribute (read : Text)
  | item (read : Text)

namespace Path

/-- A path with one more step in front. -/
def cons (step : Step) (path : Path) : Path := ⟨step :: path.steps, path.flaw⟩

/-- A path with an attribute in front; an empty name is a flaw. -/
def consAttribute (name : Text) (path : Path) : Path :=
  if name.isEmpty then ⟨[], some .emptyName⟩ else cons (.attribute name) path

/-- A path with an item in front: a position when its name spells a number. -/
def consItem (name : Text) (path : Path) : Path :=
  match index? name with
  | .error fault => ⟨[], some fault⟩
  | .ok (some index) => cons (.position index) path
  | .ok none => if name.isEmpty then ⟨[], some .emptyName⟩ else cons (.item name) path

/-- The path that the rest of a name spells, from a place on. -/
def readFrom : PathPlace → Text → Path
  | .between, [] => ⟨[], none⟩
  | .between, .scalar '.' :: rest => readFrom (.attribute []) rest
  | .between, .scalar '[' :: rest => readFrom (.item []) rest
  | .between, _ :: _ => ⟨[], some .strayAfterBracket⟩
  | .attribute read, [] => consAttribute read.reverse ⟨[], none⟩
  | .attribute read, .scalar '.' :: rest =>
    consAttribute read.reverse (readFrom (.attribute []) rest)
  | .attribute read, .scalar '[' :: rest => consAttribute read.reverse (readFrom (.item []) rest)
  | .attribute read, point :: rest => readFrom (.attribute (point :: read)) rest
  | .item _, [] => ⟨[], some .bracketNotClosed⟩
  | .item read, .scalar ']' :: rest => consItem read.reverse (readFrom .between rest)
  | .item read, point :: rest => readFrom (.item (point :: read)) rest

/-- The path that stands behind the head of a name. -/
def read (tail : Text) : Path := readFrom .between tail

end Path

end Splice.Template
