/-
**Spelled integers.**

A strict spelling of an integer is a minus sign or none, and ASCII digits of which the first is no
needless zero. A loose spelling is tidied until it is strict: blanks around it, a plus sign, zeros
in front with the underscores among them, a fraction of zeros, and single underscores between digits
are dropped.

* `Spelling.strict`: the integer of a strict spelling, refused as soon as its digits are too many;
* `Spelling.tidied?`: the strict spelling for which a loose one stands;
* `Spelling.whole`: the integer that a text spells in either way;
* `Spelling.writable_of_whole`: it is short enough to be written.
-/

import Splice.Text.Digits

namespace Splice

namespace Spelling

/-- Why a text spells no integer. -/
inductive Fault where
  | unreadable
  | oversized
  deriving DecidableEq, Repr

/-- The digit zero. -/
def zero : CodePoint := .scalar '0'

/-- The sign of a negative integer. -/
def minus : CodePoint := .scalar '-'

/-- The mark between groups of digits. -/
def underscore : CodePoint := .scalar '_'

/-- Whether a code point is an ASCII digit. -/
def isDigit (point : CodePoint) : Bool := point.asciiDigit?.isSome

/-- The number that ASCII digits write. -/
def number (digits : Text) : Nat :=
  digits.foldl (fun number point => number * 10 + point.asciiDigit?.getD 0) 0

/-! ### Strict spellings -/

/-- The integer of a strict spelling. Too many digits are noticed before anything that may follow
them. -/
def strict (text : Text) : Except Fault Int :=
  let size := if text.head? = some minus then text.tail else text
  let digits := size.takeWhile isDigit
  let rest := size.dropWhile isDigit
  if digits.isEmpty then .error .unreadable
  else if digits.head? = some zero then if size = [zero] then .ok 0 else .error .unreadable
  else if digitLimit < digits.length then .error .oversized
  else if !rest.isEmpty then .error .unreadable
  else if size = text then .ok (number digits)
  else .ok (-(number digits))

/-! ### Loose spellings -/

/-- What follows a zero in front, more zeros and underscores left out. The last code point stays
when nothing follows, and the one in front of a point stays with it. -/
def behindZero? (before : CodePoint) : Text → Option Text
  | [] => some [before]
  | point :: rest =>
    if point = zero ∨ point = underscore then behindZero? point rest
    else if isDigit point ∨ point = minus then some (point :: rest)
    else if point = .scalar '.' then some (before :: point :: rest)
    else none

/-- A text without the zeros in front. It begins with a digit or with a minus sign. -/
def withoutZeros? : Text → Option Text
  | [] => none
  | point :: rest =>
    if point = zero then behindZero? point rest
    else if isDigit point ∨ point = minus then some (point :: rest)
    else none

/-- A text without the zeros in front of its digits, a minus sign kept and a plus sign dropped. -/
def withoutSign? : Text → Option Text
  | .scalar '-' :: rest => (withoutZeros? rest).map (minus :: ·)
  | .scalar '+' :: rest => if rest.head? = some minus then none else withoutZeros? rest
  | text => withoutZeros? text

/-- Whether a text is a point followed by zeros, one at least. -/
def isZeroFraction : Text → Bool
  | .scalar '.' :: zeros => !zeros.isEmpty && zeros.all (· = zero)
  | _ => false

/-- A text without its fraction, if that is a fraction of zeros. -/
def withoutFraction (text : Text) : Text :=
  if isZeroFraction (text.dropWhile (· ≠ .scalar '.')) then text.takeWhile (· ≠ .scalar '.')
  else text

/-- Whether underscores stand alone and neither in front nor at the end. -/
def isGrouped (text : Text) : Bool :=
  text.head? ≠ some underscore && text.getLast? ≠ some underscore &&
    (text.zip text.tail).all fun (point, next) => point ≠ underscore || next ≠ underscore

/-- A text without the underscores between its groups. -/
def ungrouped (text : Text) : Text :=
  if isGrouped text then text.filter (· ≠ underscore) else text

/-- The strict spelling for which a loose one stands, if it is one. -/
def tidied? (text : Text) : Option Text :=
  (withoutSign? text.trim).map fun text => ungrouped (withoutFraction text)

/-! ### Spellings -/

/-- The integer that a text spells, strictly or else loosely. A loose spelling with too many digits
is merely unreadable. -/
def whole (text : Text) : Except Fault Int :=
  match strict text with
  | .ok number => .ok number
  | .error .oversized => .error .oversized
  | .error .unreadable =>
    match (tidied? text).bind fun tidied => (strict tidied).toOption with
    | some number => .ok number
    | none => .error .unreadable

/-! ### How large spelled integers are -/

theorem writable_of_strict {text : Text} {spelled : Int} (read : strict text = .ok spelled) :
    writable spelled = true := by
  unfold strict at read
  dsimp only at read
  generalize (if text.head? = some minus then text.tail else text) = size at read
  split at read
  · cases read
  split at read
  · split at read
    · obtain rfl := Except.ok.inj read
      exact writable_of_lt (by decide : (0 : Int).natAbs < Nat.pow 10 1) (by decide)
    · cases read
  split at read
  · cases read
  rename_i many
  have short : writable (number (size.takeWhile isDigit)) = true :=
    writable_of_length_le rfl (Nat.not_lt.mp many)
  split at read
  · cases read
  split at read
  · obtain rfl := Except.ok.inj read
    exact short
  · obtain rfl := Except.ok.inj read
    exact (writable_neg _).trans short

/-- **A spelled integer** is short enough to be written. -/
theorem writable_of_whole {text : Text} {spelled : Int} (read : whole text = .ok spelled) :
    writable spelled = true := by
  unfold whole at read
  split at read
  · rename_i strictly
    exact writable_of_strict (strictly.trans read)
  · cases read
  · split at read
    · rename_i loosely
      obtain ⟨tidied, -, strictly⟩ := Option.bind_eq_some_iff.mp loosely
      obtain rfl := Except.ok.inj read
      cases plain : strict tidied with
      | error fault =>
        rw [plain] at strictly
        cases strictly
      | ok other =>
        rw [plain] at strictly
        obtain rfl := Option.some.inj strictly
        exact writable_of_strict plain
    · cases read

end Spelling

end Splice
