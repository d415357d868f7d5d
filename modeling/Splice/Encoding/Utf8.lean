/-
**UTF-8.**

A character takes one to four octets, and the first octet says how many. The second octet of some
characters has a narrower range than the others, which keeps out overlong forms, surrogates and
numbers past `0x10FFFF`.

* `Utf8.decode`: the characters of a row of octets, or where and why it is not UTF-8;
* `Utf8.encodeChar`, `Utf8.width`: the octets of one character, and their number;
* `Utf8.beginning`, `Utf8.ending`, `Utf8.cut`: parts of a text that have so many octets;
* `Utf8.legible`: the characters of a text, whatever is none being replaced;
* `Utf8.Fault.message`: the text of a fault.
-/

import Splice.Text

namespace Splice

/-- A row of octets. -/
abbrev Bytes := List UInt8

namespace Utf8

/-- Why octets are not UTF-8. -/
inductive Flaw where
  | start
  | continuation
  | truncated
  deriving DecidableEq, Repr

/-- A flaw, the octet where its character begins, and the range of octets it covers. -/
structure Fault where
  flaw : Flaw
  lead : UInt8
  first : Nat
  count : Nat
  deriving DecidableEq, Repr

/-- The least second octet behind a first one. -/
def leastSecond (lead : Nat) : Nat :=
  if lead = 0xE0 then 0xA0 else if lead = 0xF0 then 0x90 else 0x80

/-- The greatest second octet behind a first one. -/
def greatestSecond (lead : Nat) : Nat :=
  if lead = 0xED then 0x9F else if lead = 0xF4 then 0x8F else 0xBF

/-- Whether an octet may stand second behind a first one. -/
def isSecond (lead octet : Nat) : Bool := leastSecond lead ≤ octet && octet ≤ greatestSecond lead

/-- Whether an octet continues a character. -/
def isContinuation (octet : Nat) : Bool := 0x80 ≤ octet && octet ≤ 0xBF

/-- The characters of octets, the first of which has the given offset. -/
def decodeFrom (offset : Nat) : Bytes → Except Fault (List Char)
  | [] => .ok []
  | lead :: rest =>
    let a := lead.toNat
    if a < 0x80 then (decodeFrom (offset + 1) rest).map (Char.ofNat a :: ·)
    else if a < 0xC2 then .error ⟨.start, lead, offset, 1⟩
    else if a < 0xE0 then
      match rest with
      | [] => .error ⟨.truncated, lead, offset, 1⟩
      | second :: rest =>
        let b := second.toNat
        if isSecond a b then
          (decodeFrom (offset + 2) rest).map (Char.ofNat ((a - 0xC0) * 64 + (b - 0x80)) :: ·)
        else .error ⟨.continuation, lead, offset, 1⟩
    else if a < 0xF0 then
      match rest with
      | [] => .error ⟨.truncated, lead, offset, 1⟩
      | [second] =>
        if isSecond a second.toNat then .error ⟨.truncated, lead, offset, 2⟩
        else .error ⟨.continuation, lead, offset, 1⟩
      | second :: third :: rest =>
        let b := second.toNat
        let c := third.toNat
        if !isSecond a b then .error ⟨.continuation, lead, offset, 1⟩
        else if !isContinuation c then .error ⟨.continuation, lead, offset, 2⟩
        else
          (decodeFrom (offset + 3) rest).map
            (Char.ofNat (((a - 0xE0) * 64 + (b - 0x80)) * 64 + (c - 0x80)) :: ·)
    else if a < 0xF5 then
      match rest with
      | [] => .error ⟨.truncated, lead, offset, 1⟩
      | [second] =>
        if isSecond a second.toNat then .error ⟨.truncated, lead, offset, 2⟩
        else .error ⟨.continuation, lead, offset, 1⟩
      | [second, third] =>
        if !isSecond a second.toNat then .error ⟨.continuation, lead, offset, 1⟩
        else if isContinuation third.toNat then .error ⟨.truncated, lead, offset, 3⟩
        else .error ⟨.continuation, lead, offset, 2⟩
      | second :: third :: fourth :: rest =>
        let b := second.toNat
        let c := third.toNat
        let d := fourth.toNat
        if !isSecond a b then .error ⟨.continuation, lead, offset, 1⟩
        else if !isContinuation c then .error ⟨.continuation, lead, offset, 2⟩
        else if !isContinuation d then .error ⟨.continuation, lead, offset, 3⟩
        else
          (decodeFrom (offset + 4) rest).map
            (Char.ofNat ((((a - 0xF0) * 64 + (b - 0x80)) * 64 + (c - 0x80)) * 64 + (d - 0x80)) :: ·)
    else .error ⟨.start, lead, offset, 1⟩

/-- The characters of a row of octets. -/
def decode (octets : Bytes) : Except Fault (List Char) := decodeFrom 0 octets

/-- The octets of one character. -/
def encodeChar (char : Char) : Bytes :=
  let number := char.toNat
  if number < 0x80 then [.ofNat number]
  else if number < 0x800 then [.ofNat (0xC0 + number / 64), .ofNat (0x80 + number % 64)]
  else if number < 0x10000 then
    [.ofNat (0xE0 + number / 4096), .ofNat (0x80 + number / 64 % 64), .ofNat (0x80 + number % 64)]
  else
    [.ofNat (0xF0 + number / 262144), .ofNat (0x80 + number / 4096 % 64),
      .ofNat (0x80 + number / 64 % 64), .ofNat (0x80 + number % 64)]

/-- The number of octets that a code point takes; a surrogate would take three. -/
def width : CodePoint → Nat
  | .scalar char => (encodeChar char).length
  | .surrogate _ => 3

/-- The number of octets that a text takes. -/
def size (text : Text) : Nat := text.foldr (fun point total => width point + total) 0

/-- The characters of a text. The octets that a surrogate would take are no characters, and each of
them is replaced. -/
def legible (text : Text) : List Char :=
  text.flatMap fun
    | .scalar char => [char]
    | .surrogate index => List.replicate (width (.surrogate index)) '\uFFFD'

/-- The longest beginning of a text that takes at most so many octets. -/
def beginning (limit : Nat) : Text → Text
  | [] => []
  | point :: rest =>
    if width point ≤ limit then point :: beginning (limit - width point) rest else []

/-- The longest end of a text that takes at most so many octets. -/
def ending (limit : Nat) (text : Text) : Text := (beginning limit text.reverse).reverse

/-- The text of the first octets of a text, so many at most. A character that is cut through is
replaced. -/
def cut (limit : Nat) (text : Text) : Text :=
  let whole := beginning limit text
  if whole = text ∨ size whole = limit then whole else whole ++ [.scalar '\uFFFD']

/-- The words of a flaw. -/
def Flaw.words : Flaw → String
  | .start => "invalid start byte"
  | .continuation => "invalid continuation byte"
  | .truncated => "unexpected end of data"

/-- The text of a fault. -/
def Fault.message (fault : Fault) : Text :=
  let place : Text :=
    if fault.count = 1 then
      Text.concat ["byte 0x", Text.hex 2 fault.lead.toNat, " in position ",
        Text.digits 10 fault.first]
    else
      Text.concat ["bytes in position ", Text.digits 10 fault.first, "-",
        Text.digits 10 (fault.first + fault.count - 1)]
  Text.concat ["'utf-8' codec can't decode ", place, ": ", fault.flaw.words]

end Utf8

end Splice
