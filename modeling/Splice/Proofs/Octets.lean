/-
**Splicing in octets.**

Edits say in code points where they belong, while a file holds octets. Since UTF-8 writes every
character on its own, the octets of a text into which edits have been spliced are those of the text
with the octets of the edits spliced in, at the places that the offsets have among the octets; what
no edit replaces keeps the octets that it had.

* `Utf8.encode_decode`: octets that are UTF-8 are the octets of their characters;
* `Charset.place`: the number of octets in front of an offset;
* `spliceAllOctets`: octets with all edits spliced in, the last one first;
* `row_spliceAll`: the octets of a spliced text.
-/

import Mathlib
import Splice.Proofs.Charsets
import Splice.Proofs.Splicing

namespace Splice

/-! ### UTF-8 read and written -/

namespace Utf8

/-- A number that is no surrogate's is the number of its character. -/
theorem toNat_ofNat_of_valid (number : Nat)
    (valid : number < 0xD800 ∨ 0xDFFF < number ∧ number < 0x110000) :
    (Char.ofNat number).toNat = number := by
  rw [Char.toNat_ofNat, if_pos valid]

theorem isSecond_iff (lead octet : Nat) : isSecond lead octet = true ↔
    leastSecond lead ≤ octet ∧ octet ≤ greatestSecond lead := by
  simp [isSecond]

/-- The range of a second octet, which keeps out overlong forms, surrogates and too large numbers. -/
theorem second_range {lead octet : Nat} (second : isSecond lead octet = true) :
    0x80 ≤ octet ∧ octet ≤ 0xBF ∧ (lead = 0xE0 → 0xA0 ≤ octet) ∧ (lead = 0xED → octet ≤ 0x9F) ∧
      (lead = 0xF0 → 0x90 ≤ octet) ∧ (lead = 0xF4 → octet ≤ 0x8F) := by
  rw [isSecond_iff] at second
  unfold leastSecond greatestSecond at second
  split_ifs at second <;> omega

theorem continuation_range {octet : Nat} (continues : isContinuation octet = true) :
    0x80 ≤ octet ∧ octet ≤ 0xBF := by
  simpa [isContinuation] using continues

section Characters

variable {a b c d : UInt8}

theorem ofNat_eq {number : Nat} (same : number = a.toNat) : UInt8.ofNat number = a := by
  rw [same, UInt8.ofNat_toNat]

theorem encodeChar_one (small : a.toNat < 0x80) : encodeChar (Char.ofNat a.toNat) = [a] := by
  have number := toNat_ofNat_of_valid a.toNat (by omega)
  unfold encodeChar
  simp only [number]
  rw [if_pos small, UInt8.ofNat_toNat]

theorem encodeChar_two (low : 0xC2 ≤ a.toNat) (high : a.toNat < 0xE0)
    (second : isSecond a.toNat b.toNat = true) :
    encodeChar (Char.ofNat ((a.toNat - 0xC0) * 64 + (b.toNat - 0x80))) = [a, b] := by
  have range := second_range second
  have number := toNat_ofNat_of_valid ((a.toNat - 0xC0) * 64 + (b.toNat - 0x80)) (by omega)
  unfold encodeChar
  simp only [number]
  rw [if_neg (by omega), if_pos (by omega), ofNat_eq (a := a) (by omega), ofNat_eq (a := b) (by omega)]

theorem encodeChar_three (low : 0xE0 ≤ a.toNat) (high : a.toNat < 0xF0)
    (second : isSecond a.toNat b.toNat = true) (third : isContinuation c.toNat = true) :
    encodeChar (Char.ofNat (((a.toNat - 0xE0) * 64 + (b.toNat - 0x80)) * 64 + (c.toNat - 0x80))) =
      [a, b, c] := by
  have range := second_range second
  have range' := continuation_range third
  have number := toNat_ofNat_of_valid
    (((a.toNat - 0xE0) * 64 + (b.toNat - 0x80)) * 64 + (c.toNat - 0x80)) (by omega)
  unfold encodeChar
  simp only [number]
  rw [if_neg (by omega), if_neg (by omega), if_pos (by omega), ofNat_eq (a := a) (by omega),
    ofNat_eq (a := b) (by omega), ofNat_eq (a := c) (by omega)]

theorem encodeChar_four (low : 0xF0 ≤ a.toNat) (high : a.toNat < 0xF5)
    (second : isSecond a.toNat b.toNat = true) (third : isContinuation c.toNat = true)
    (fourth : isContinuation d.toNat = true) :
    encodeChar (Char.ofNat ((((a.toNat - 0xF0) * 64 + (b.toNat - 0x80)) * 64 +
      (c.toNat - 0x80)) * 64 + (d.toNat - 0x80))) = [a, b, c, d] := by
  have range := second_range second
  have range' := continuation_range third
  have range'' := continuation_range fourth
  have number := toNat_ofNat_of_valid ((((a.toNat - 0xF0) * 64 + (b.toNat - 0x80)) * 64 +
    (c.toNat - 0x80)) * 64 + (d.toNat - 0x80)) (by omega)
  unfold encodeChar
  simp only [number]
  rw [if_neg (by omega), if_neg (by omega), if_neg (by omega), ofNat_eq (a := a) (by omega),
    ofNat_eq (a := b) (by omega), ofNat_eq (a := c) (by omega), ofNat_eq (a := d) (by omega)]

end Characters

/-- One character in front of others that have been read. -/
theorem flatMap_encodeChar_of_map {rest : Except Fault (List Char)} {char : Char}
    {own octets : Bytes} {chars : List Char} (written : encodeChar char = own)
    (others : ∀ {chars}, rest = .ok chars → chars.flatMap encodeChar = octets)
    (decodes : rest.map (char :: ·) = .ok chars) : chars.flatMap encodeChar = own ++ octets := by
  cases rest with
  | error fault => cases decodes
  | ok behind =>
    obtain rfl := Except.ok.inj decodes
    rw [List.flatMap_cons, written, others rfl]

theorem encode_decodeFrom {offset : Nat} {octets : Bytes} {chars : List Char}
    (decodes : decodeFrom offset octets = .ok chars) : chars.flatMap encodeChar = octets := by
  -- the cases in which a character is read are those of one, two, three and four octets
  fun_induction decodeFrom offset octets generalizing chars with
  | case1 =>
    cases decodes
    rfl
  | case2 offset lead rest a small =>
    rename_i ih
    exact flatMap_encodeChar_of_map (encodeChar_one small) ih decodes
  | case5 offset lead a _ low high second rest b next =>
    rename_i ih
    exact flatMap_encodeChar_of_map (encodeChar_two (by omega) high next) ih decodes
  | case12 offset lead a _ _ low high second third rest b c next continues =>
    rename_i ih
    rw [Bool.not_eq_true', Bool.not_eq_false] at next continues
    exact flatMap_encodeChar_of_map (encodeChar_three (by omega) high next continues) ih decodes
  | case22 offset lead a _ _ _ low high second third fourth rest b c d next continues continues' =>
    rename_i ih
    rw [Bool.not_eq_true', Bool.not_eq_false] at next continues continues'
    exact flatMap_encodeChar_of_map (encodeChar_four (by omega) high next continues continues') ih
      decodes
  | _ => cases decodes

/-- **Octets that are UTF-8** are the octets of their characters. -/
theorem encode_decode {octets : Bytes} {chars : List Char} (decodes : decode octets = .ok chars) :
    Charset.utf8.row (Text.ofChars chars) = octets := by
  rw [← encode_decodeFrom decodes, Charset.row, Text.ofChars, List.flatMap_map]
  rfl

end Utf8

/-! ### Splicing -/

namespace Charset

/-- The number of octets in front of an offset of a text. -/
def place (charset : Charset) (text : Text) (offset : Int) : Nat :=
  (charset.row (text.slice 0 offset)).length

/-- Octets with others in the place of the range that an edit has in a text. -/
def spliceOctets (charset : Charset) (text : Text) (octets : Bytes) (edit : Edit)
    (inserted : Bytes) : Bytes :=
  octets.take (charset.place text edit.start) ++ inserted ++
    octets.drop (charset.place text edit.stop)

/-- The octets of a text with the octets of all edits spliced in, the last one first. -/
def spliceAllOctets (charset : Charset) (text : Text) (rendered : List (Edit × Text))
    (octets : Bytes) : Bytes :=
  rendered.foldr (fun (edit, inserted) octets =>
    charset.spliceOctets text octets edit (charset.row inserted)) octets

variable {charset : Charset} {text : Text} {rendered : List (Edit × Text)}

/-- Splicing changes only the octets behind the start of the edit. -/
theorem spliceOctets_row {edit : Edit} {inserted back : Text} (nonneg : 0 ≤ edit.start)
    (upright : edit.start ≤ edit.stop) (inside : edit.stop ≤ text.length) :
    charset.spliceOctets text (charset.row (text.slice 0 edit.stop ++ back)) edit
        (charset.row inserted) =
      charset.row (text.slice 0 edit.start ++ (inserted ++ back)) := by
  have front : charset.row (text.slice 0 edit.stop ++ back) =
      charset.row (text.slice 0 edit.start) ++
        charset.row (text.slice edit.start edit.stop ++ back) := by
    rw [← row_append, ← List.append_assoc,
      Text.slice_append_slice (Int.le_refl _) nonneg upright inside]
  have behind : (charset.row (text.slice 0 edit.stop ++ back)).drop
      (charset.place text edit.stop) = charset.row back := by
    rw [row_append, place, List.drop_left]
  rw [spliceOctets, behind, front, place, List.take_left, row_append, row_append, List.append_assoc]

/-- **The octets of a spliced text** are the octets of the text with the edits spliced in. -/
theorem row_spliceAll {offset : Int} (laid : Laid text.length offset (rendered.map Prod.fst))
    (nonneg : 0 ≤ offset) :
    charset.row (spliceAll text rendered) =
      charset.spliceAllOctets text rendered (charset.row text) := by
  induction rendered generalizing offset with
  | nil => rfl
  | cons pair rest ih =>
    obtain ⟨edit, inserted⟩ := pair
    obtain ⟨front, upright, others⟩ := laid_cons.mp laid
    have inside := others.le_size
    have rest_eq := ih others (by omega)
    rw [spliceAll_eq_weave others (by omega)] at rest_eq
    show charset.row (splice (spliceAll text rest) edit inserted) =
      charset.spliceOctets text (charset.spliceAllOctets text rest (charset.row text)) edit
        (charset.row inserted)
    rw [← rest_eq, spliceOctets_row (by omega) upright inside,
      spliceAll_eq_weave others (by omega), splice_slice_append (by omega) upright inside]

end Charset

end Splice
