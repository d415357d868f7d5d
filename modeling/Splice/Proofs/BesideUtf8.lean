/-
**Encodings beside UTF-8.**

Octets that are meant for one encoding may by chance be those of another. Pieces of a text in an
encoding, each with its byte-order mark, are the text in UTF-8 in few cases only: there are no pieces,
the text is empty and there are no marks, its characters are ASCII and the encoding has one octet for
each, or the encoding is UTF-8.

The encodings with two or four octets for a character need an argument, since these may be as many as
in UTF-8. There, octets of ASCII are never part of a longer character, while they abound in the wide
encodings; so octets of ASCII count against UTF-8 and others for it. By this weight, every single
character weighs more in a wide encoding than in UTF-8, and so does every text that is not empty.

* `Charset.weight`: how much octets speak against UTF-8;
* `Charset.isSingle`, `Charset.isWide`: encodings with one octet for a character, and with two or four;
* `Charset.PassesAsUtf8`: an encoding writes a text as UTF-8 does;
* `Charset.flatMap_marked_eq_row_iff`: pieces in an encoding beside the whole text in UTF-8.
-/

import Mathlib
import Splice.Proofs.Streamed

namespace Splice

namespace Charset

/-- The encodings that have one octet for each of their characters. -/
def isSingle : Charset → Bool
  | .ascii | .latin1 | .latin9 | .windows1252 => true
  | _ => false

/-- The encodings that have two or four octets for each character. -/
def isWide : Charset → Bool
  | .utf16 | .utf16Little | .utf16Big | .utf32 | .utf32Little | .utf32Big => true
  | _ => false

/-- An encoding writes a text as UTF-8 does. -/
def PassesAsUtf8 (charset : Charset) (text : Text) : Prop :=
  charset = .utf8 ∨ charset.mark = [] ∧ text = [] ∨ charset.isSingle = true ∧ ascii.Covers text

variable {charset : Charset} {text : Text} {texts : List Text} {point : CodePoint} {char : Char}

theorem kinds (charset : Charset) : charset = .utf8 ∨ charset = .utf8Marked ∨
    charset.isSingle = true ∨ charset.isWide = true := by
  cases charset <;> decide

theorem unmarked_of_single (single : charset.isSingle = true) : charset.mark = [] := by
  cases charset <;> first | rfl | cases single

/-- The mark of a wide encoding holds an octet that UTF-8 does not have. -/
theorem mark_of_wide (wide : charset.isWide = true) :
    charset.mark = [] ∨ (0xFF : UInt8) ∈ charset.mark := by
  cases charset with
  | utf16 | utf32 => exact Or.inr List.mem_cons_self
  | utf16Little | utf16Big | utf32Little | utf32Big => exact Or.inl rfl
  | utf8 | utf8Marked | ascii | latin1 | latin9 | windows1252 => cases wide

theorem PassesAsUtf8.unmarked (passes : charset.PassesAsUtf8 text) : charset.mark = [] := by
  rcases passes with rfl | ⟨unmarked, -⟩ | ⟨single, -⟩
  · rfl
  · exact unmarked
  · exact unmarked_of_single single

theorem row_cons (charset : Charset) (point : CodePoint) (rest : Text) :
    charset.row (point :: rest) = (charset.octets? point).getD [] ++ charset.row rest :=
  List.flatMap_cons

/-- Only characters have octets. -/
theorem exists_char_of_octets (written : (charset.octets? point).isSome = true) :
    ∃ char, point = .scalar char := by
  cases point with
  | surrogate index => cases written
  | scalar char => exact ⟨char, rfl⟩

/-- A text that any encoding has octets for has octets in UTF-8. -/
theorem Covers.utf8 (covered : charset.Covers text) : Charset.utf8.Covers text := by
  intro point member
  obtain ⟨char, rfl⟩ := exists_char_of_octets (covered point member)
  rfl

theorem toNat_lt (char : Char) : char.toNat < 0x110000 := by
  rcases char.valid with low | ⟨-, high⟩
  · exact Nat.lt_trans low (by decide)
  · exact high

/-! ### Wide encodings -/

/-- How much an octet speaks against UTF-8. The octets that begin a character of two octets speak
neither for nor against it. -/
def weigh (octet : Nat) : Int :=
  if octet < 0x80 then 1 else if 0xC0 ≤ octet ∧ octet < 0xE0 then 0 else -1

/-- How much octets speak against UTF-8. -/
def weight (octets : Bytes) : Int := (octets.map fun octet => weigh octet.toNat).sum

theorem weight_append (first second : Bytes) :
    weight (first ++ second) = weight first + weight second := by
  rw [weight, List.map_append, List.sum_append, weight, weight]

theorem weigh_ge (octet : Nat) : -1 ≤ weigh octet := by
  unfold weigh
  split_ifs <;> omega

theorem weigh_of_lt {octet : Nat} (small : octet < 0x80) : weigh octet = 1 := if_pos small

theorem weigh_of_surrogate {number : Nat} (high : 0xD800 ≤ number) (low : number < 0xE000) :
    weigh (number / 256) = 0 := by
  unfold weigh
  rw [if_neg (by omega), if_pos (by omega)]

theorem weight_pair (bigEndian : Bool) {number : Nat} (small : number < 0x10000) :
    weight (pair bigEndian number) = weigh (number / 256) + weigh (number % 256) := by
  have high : number / 256 % 256 = number / 256 := Nat.mod_eq_of_lt (by omega)
  cases bigEndian with
  | false => simp [weight, pair, high, Int.add_comm]
  | true => simp [weight, pair, high]

theorem weight_encodeChar (char : Char) : weight (Utf8.encodeChar char) =
    if char.toNat < 0x80 then 1 else if char.toNat < 0x800 then -1
    else if char.toNat < 0x10000 then -3 else -4 := by
  have valid := toNat_lt char
  unfold Utf8.encodeChar weight
  dsimp only
  split_ifs with tiny
  · have whole : char.toNat % 256 = char.toNat := by omega
    simp [weigh, whole, tiny]
  · simp [weigh]
    grind
  · simp [weigh]
    grind
  · simp [weigh]
    grind

/-- A character weighs more in UTF-16 than in UTF-8. -/
theorem weight_encodeChar_lt_octets16 (bigEndian : Bool) (char : Char) :
    weight (Utf8.encodeChar char) < weight (octets16 bigEndian char) := by
  have valid := toNat_lt char
  rw [weight_encodeChar]
  unfold octets16
  by_cases plane : char.toNat < 0x10000
  · rw [if_pos plane, if_pos plane, weight_pair bigEndian plane]
    unfold weigh
    split_ifs <;> omega
  · -- of the four octets two begin surrogates
    have second := weigh_ge ((0xD800 + (char.toNat - 0x10000) / 0x400) % 256)
    have fourth := weigh_ge ((0xDC00 + (char.toNat - 0x10000) % 0x400) % 256)
    rw [if_neg plane, if_neg (by omega), if_neg (by omega), if_neg plane, weight_append,
      weight_pair bigEndian (by omega), weight_pair bigEndian (by omega),
      weigh_of_surrogate (by omega) (by omega), weigh_of_surrogate (by omega) (by omega)]
    omega

/-- A character weighs more in UTF-32 than in UTF-8. -/
theorem weight_encodeChar_lt_octets32 (bigEndian : Bool) (char : Char) :
    weight (Utf8.encodeChar char) < weight (octets32 bigEndian char) := by
  have valid := toNat_lt char
  have whole : weight (octets32 bigEndian char) =
      weigh (char.toNat / 0x10000 / 256) + weigh (char.toNat / 0x10000 % 256) +
        (weigh (char.toNat % 0x10000 / 256) + weigh (char.toNat % 0x10000 % 256)) := by
    unfold octets32
    dsimp only
    split_ifs
    · rw [weight_append, weight_pair true (by omega), weight_pair true (by omega)]
    · rw [weight_append, weight_pair false (by omega), weight_pair false (by omega), Int.add_comm]
  rw [whole, weight_encodeChar, weigh_of_lt (by omega), weigh_of_lt (by omega)]
  unfold weigh
  split_ifs <;> omega

theorem weight_lt_of_wide (wide : charset.isWide = true) (char : Char) :
    weight (Utf8.encodeChar char) < weight ((charset.octets? (.scalar char)).getD []) := by
  cases charset with
  | utf8 | utf8Marked | ascii | latin1 | latin9 | windows1252 => cases wide
  | utf16 | utf16Little => exact weight_encodeChar_lt_octets16 false char
  | utf16Big => exact weight_encodeChar_lt_octets16 true char
  | utf32 | utf32Little => exact weight_encodeChar_lt_octets32 false char
  | utf32Big => exact weight_encodeChar_lt_octets32 true char

/-- **A text in a wide encoding** weighs more than in UTF-8, by one or more for each character. -/
theorem weight_row_of_wide (wide : charset.isWide = true) (covered : charset.Covers text) :
    weight (utf8.row text) + text.length ≤ weight (charset.row text) := by
  induction text with
  | nil => exact Int.le_refl _
  | cons point rest ih =>
    obtain ⟨here, others⟩ := List.forall_mem_cons.mp covered
    obtain ⟨char, rfl⟩ := exists_char_of_octets here
    have own : weight ((utf8.octets? (.scalar char)).getD []) <
        weight ((charset.octets? (.scalar char)).getD []) := weight_lt_of_wide wide char
    have behind := ih others
    rw [row_cons, row_cons, weight_append, weight_append, List.length_cons]
    omega

theorem eq_nil_of_row_eq (wide : charset.isWide = true) (covered : charset.Covers text)
    (same : charset.row text = utf8.row text) : text = [] := by
  have weights := weight_row_of_wide wide covered
  rw [same] at weights
  exact List.eq_nil_of_length_eq_zero (by omega)

/-! ### Encodings with one octet for a character -/

theorem octets_of_single (single : charset.isSingle = true) (char : Char) :
    charset.octets? (.scalar char) = (charset.octet? char.toNat).map fun octet => [.ofNat octet] := by
  cases charset <;> first | rfl | cases single

/-- The octet of an ASCII character is its number. -/
theorem octet_of_single (single : charset.isSingle = true) {number : Nat} (small : number < 0x80) :
    charset.octet? number = some number := by
  cases charset with
  | ascii | windows1252 => simp [octet?, small]
  | latin1 =>
    simp [octet?]
    omega
  | latin9 =>
    simp [octet?, latin9Table]
    omega
  | utf8 | utf8Marked | utf16 | utf16Little | utf16Big | utf32 | utf32Little | utf32Big =>
    cases single

/-- **ASCII** is written as in UTF-8. -/
theorem row_of_ascii (single : charset.isSingle = true) (plain : ascii.Covers text) :
    charset.row text = utf8.row text := by
  refine List.flatMap_congr fun point member => ?_
  obtain ⟨char, rfl⟩ := exists_char_of_octets (plain point member)
  have small := isSome_ascii_iff.mp (plain _ member)
  rw [octets_of_single single, octet_of_single single small]
  simp [octets?, Utf8.encodeChar, small]

theorem length_row_of_single (single : charset.isSingle = true) (covered : charset.Covers text) :
    (charset.row text).length = text.length := by
  induction text with
  | nil => rfl
  | cons point rest ih =>
    obtain ⟨here, others⟩ := List.forall_mem_cons.mp covered
    obtain ⟨char, rfl⟩ := exists_char_of_octets here
    obtain ⟨octets, written⟩ := Option.isSome_iff_exists.mp here
    rw [octets_of_single single] at written
    obtain ⟨octet, found, rfl⟩ := Option.map_eq_some_iff.mp written
    rw [row_cons, octets_of_single single, found, List.length_append, ih others, List.length_cons,
      Nat.add_comm]
    rfl

/-- A text has no more characters than it has octets in UTF-8. -/
theorem length_le_length_row (covered : utf8.Covers text) :
    text.length ≤ (utf8.row text).length := by
  induction text with
  | nil => exact Nat.le_refl _
  | cons point rest ih =>
    obtain ⟨here, others⟩ := List.forall_mem_cons.mp covered
    obtain ⟨char, rfl⟩ := exists_char_of_octets here
    have own : 1 ≤ ((utf8.octets? (.scalar char)).getD []).length := by
      show 1 ≤ (Utf8.encodeChar char).length
      unfold Utf8.encodeChar
      dsimp only
      split_ifs <;> simp
    have behind := ih others
    rw [row_cons, List.length_append, List.length_cons]
    omega

theorem two_le_length_encodeChar (large : ¬ char.toNat < 0x80) :
    2 ≤ (Utf8.encodeChar char).length := by
  unfold Utf8.encodeChar
  rw [if_neg large]
  split_ifs <;> simp

/-- A text that has as many octets in UTF-8 as it has characters is ASCII. -/
theorem ascii_of_length_row (covered : utf8.Covers text)
    (sizes : (utf8.row text).length = text.length) : ascii.Covers text := by
  rcases ascii.covers_or_bare text with plain | ⟨front, point, back, rfl, -, bare⟩
  · exact plain
  · -- a character that is not ASCII has two octets or more, and no other one makes up for it
    obtain ⟨before, rest⟩ := List.forall_mem_append.mp covered
    obtain ⟨here, behind⟩ := List.forall_mem_cons.mp rest
    obtain ⟨char, rfl⟩ := exists_char_of_octets here
    have own : 2 ≤ ((utf8.octets? (.scalar char)).getD []).length := by
      refine two_le_length_encodeChar fun small => ?_
      have written := isSome_ascii_iff.mpr small
      rw [bare] at written
      cases written
    have fronts := length_le_length_row before
    have backs := length_le_length_row behind
    rw [row_append, row_cons, List.length_append, List.length_append, List.length_append,
      List.length_cons] at sizes
    omega

/-! ### Pieces and marks -/

theorem not_mem_row_utf8 (text : Text) : (0xFF : UInt8) ∉ utf8.row text := by
  intro member
  obtain ⟨point, -, inside⟩ := List.mem_flatMap.mp member
  cases point with
  | surrogate index => cases inside
  | scalar char =>
    have valid := toNat_lt char
    replace inside : (0xFF : UInt8) ∈ Utf8.encodeChar char := inside
    unfold Utf8.encodeChar at inside
    dsimp only at inside
    split_ifs at inside <;> simp [← UInt8.toNat_inj] at inside <;> omega

/-- **Pieces in an encoding beside the text in UTF-8.** -/
theorem flatMap_marked_eq_row_iff (covered : charset.Covers texts.flatten) :
    (texts.flatMap fun text => charset.mark ++ charset.row text) = utf8.row texts.flatten ↔
      texts = [] ∨ charset.PassesAsUtf8 texts.flatten := by
  constructor
  · intro same
    rcases charset.kinds with rfl | rfl | single | wide
    · exact Or.inr (Or.inl rfl)
    · -- the marks are too many octets
      have sizes := congrArg List.length same
      rw [length_flatMap_marked] at sizes
      have marks : texts.length * 3 = 0 := Nat.add_eq_right.mp sizes
      exact Or.inl (List.eq_nil_of_length_eq_zero (by omega))
    · rw [flatMap_row_of_unmarked (unmarked_of_single single)] at same
      have sizes := length_row_of_single single covered
      rw [same] at sizes
      exact Or.inr (Or.inr (Or.inr ⟨single, ascii_of_length_row covered.utf8 sizes⟩))
    · rcases mark_of_wide wide with unmarked | marked
      · rw [flatMap_row_of_unmarked unmarked] at same
        exact Or.inr (Or.inr (Or.inl ⟨unmarked, eq_nil_of_row_eq wide covered same⟩))
      · -- the first mark has an octet that is nowhere in UTF-8
        cases texts with
        | nil => exact Or.inl rfl
        | cons first rest =>
          refine (not_mem_row_utf8 (first :: rest).flatten ?_).elim
          rw [← same, List.flatMap_cons]
          exact List.mem_append_left _ (List.mem_append_left _ marked)
  · rintro (rfl | passes)
    · rfl
    · rw [flatMap_row_of_unmarked passes.unmarked]
      rcases passes with rfl | ⟨-, empty⟩ | ⟨single, plain⟩
      · rfl
      · rw [empty]
        rfl
      · exact row_of_ascii single plain

theorem marked_eq_row_iff (covered : charset.Covers text) :
    charset.mark ++ charset.row text = utf8.row text ↔ charset.PassesAsUtf8 text := by
  have single := @flatMap_marked_eq_row_iff charset [text] (by rwa [List.flatten_singleton])
  rw [List.flatMap_singleton, List.flatten_singleton] at single
  exact single.trans (or_iff_right (List.cons_ne_nil _ _))

end Charset

end Splice
