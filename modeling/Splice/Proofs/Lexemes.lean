/-
**Texts, integers and words in a document.**

What stands for a text, an integer or a word is read as that, whatever follows it; only behind an integer
the rest must not go on with it. A text is spelled in the usual way, except that a code point stands as
it is wherever it can: two surrogates side by side, escaped, would be read as one character.

* `Json.Reads`: a reading that goes through with a value and leaves a rest;
* `Json.spellText`, `Json.reads_text`: a text between quotation marks;
* `Json.EndsNumber`, `Json.reads_decimal`: an integer that is short enough to be written;
* `Json.reads_word`: a word.
-/

import Mathlib
import Splice.Json.Reader
import Splice.Json.Writer

namespace Splice

theorem CodePoint.ofNumber_number (point : CodePoint) : ofNumber point.number = point := by
  cases point with
  | scalar char =>
    have valid : char.toNat < 0xD800 ∨ 0xDFFF < char.toNat ∧ char.toNat < 0x110000 := char.valid
    have outside : ¬ (0xD800 ≤ char.toNat ∧ char.toNat < 0xE000) := by omega
    unfold ofNumber number
    rw [dif_neg outside, Char.ofNat_toNat]
  | surrogate index =>
    have inside : 0xD800 ≤ 0xD800 + index.val ∧ 0xD800 + index.val < 0xE000 := by omega
    unfold ofNumber number
    rw [dif_pos inside]
    simp

namespace Json

/-- The reading goes through with the value and leaves the rest. -/
def Reads {α : Type} {source : Text} (reading : Except Stop (Taken source α)) (value : α)
    (rest : Text) : Prop :=
  ∃ taken, reading = .ok taken ∧ taken.value = value ∧ taken.rest = rest

/-! ### Texts -/

/-- Whether a code point cannot stand in a text as it is. -/
def isEscaped (point : CodePoint) : Bool :=
  point = .scalar '"' || point = .scalar '\\' || point.number < 0x20

/-- The part of a text that stands for a code point. -/
def unitFor (point : CodePoint) : CodeUnit :=
  if isEscaped point then .escaped point.number else .plain point

/-- A code point inside a text: as it is, or else as an escape. -/
def spellPoint (point : CodePoint) : Text :=
  if isEscaped point then escape point.number else [point]

/-- A text between quotation marks. -/
def spellText (text : Text) : Text := .scalar '"' :: text.flatMap spellPoint ++ [.scalar '"']

theorem spellText_append (text rest : Text) :
    spellText text ++ rest = .scalar '"' :: (text.flatMap spellPoint ++ .scalar '"' :: rest) := by
  simp [spellText]

theorem number_lt_of_isEscaped {point : CodePoint} (escaped : isEscaped point = true) :
    point.number < 0x80 := by
  simp only [isEscaped, Bool.or_eq_true, decide_eq_true_eq] at escaped
  rcases escaped with (rfl | rfl) | control
  · decide
  · decide
  · omega

/-- An escape has four digits, which spell its unit. -/
theorem exists_escape {unit : Nat} (small : unit < 0x80) : ∃ a b c d,
    escape unit = [.scalar '\\', .scalar 'u', a, b, c, d] ∧ unitOf? a b c d = some unit := by
  let digit (unit place : Nat) : CodePoint := (escape unit).getD place default
  have each : ∀ unit : Fin 0x80,
      escape unit.val = [.scalar '\\', .scalar 'u', digit unit.val 2, digit unit.val 3,
        digit unit.val 4, digit unit.val 5] ∧
      unitOf? (digit unit.val 2) (digit unit.val 3) (digit unit.val 4) (digit unit.val 5) =
        some unit.val := by decide +kernel
  exact ⟨_, _, _, _, each ⟨unit, small⟩⟩

section Units

variable {opening : Nat} {source rest : Text} {units : List CodeUnit}

theorem reads_plain {point : CodePoint} (plain : isEscaped point = false)
    (reads : Reads (readUnits opening source) units rest) :
    Reads (readUnits opening (point :: source)) (.plain point :: units) rest := by
  obtain ⟨taken, read, rfl, rfl⟩ := reads
  simp only [isEscaped, Bool.or_eq_false_iff, decide_eq_false_iff_not] at plain
  obtain ⟨⟨quote, backslash⟩, control⟩ := plain
  rw [readUnits]
  · rw [if_neg control, read]
    exact ⟨_, rfl, rfl, rfl⟩
  -- the other rules begin with a quotation mark or a backslash
  · exact quote
  · exact fun _ _ _ _ _ _ same _ => backslash same
  · exact fun _ same _ => backslash same
  · exact fun _ _ same _ => backslash same
  · exact fun same _ => backslash same

theorem reads_escape {unit : Nat} (small : unit < 0x80) (more : source ≠ [])
    (reads : Reads (readUnits opening source) units rest) :
    Reads (readUnits opening (escape unit ++ source)) (.escaped unit :: units) rest := by
  obtain ⟨taken, read, rfl, rfl⟩ := reads
  obtain ⟨next, others, rfl⟩ := List.exists_cons_of_ne_nil more
  obtain ⟨a, b, c, d, spelled, digits⟩ := exists_escape small
  rw [spelled]
  show Reads (readUnits opening (.scalar '\\' :: .scalar 'u' :: a :: b :: c :: d :: next :: others)) _ _
  rw [readUnits]
  simp only [digits, read]
  exact ⟨_, rfl, rfl, rfl⟩

end Units

/-- **A text** is read unit by unit up to its closing quotation mark. -/
theorem reads_units (opening : Nat) (text rest : Text) :
    Reads (readUnits opening (text.flatMap spellPoint ++ .scalar '"' :: rest)) (text.map unitFor)
      rest := by
  induction text with
  | nil =>
    show Reads (readUnits opening (.scalar '"' :: rest)) [] rest
    rw [readUnits]
    exact ⟨_, rfl, rfl, rfl⟩
  | cons point others ih =>
    rw [List.flatMap_cons, List.append_assoc, List.map_cons, spellPoint, unitFor]
    cases escaped : isEscaped point with
    | false => exact reads_plain escaped ih
    | true => exact reads_escape (number_lt_of_isEscaped escaped) (by simp) ih

theorem joinUnits_escaped {unit : Nat} (low : unit < 0xD800) (units : List CodeUnit) :
    joinUnits (.escaped unit :: units) = .ofNumber unit :: joinUnits units := by
  have single {next : Nat} : ¬ (0xD800 ≤ unit ∧ unit < 0xDC00 ∧ 0xDC00 ≤ next ∧ next < 0xE000) := by
    omega
  cases units with
  | nil => rfl
  | cons next units =>
    cases next with
    | plain point => rfl
    | escaped next => rw [joinUnits, if_neg single]

/-- The units of a text make up the text: none of them is a surrogate, so no two are joined. -/
theorem joinUnits_map (text : Text) : joinUnits (text.map unitFor) = text := by
  induction text with
  | nil => rfl
  | cons point rest ih =>
    rw [List.map_cons, unitFor]
    cases escaped : isEscaped point with
    | false => exact congrArg (point :: ·) ih
    | true =>
      have low := number_lt_of_isEscaped escaped
      rw [if_pos rfl, joinUnits_escaped (by omega), ih, CodePoint.ofNumber_number]

theorem reads_text (text rest : Text) :
    Reads (readText (text.flatMap spellPoint ++ .scalar '"' :: rest)) text rest := by
  unfold readText
  obtain ⟨taken, read, units, left⟩ := reads_units _ text rest
  rw [read]
  exact ⟨_, rfl, (congrArg joinUnits units).trans (joinUnits_map text), left⟩

/-! ### Integers -/

theorem asciiDigit?_of_isDigit {char : Char} (digit : char.isDigit = true) :
    (CodePoint.scalar char).asciiDigit? = some (char.toNat - 48) := by
  have range : 48 ≤ char.toNat ∧ char.toNat ≤ 57 := by
    simpa [Char.isDigit, UInt32.le_iff_toNat_le] using digit
  show (if 48 ≤ char.toNat ∧ char.toNat ≤ 57 then some (char.toNat - 48) else none) = _
  rw [if_pos range]

/-- Digits are read back as their number. -/
theorem spelled_digits (number : Nat) : spelled (Text.digits 10 number) = number := by
  have each : ∀ char ∈ Nat.toDigits 10 number, char.isDigit = true :=
    fun char member => Nat.isDigit_of_mem_toDigits (by decide) (by decide) member
  have same : spelled (Text.digits 10 number) = Nat.ofDigitChars 10 (Nat.toDigits 10 number) 0 := by
    unfold spelled Text.digits Text.ofChars
    rw [List.foldl_map, Nat.ofDigitChars_eq_foldl]
    refine List.foldl_ext _ _ _ fun read char member => ?_
    rw [asciiDigit?_of_isDigit (each char member), Nat.mul_comm]
    rfl
  rw [same, Nat.ofDigitChars_ten_toDigits]

theorem isDigit_of_mem_digits {number : Nat} :
    ∀ point ∈ Text.digits 10 number, isDigit point = true := by
  intro point member
  obtain ⟨char, digit, rfl⟩ := List.mem_map.mp member
  unfold isDigit
  rw [asciiDigit?_of_isDigit (Nat.isDigit_of_mem_toDigits (by decide) (by decide) digit)]
  rfl

theorem digits_ne_nil {number : Nat} : Text.digits 10 number ≠ [] :=
  fun none => Nat.toDigits_ne_nil (List.map_eq_nil_iff.mp none)

/-- A positive number does not begin with a zero. -/
theorem head_toDigits {number : Nat} (positive : 0 < number) :
    (Nat.toDigits 10 number).head? ≠ some '0' := by
  induction number using Nat.strongRecOn with
  | ind number ih =>
    by_cases small : number < 10
    · rw [Nat.toDigits_of_lt_base small]
      have each : ∀ digit : Fin 10, 0 < digit.val → [digit.val.digitChar].head? ≠ some '0' := by decide
      exact each ⟨number, small⟩ positive
    · have front := ih (number / 10) (by omega) (by omega)
      rw [Nat.toDigits_of_base_le (by decide) (by omega), List.head?_append_of_ne_nil]
      · exact front
      · exact Nat.toDigits_ne_nil

/-- A number ends where the rest begins: it goes on with no digit, fraction or exponent. -/
def EndsNumber (rest : Text) : Prop :=
  ∀ point, rest.head? = some point →
    isDigit point = false ∧ point ≠ .scalar '.' ∧ point ≠ .scalar 'e' ∧ point ≠ .scalar 'E'

theorem endsNumber_nil : EndsNumber [] := fun _ same => (Option.some_ne_none _ same.symm).elim

theorem endsNumber_cons {point : CodePoint} (others : Text)
    (other : isDigit point = false ∧ point ≠ .scalar '.' ∧ point ≠ .scalar 'e' ∧ point ≠ .scalar 'E') :
    EndsNumber (point :: others) :=
  fun _ same => Option.some.inj same ▸ other

section Numbers

variable {rest : Text}

theorem takeWhile_digits {digits : Text} (each : ∀ point ∈ digits, isDigit point = true)
    (ends : EndsNumber rest) :
    (digits ++ rest).takeWhile isDigit = digits ∧ (digits ++ rest).dropWhile isDigit = rest := by
  have front : rest.takeWhile isDigit = [] ∧ rest.dropWhile isDigit = rest := by
    cases rest with
    | nil => exact ⟨rfl, rfl⟩
    | cons point others =>
      have stops := (ends point rfl).1
      exact ⟨List.takeWhile_cons_of_neg (by simp [stops]), List.dropWhile_cons_of_neg (by simp [stops])⟩
  rw [List.takeWhile_append_of_pos each, List.dropWhile_append_of_pos each, front.1, front.2,
    List.append_nil]
  exact ⟨rfl, rfl⟩

theorem wholePart?_digits (number : Nat) (ends : EndsNumber rest) :
    wholePart? (Text.digits 10 number ++ rest) = some (Text.digits 10 number, rest) := by
  rcases Nat.eq_zero_or_pos number with rfl | positive
  · rfl
  · have each := @isDigit_of_mem_digits number
    have lead := head_toDigits positive
    unfold Text.digits Text.ofChars at each ⊢
    obtain ⟨first, others, digits⟩ := List.exists_cons_of_ne_nil (@Nat.toDigits_ne_nil number 10)
    rw [digits] at each lead ⊢
    rw [List.map_cons] at each ⊢
    obtain ⟨here, behind⟩ := List.forall_mem_cons.mp each
    obtain ⟨taken, dropped⟩ := takeWhile_digits behind ends
    have notZero : CodePoint.scalar first ≠ .scalar '0' := fun same => lead (by simpa using same)
    rw [List.cons_append, wholePart?, if_neg notZero, if_pos here, taken, dropped]

theorem fractionPart_of_ends (ends : EndsNumber rest) : fractionPart rest = ([], rest) := by
  unfold fractionPart
  split
  · exact ((ends _ rfl).2.1 rfl).elim
  · rfl

theorem powerPart?_of_ends (ends : EndsNumber rest) : powerPart? rest = none := by
  unfold powerPart?
  dsimp only
  split
  · exact ((ends _ rfl).2.2.1 rfl).elim
  · exact ((ends _ rfl).2.2.2 rfl).elim
  · rfl

/-- **An integer** is read as far as its digits go. -/
theorem numeral?_decimal (number : Int) (ends : EndsNumber rest) :
    numeral? (Text.decimal number ++ rest) =
      some (⟨decide (number < 0), Text.digits 10 number.natAbs, [], 0, false⟩, rest) := by
  have whole := wholePart?_digits number.natAbs ends
  unfold numeral? Text.decimal
  by_cases negative : number < 0
  · rw [if_pos negative]
    simp [whole, fractionPart_of_ends ends, powerPart?_of_ends ends, negative]
  · rw [if_neg negative]
    split
    rename_i sign unsigned parts
    split at parts
    · -- the first digit is no sign
      rename_i others front
      have lead : CodePoint.scalar '-' ∈ Text.digits 10 number.natAbs := by
        obtain ⟨first, digits, spelled⟩ := List.exists_cons_of_ne_nil (@digits_ne_nil number.natAbs)
        rw [spelled, List.cons_append] at front
        rw [spelled, (List.cons.inj front).1]
        exact List.mem_cons_self
      cases isDigit_of_mem_digits _ lead
    · obtain ⟨rfl, rfl⟩ := Prod.mk.inj parts
      simp [whole, fractionPart_of_ends ends, powerPart?_of_ends ends, negative]

end Numbers

/-- A number below a power of ten has as many digits as the exponent, at most. -/
theorem length_digits_le {number limit : Nat} (positive : 0 < limit)
    (small : number < Nat.pow 10 limit) : (Text.digits 10 number).length ≤ limit := by
  rw [Text.digits, Text.ofChars, List.length_map]
  exact (Nat.length_toDigits_le_iff (by decide) positive).mpr small

theorem value_decimal {number : Int} (short : writable number = true) :
    (⟨decide (number < 0), Text.digits 10 number.natAbs, [], 0, false⟩ : Numeral).value =
      .ok (.whole number) := by
  have limit : ¬ digitLimit < (Text.digits 10 number.natAbs).length :=
    Nat.not_lt.mpr (length_digits_le (by decide) (of_decide_eq_true short))
  unfold Numeral.value
  simp only [Bool.false_eq_true, if_false, if_neg limit, spelled_digits, decide_eq_true_eq]
  split
  · rw [Int.ofNat_natAbs_of_nonpos (by omega), Int.neg_neg]
  · rw [Int.natAbs_of_nonneg (by omega)]

/-- An integer begins with a digit, or with a sign and a digit. -/
theorem exists_decimal (number : Int) : ∃ point others, Text.decimal number = point :: others ∧
    (isDigit point = true ∨ point = .scalar '-' ∧ ∃ first digits, others = first :: digits ∧
      isDigit first = true) := by
  obtain ⟨first, digits, spelled⟩ := List.exists_cons_of_ne_nil (@digits_ne_nil number.natAbs)
  have digit : isDigit first = true := isDigit_of_mem_digits first (spelled ▸ List.mem_cons_self)
  unfold Text.decimal
  rw [spelled]
  split_ifs
  · exact ⟨_, _, rfl, .inr ⟨rfl, _, _, rfl, digit⟩⟩
  · exact ⟨_, _, rfl, .inl digit⟩

/-! ### Words -/

theorem ne_of_isDigit {point : CodePoint} (digit : isDigit point = true) (char : Char)
    (other : isDigit (.scalar char) = false) : point ≠ .scalar char := by
  rintro rfl
  exact Bool.false_ne_true (other.symm.trans digit)

/-- No word begins as an integer does. -/
theorem word?_decimal (number : Int) (rest : Text) : word? (Text.decimal number ++ rest) = none := by
  have other {point : CodePoint} (digit : isDigit point = true) (char : Char)
      (letter : isDigit (.scalar char) = false) : CodePoint.scalar char ≠ point :=
    (ne_of_isDigit digit char letter).symm
  obtain ⟨point, others, spelled, digit | ⟨rfl, first, digits, rfl, digit⟩⟩ := exists_decimal number
  · simp [spelled, word?, words, Text.startsWith, Text.ofString, other digit 'n' rfl,
      other digit 't' rfl, other digit 'f' rfl, other digit 'N' rfl, other digit 'I' rfl,
      other digit '-' rfl]
  · simp [spelled, word?, words, Text.startsWith, Text.ofString, other digit 'I' rfl]

theorem readValue_cons (levels : Nat) {point : CodePoint} (others : Text)
    (simple : point ≠ .scalar '"' ∧ point ≠ .scalar '[' ∧ point ≠ .scalar '\x7b') :
    readValue levels (point :: others) = readSimple (point :: others) := by
  rw [readValue]
  · exact fun _ same => simple.1 (List.cons.inj same).1
  · exact fun _ same => simple.2.1 (List.cons.inj same).1
  · exact fun _ same => simple.2.2 (List.cons.inj same).1

/-- **An integer** is read as itself. -/
theorem reads_decimal (levels : Nat) {number : Int} {rest : Text} (short : writable number = true)
    (ends : EndsNumber rest) :
    Reads (readValue levels (Text.decimal number ++ rest)) (.whole number) rest := by
  have read : readSimple (Text.decimal number ++ rest) =
      readValue levels (Text.decimal number ++ rest) := by
    obtain ⟨point, others, spelled, digit | ⟨rfl, -⟩⟩ := exists_decimal number
    · have other := ne_of_isDigit digit
      rw [spelled]
      exact (readValue_cons _ _ ⟨other '"' rfl, other '[' rfl, other '\x7b' rfl⟩).symm
    · rw [spelled]
      exact (readValue_cons _ _ (by decide)).symm
  have shorter : rest.length < (Text.decimal number ++ rest).length := by
    obtain ⟨point, others, spelled, -⟩ := exists_decimal number
    simp [spelled]
  rw [← read, readSimple]
  simp only [word?_decimal, numeral?_decimal number ends, value_decimal short, dif_pos shorter]
  exact ⟨_, rfl, rfl, rfl⟩

/-- **A word** is read as its value. -/
theorem reads_word (levels : Nat) {point : CodePoint} {letters rest : Text} {value : Value}
    (simple : point ≠ .scalar '"' ∧ point ≠ .scalar '[' ∧ point ≠ .scalar '\x7b')
    (found : word? (point :: letters ++ rest) = some (value, rest)) :
    Reads (readValue levels (point :: letters ++ rest)) value rest := by
  have shorter : rest.length < (point :: letters ++ rest).length := by simp
  rw [List.cons_append] at found shorter ⊢
  rw [readValue_cons _ _ simple, readSimple]
  simp only [found, dif_pos shorter]
  exact ⟨_, rfl, rfl, rfl⟩

end Json
end Splice
