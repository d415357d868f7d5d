/-
**What a layout can fail with.**

A layout fails because the written format is malformed or does not suit its value, or because a number has
too many digits: these are reported as faults of their template. It also fails because something does not
fit: an integer that is no character's number or is too large for a double, a row of fill characters for
which there is no memory, or a part of a value that lies too deep to be displayed. That is not reported, and
neither is what an object says unless it is of a kind that is.

* `Template.Reported`: the fault is of a kind that is reported;
* `Binary64.ofInt_infinite_iff`: the integers that are too large for a double;
* `Format.fillUp_error_iff`: layouts that are filled to their width fail just for lack of memory;
* `Value.Undisplayed`, `Value.shown_undisplayed_iff`: the values of which a part cannot be displayed;
* `Template.Misfit`, `Template.formatted_misfit_iff`: the values that do not fit a written format, which are
  those whose layout fails with a fault that is not reported.
-/

import Mathlib
import Splice.Proofs.Outcomes
import Splice.Template.Layout

namespace Splice

/-! ### Integers and doubles -/

/-- A quotient below an even number is rounded up to it from halfway on. -/
theorem roundHalfEven_eq_iff {numerator denominator bound : Nat} (even : bound % 2 = 0)
    (below : numerator < denominator * bound) :
    roundHalfEven numerator denominator = bound ↔
      2 * (denominator * bound) ≤ 2 * numerator + denominator := by
  have positive : 0 < denominator := Nat.pos_of_mul_pos_right (Nat.zero_lt_of_lt below)
  have parts := Nat.div_add_mod numerator denominator
  have rest := Nat.mod_lt numerator positive
  have less : numerator / denominator < bound := Nat.div_lt_of_lt_mul below
  unfold roundHalfEven
  dsimp only
  generalize numerator / denominator = quotient at *
  generalize numerator % denominator = remainder at *
  rcases Nat.lt_or_ge (quotient + 1) bound with far | near
  · have room : denominator * (quotient + 2) ≤ denominator * bound := Nat.mul_le_mul_left _ far
    rw [Nat.mul_add] at room
    split <;> omega
  · -- the quotient is odd, so that a half goes up
    obtain rfl : bound = quotient + 1 := by omega
    rw [Nat.mul_succ]
    split <;> omega

namespace Binary64

/-- The number halfway between the largest double and the power of two behind it. -/
def ofIntLimit : Nat := 2 ^ 1024 - 2 ^ 970

theorem scaled_natCast (numerator denominator exponent : Nat) :
    scaled numerator denominator exponent = (numerator, denominator * 2 ^ exponent) := by
  unfold scaled
  rw [if_neg (by omega), Int.natAbs_natCast, Nat.pow_eq]

theorem scaled_neg (numerator denominator exponent : Nat) :
    scaled numerator denominator (-exponent) = (numerator * 2 ^ exponent, denominator) := by
  unfold scaled
  split
  · rw [Int.natAbs_neg, Int.natAbs_natCast, Nat.pow_eq]
  · obtain rfl : exponent = 0 := by omega
    simp

/-- The double nearest to an integer takes 53 bits of it, from the highest one on. -/
theorem exponentFor_one {size : Nat} (nonzero : size ≠ 0) :
    exponentFor size 1 = (size.log2 : Int) - 52 := by
  have lower := Nat.log2_self_le nonzero
  have one : (1 : Nat).log2 = 0 := rfl
  -- at the exponent tried first the quotient has 54 bits, so that it is always the next one
  have long : ¬ (scaled size 1 ((size.log2 : Int) - 53)).1 /
      (scaled size 1 ((size.log2 : Int) - 53)).2 < 2 ^ 53 := by
    rw [not_lt]
    rcases Nat.le_total size.log2 53 with short | long
    · obtain ⟨missing, parts⟩ := Nat.exists_eq_add_of_le short
      have exponent : (size.log2 : Int) - 53 = -(missing : Nat) := by omega
      rw [exponent, scaled_neg, Nat.div_one, parts, pow_add]
      exact Nat.mul_le_mul_right _ lower
    · obtain ⟨more, parts⟩ := Nat.exists_eq_add_of_le long
      have exponent : (size.log2 : Int) - 53 = (more : Nat) := by omega
      rw [exponent, scaled_natCast, Nat.one_mul, Nat.le_div_iff_mul_le (Nat.two_pow_pos _), ← pow_add,
        ← parts]
      exact lower
  unfold exponentFor
  simp only [one, Nat.cast_zero, Int.sub_zero, Nat.pow_eq, if_neg long]
  omega

theorem pow_le_ofIntLimit : 2 ^ 1023 ≤ ofIntLimit := by
  have half : (2 : Nat) ^ 1024 = 2 ^ 1023 + 2 ^ 1023 := by rw [pow_succ, Nat.mul_two]
  have small : (2 : Nat) ^ 970 ≤ 2 ^ 1023 := pow_le_pow_right₀ one_le_two (by decide)
  unfold ofIntLimit
  rw [half]
  exact Nat.le_sub_of_add_le (Nat.add_le_add_left small _)

/-- An integer with as many bits as the largest double is rounded past it from the limit on. -/
theorem roundHalfEven_eq_iff_ofIntLimit_le {size : Nat} (below : size < 2 ^ 1024) :
    roundHalfEven size (2 ^ 971) = 2 ^ 53 ↔ ofIntLimit ≤ size := by
  have wide : (2 : Nat) ^ 1024 = 2 ^ 971 * 2 ^ 53 := by rw [← pow_add]
  have half : (2 : Nat) ^ 971 = 2 * 2 ^ 970 := by rw [← pow_succ']
  rw [wide] at below
  rw [roundHalfEven_eq_iff (by decide) below, ← wide, half]
  unfold ofIntLimit
  generalize (2 : Nat) ^ 970 = low
  generalize (2 : Nat) ^ 1024 = high
  omega

/-- **Integers that are too large for a double** are those from the halfway point between the largest
double and the power of two behind it on. -/
theorem ofInt_infinite_iff (number : Int) :
    (∃ negative, ofInt number = .infinite negative) ↔ ofIntLimit ≤ number.natAbs := by
  unfold ofInt nearest
  generalize decide (number < 0) = sign
  generalize number.natAbs = size
  by_cases zero : size = 0
  · have small : size < ofIntLimit := by
      rw [zero]
      exact (Nat.two_pow_pos _).trans_le pow_le_ofIntLimit
    rw [if_pos zero]
    exact iff_of_false (nofun) small.not_ge
  · simp only [if_neg zero, exponentFor_one zero, Nat.pow_eq]
    rcases Nat.lt_trichotomy size.log2 1023 with short | exact | long
    · have below : size < 2 ^ 1023 := by rwa [← Nat.log2_lt zero]
      refine iff_of_false ?_ (below.trans_le pow_le_ofIntLimit).not_ge
      split <;> rw [if_neg (by omega)] <;> nofun
    · have exponent : (size.log2 : Int) - 52 = (971 : Nat) := by omega
      have below : size < 2 ^ 1024 := by rw [← Nat.log2_lt zero, exact]; decide
      rw [← roundHalfEven_eq_iff_ofIntLimit_le below, exponent, scaled_natCast, Nat.one_mul]
      dsimp only
      by_cases up : roundHalfEven size (2 ^ 971) = 2 ^ 53
      · rw [if_pos up]
        exact iff_of_true ⟨sign, if_pos (by decide)⟩ up
      · have top : ¬ (971 : Int) < (971 : Nat) := lt_irrefl _
        simp only [if_neg up, if_neg top]
        exact iff_of_false (nofun) up
    · have above : 2 ^ 1024 ≤ size := by rwa [← Nat.le_log2 zero]
      refine iff_of_true ⟨sign, ?_⟩ ((Nat.sub_le _ _).trans above)
      split <;> rw [if_pos (by omega)]

end Binary64

namespace Template

/-! ### Faults that are reported -/

theorem Kind.isListed_iff (kind : Kind) :
    kind.isListed = true ↔ kind ∈ [.key, .attribute, .index, .type, .value] := by
  cases kind <;> decide

/-- The fault is reported as a fault of its template. -/
abbrev Reported (fault : Fault) : Prop := fault.kind.isListed = true

/-! ### Written formats -/

namespace Format

theorem raises_readCount (source : Text) : Raises Reported (readCount source) := by
  unfold readCount
  dsimp only
  split
  · exact raises_ok _
  · split
    · exact raises_error rfl
    · exact raises_ok _

theorem raises_readSeparator (source : Text) : Raises Reported (readSeparator source) := by
  unfold readSeparator
  dsimp only
  split
  · exact raises_error rfl
  · split
    · split
      · exact raises_error rfl
      · exact raises_ok _
    · exact raises_ok _

theorem raises_readPrecision (source : Text) : Raises Reported (readPrecision source) := by
  unfold readPrecision
  dsimp only
  split
  · exact (raises_readCount _).bind fun _ _ => raises_guard rfl fun _ => raises_pure _
  · exact raises_ok _

theorem raises_read (type : String) (ownCode : Char) (ownAlign : Align) (source : Text) :
    Raises Reported (read type ownCode ownAlign source) := by
  unfold read
  dsimp only
  refine (raises_readCount _).bind fun _ _ => (raises_readSeparator _).bind fun _ _ =>
    (raises_readPrecision _).bind fun _ _ => ?_
  split
  rotate_left 2
  · exact raises_error rfl
  all_goals
    refine (raises_pure _).bind fun code _ => ?_
    split
    · exact raises_guard rfl fun _ => raises_pure _
    · exact raises_pure _

theorem read_nil : read "int" 'd' .right [] =
    .ok ⟨.scalar ' ', .right, none, false, false, none, none, none, .scalar 'd'⟩ := rfl

end Format

/-! ### Layouts of texts and doubles -/

namespace Format

theorem raises_text (format : Format) (content : Text) :
    Raises Reported (format.text content) := by
  unfold text
  dsimp only
  split
  · exact raises_error rfl
  · exact raises_error rfl
  · refine raises_guard rfl fun _ => raises_guard rfl fun _ => raises_guard rfl fun _ => ?_
    split
    · exact raises_pure _
    · exact raises_pure _

theorem raises_real (format : Format) (number : Binary64) :
    Raises Reported (format.real number) := by
  unfold real
  dsimp only
  exact raises_guard rfl fun _ => raises_pure _

/-! ### Layouts filled to their width -/

theorem length_raised (format : Format) (text : Text) :
    ((if format.code = .scalar 'X' then List.map upper else id) text).length = text.length := by
  split
  · exact List.length_map _
  · rfl

section Filling

variable [Limits] {format : Format} {parts : NumberParts}

theorem padded_eq (fill : CodePoint) (align : Align) (width : Nat) (content : Text) :
    (Limits.fits (width - content.length) = true ∧
        ∃ text, padded fill align width content = .ok text) ∨
      Limits.fits (width - content.length) = false ∧
        padded fill align width content = .error .pastMemory := by
  unfold padded
  dsimp only
  cases Limits.fits (width - content.length) with
  | true => exact Or.inl ⟨rfl, _, rfl⟩
  | false => exact Or.inr ⟨rfl, rfl⟩

/-- A number whose zeros fit is filled up by other characters, or by none. -/
theorem assemble_of_least (enough : Limits.fits (format.least parts) = true) :
    let size := format.bare parts + (format.groupedTo (format.least parts) parts).length
    (Limits.fits (format.width.getD 0 - size) = true ∧ ∃ text, format.assemble parts = .ok text) ∨
      Limits.fits (format.width.getD 0 - size) = false ∧
        format.assemble parts = .error .pastMemory := by
  intro size
  let raised : Text → Text := if format.code = .scalar 'X' then List.map upper else id
  let head := format.signText parts.negative ++ raised parts.lead
  let tail := raised (format.groupedTo (format.least parts) parts) ++ parts.rest
  have long : head.length + tail.length = size := by
    simp only [head, tail, size, raised, List.length_append, length_raised, bare]
    omega
  by_cases aligned : format.align = .inside
  · have filled : format.assemble parts =
        if Limits.fits (format.width.getD 0 - size) then
          .ok (head ++ List.replicate (format.width.getD 0 - size) format.fill ++ tail)
        else .error .pastMemory := by
      unfold assemble
      rw [if_pos enough, aligned, ← long]
    rw [filled]
    cases Limits.fits (format.width.getD 0 - size) with
    | true => exact Or.inl ⟨rfl, _, rfl⟩
    | false => exact Or.inr ⟨rfl, rfl⟩
  · have filled : format.assemble parts =
        padded format.fill format.align (format.width.getD 0) (head ++ tail) := by
      unfold assemble
      rw [if_pos enough]
      cases inside : format.align with
      | inside => exact (aligned inside).elim
      | left | right | center => rfl
    have whole := padded_eq format.fill format.align (format.width.getD 0) (head ++ tail)
    rw [List.length_append, long] at whole
    rw [filled]
    exact whole

/-- **A number is filled up** just when there is memory for the characters that fill it. -/
theorem assemble_eq (format : Format) (parts : NumberParts) :
    (Limits.fits (format.row (.number parts)) = true ∧ ∃ text, format.assemble parts = .ok text) ∨
      Limits.fits (format.row (.number parts)) = false ∧
        format.assemble parts = .error .pastMemory := by
  cases zeros : format.fillsZeros with
  | true =>
    have count : format.row (.number parts) = format.least parts := by
      simp only [row, zeros, if_true]
    rw [count]
    cases enough : Limits.fits (format.least parts) with
    | true =>
      -- what the zeros do not fill is no more than they fill
      have fewer : format.width.getD 0 -
          (format.bare parts + (format.groupedTo (format.least parts) parts).length) ≤
            format.least parts := by
        simp only [least, zeros, if_true]
        omega
      rcases assemble_of_least enough with ⟨-, made⟩ | ⟨full, -⟩
      · exact Or.inl ⟨rfl, made⟩
      · rw [Limits.fits_of_le fewer enough] at full
        cases full
    | false =>
      refine Or.inr ⟨rfl, ?_⟩
      unfold assemble
      simp only [enough]
      rfl
  | false =>
    have none : format.least parts = 0 := by simp only [least, zeros, Bool.false_eq_true, if_false]
    have counted := @assemble_of_least _ format parts (by rw [none]; exact Limits.fits_zero)
    rw [none] at counted
    simpa only [row, zeros, Bool.false_eq_true, if_false] using counted

/-- **Layouts filled to their width** fail just when there is no memory for what fills them. -/
theorem fillUp_error_iff {layout : Layout} {fault : Fault} :
    format.fillUp layout = .error fault ↔
      fault = .pastMemory ∧ Limits.fits (format.row layout) = false := by
  have outcome : (Limits.fits (format.row layout) = true ∧ ∃ text, format.fillUp layout = .ok text) ∨
      Limits.fits (format.row layout) = false ∧ format.fillUp layout = .error .pastMemory := by
    cases layout with
    | text content => exact padded_eq _ _ _ _
    | number parts => exact assemble_eq format parts
  rcases outcome with ⟨enough, text, made⟩ | ⟨full, failed⟩
  · rw [made, enough]
    exact ⟨nofun, fun both => Bool.noConfusion both.2⟩
  · rw [failed, full]
    exact ⟨fun same => ⟨(Except.error.inj same).symm, rfl⟩, fun both => both.1 ▸ rfl⟩

end Filling

end Format

/-! ### Layouts of integers -/

namespace Format

/-- The format lays an integer out as the character of that number. -/
structure IsCharacter (format : Format) : Prop where
  code : format.code = .scalar 'c'
  noPrecision : format.precision = none
  keepsZeroSign : format.dropZeroSign = false
  noSign : format.sign = none
  notAlternate : format.alternate = false

/-- **An integer that does not fit a format**: no character has its number, or it is too large for a
double. -/
inductive Misfits (format : Format) (number : Int) : Fault → Prop
  | character (plain : format.IsCharacter) (outside : number < 0 ∨ 0x110000 ≤ number)
      (short : -(2 ^ 63) ≤ number ∧ number < 2 ^ 63) : Misfits format number .notACharacter
  | machineWord (plain : format.IsCharacter) (long : number < -(2 ^ 63) ∨ 2 ^ 63 ≤ number) :
      Misfits format number .pastMachineWord
  | double (code : format.code ∈ realCodes) (large : Binary64.ofIntLimit ≤ number.natAbs) :
      Misfits format number .pastDoubles

theorem not_misfits_truth (format : Format) (flag : Bool) (fault : Fault) :
    ¬ format.Misfits (if flag then 1 else 0) fault := by
  have bounds : 0 ≤ (if flag then 1 else 0 : Int) ∧ (if flag then 1 else 0 : Int) ≤ 1 := by
    cases flag <;> decide
  rintro (⟨_, outside, _⟩ | ⟨_, long⟩ | ⟨_, large⟩)
  · omega
  · omega
  · have long : 2 ≤ Binary64.ofIntLimit := le_trans (by decide +kernel) Binary64.pow_le_ofIntLimit
    omega

theorem IsCharacter.whole_eq {format : Format} (plain : format.IsCharacter) (number : Int) :
    format.whole number =
      (character number).map fun point => .number ⟨false, [], [], [point]⟩ := by
  unfold whole
  simp [plain.code, plain.noPrecision, plain.keepsZeroSign, plain.noSign, plain.notAlternate]
  rfl

theorem character_of_long {number : Int} (long : number < -(2 ^ 63) ∨ 2 ^ 63 ≤ number) :
    character number = .error .pastMachineWord := if_pos long

theorem character_of_outside {number : Int} (outside : number < 0 ∨ 0x110000 ≤ number)
    (short : -(2 ^ 63) ≤ number ∧ number < 2 ^ 63) : character number = .error .notACharacter := by
  have notLong : ¬ (number < -(2 ^ 63) ∨ 2 ^ 63 ≤ number) := by omega
  exact (if_neg notLong).trans (if_pos outside)

theorem raises_character (format : Format) (plain : format.IsCharacter) (number : Int) :
    Raises (format.Misfits number) (character number) := by
  unfold character
  split
  · exact raises_error (.machineWord plain ‹_›)
  · split
    · rename_i notLong outside
      change ¬ (number < -(2 ^ 63) ∨ 2 ^ 63 ≤ number) at notLong
      exact raises_error (.character plain outside (by omega))
    · exact raises_ok _

theorem raises_whole (format : Format) (number : Int) :
    Raises (fun fault => Reported fault ∨ format.Misfits number fault) (format.whole number) := by
  unfold whole
  dsimp only
  refine raises_guard (.inl rfl) fun noPrecision => raises_guard (.inl rfl) fun keepsZeroSign => ?_
  split
  · rename_i code
    refine raises_guard (.inl rfl) fun noSign => raises_guard (.inl rfl) fun notAlternate => ?_
    have plain : format.IsCharacter := ⟨code, by simpa using noPrecision, by simpa using keepsZeroSign,
      by simpa using noSign, by simpa using notAlternate⟩
    refine ((raises_character format plain number).imp fun _ => .inr).bind fun _ _ => ?_
    exact raises_pure _
  · exact raises_guard (.inl rfl) fun _ => raises_pure _

end Format

theorem raises_laidOutWhole (type : String) (number : Int) (format : Format) :
    Raises (fun fault => Reported fault ∨ format.Misfits number fault)
      (laidOutWhole type number format) := by
  unfold laidOutWhole
  split
  · exact format.raises_whole number
  · split
    · rename_i code
      split
      · rename_i infinite
        have large := (Binary64.ofInt_infinite_iff number).mp ⟨_, infinite⟩
        exact raises_error (.inr (.double code large))
      · exact (format.raises_real _).imp fun _ => .inl
    · exact raises_error (.inl rfl)

theorem laidOutWhole_of_misfits {type : String} {number : Int} {format : Format} {fault : Fault}
    (misfits : format.Misfits number fault) : laidOutWhole type number format = .error fault := by
  unfold laidOutWhole
  cases misfits with
  | character plain outside short =>
    have code : format.code ∈ wholeCodes := by rw [plain.code]; decide
    rw [if_pos code, plain.whole_eq, Format.character_of_outside outside short]
    rfl
  | machineWord plain long =>
    have code : format.code ∈ wholeCodes := by rw [plain.code]; decide
    rw [if_pos code, plain.whole_eq, Format.character_of_long long]
    rfl
  | double code large =>
    have apart : ∀ code ∈ realCodes, code ∉ wholeCodes := by decide
    obtain ⟨negative, infinite⟩ := (Binary64.ofInt_infinite_iff number).mpr large
    rw [if_neg (apart _ code), if_pos code, infinite]

end Template

/-! ### Displayed values -/

namespace Value

open Template (Fault Reported)

variable [Objects]

/-- **A part of the value cannot be displayed**, for a reason that is not reported: behind parts that can be
there is one below the last level, or an object that refuses. -/
inductive Undisplayed : Nat → Value → Fault → Prop
  | depth (value : Value) : Undisplayed 0 value .tooDeep
  | object {levels key : Nat} {fault : Fault} (refuses : Objects.shown key = .error fault)
      (unreported : ¬ Reported fault) : Undisplayed (levels + 1) (.object key) fault
  | item {levels : Nat} {before after : List Value} {value : Value} {texts : List Text} {fault : Fault}
      (front : shownItems levels before = .ok texts) (inner : Undisplayed levels value fault) :
      Undisplayed (levels + 1) (.list (before ++ value :: after)) fault
  | field {levels : Nat} {before after : List (Text × Value)} {name : Text} {value : Value}
      {texts : List Text} {fault : Fault} (front : shownFields levels before = .ok texts)
      (inner : Undisplayed levels value fault) :
      Undisplayed (levels + 1) (.record (before ++ (name, value) :: after)) fault

section Parts

variable {levels : Nat} {fault : Fault}

theorem shownItems_cons (value : Value) (rest : List Value) :
    shownItems levels (value :: rest) =
      (shown levels value >>= fun item => shownItems levels rest >>= fun items => .ok (item :: items)) := by
  rw [shownItems]
  rfl

theorem shownFields_cons (name : Text) (value : Value) (rest : List (Text × Value)) :
    shownFields levels ((name, value) :: rest) =
      (shown levels value >>= fun item => shownFields levels rest >>= fun items =>
        .ok ((name.quoted ++ Text.ofString ": " ++ item) :: items)) := by
  rw [shownFields]
  rfl

/-- **Items fail** at the first of them that fails. -/
theorem shownItems_error_iff {values : List Value} :
    shownItems levels values = .error fault ↔
      ∃ before value after texts, values = before ++ value :: after ∧
        shownItems levels before = .ok texts ∧ shown levels value = .error fault := by
  induction values with
  | nil =>
    rw [shownItems]
    exact ⟨nofun, fun ⟨before, _, _, _, parts, _⟩ => by cases before <;> cases parts⟩
  | cons value rest ih =>
    rw [shownItems_cons, bind_error_iff]
    constructor
    · rintro (fails | ⟨text, displayed, later⟩)
      · exact ⟨[], value, rest, [], rfl, by rw [shownItems], fails⟩
      · rcases bind_error_iff.mp later with later | ⟨_, _, ⟨⟩⟩
        obtain ⟨before, next, after, texts, rfl, front, fails⟩ := ih.mp later
        refine ⟨value :: before, next, after, text :: texts, rfl, ?_, fails⟩
        rw [shownItems_cons, displayed, front]
        rfl
    · rintro ⟨before, next, after, texts, parts, front, fails⟩
      cases before with
      | nil =>
        obtain ⟨rfl, rfl⟩ := List.cons.inj parts
        exact .inl fails
      | cons head before =>
        obtain ⟨rfl, rfl⟩ := List.cons.inj parts
        rw [shownItems_cons] at front
        obtain ⟨text, here, behind⟩ := bind_ok_iff.mp front
        obtain ⟨others, front, -⟩ := bind_ok_iff.mp behind
        have later := ih.mpr ⟨before, next, after, others, rfl, front, fails⟩
        exact .inr ⟨text, here, bind_error_iff.mpr (.inl later)⟩

/-- **Fields fail** at the first of them that fails. -/
theorem shownFields_error_iff {fields : List (Text × Value)} :
    shownFields levels fields = .error fault ↔
      ∃ before name value after texts, fields = before ++ (name, value) :: after ∧
        shownFields levels before = .ok texts ∧ shown levels value = .error fault := by
  induction fields with
  | nil =>
    rw [shownFields]
    exact ⟨nofun, fun ⟨before, _, _, _, _, parts, _⟩ => by cases before <;> cases parts⟩
  | cons field rest ih =>
    obtain ⟨name, value⟩ := field
    rw [shownFields_cons, bind_error_iff]
    constructor
    · rintro (fails | ⟨text, displayed, later⟩)
      · exact ⟨[], name, value, rest, [], rfl, by rw [shownFields], fails⟩
      · rcases bind_error_iff.mp later with later | ⟨_, _, ⟨⟩⟩
        obtain ⟨before, other, next, after, texts, rfl, front, fails⟩ := ih.mp later
        refine ⟨(name, value) :: before, other, next, after,
          (name.quoted ++ Text.ofString ": " ++ text) :: texts, rfl, ?_, fails⟩
        rw [shownFields_cons, displayed, front]
        rfl
    · rintro ⟨before, other, next, after, texts, parts, front, fails⟩
      cases before with
      | nil =>
        obtain ⟨same, rfl⟩ := List.cons.inj parts
        obtain ⟨rfl, rfl⟩ := Prod.mk.inj same
        exact .inl fails
      | cons head before =>
        obtain ⟨rfl, rfl⟩ := List.cons.inj parts
        rw [shownFields_cons] at front
        obtain ⟨text, here, behind⟩ := bind_ok_iff.mp front
        obtain ⟨others, front, -⟩ := bind_ok_iff.mp behind
        have later := ih.mpr ⟨before, other, next, after, others, rfl, front, fails⟩
        exact .inr ⟨text, here, bind_error_iff.mpr (.inl later)⟩

theorem Undisplayed.shown_eq {value : Value} (undisplayed : Undisplayed levels value fault) :
    shown levels value = .error fault := by
  induction undisplayed with
  | depth value => rw [shown]
  | object refuses _ => rw [shown, refuses]
  | item front _ ih =>
    rw [shown, shownItems_error_iff.mpr ⟨_, _, _, _, rfl, front, ih⟩]
    rfl
  | field front _ ih =>
    rw [shown, shownFields_error_iff.mpr ⟨_, _, _, _, _, rfl, front, ih⟩]
    rfl

theorem Undisplayed.not_reported {value : Value} (undisplayed : Undisplayed levels value fault) :
    ¬ Reported fault := by
  induction undisplayed with
  | depth value => decide
  | object _ unreported => exact unreported
  | item _ _ ih => exact ih
  | field _ _ ih => exact ih

theorem undisplayed_of_fails {value : Value} (fails : shown levels value = .error fault)
    (unreported : ¬ Reported fault) : Undisplayed levels value fault := by
  induction levels generalizing value with
  | zero =>
    rw [shown] at fails
    cases fails
    exact .depth value
  | succ levels ih =>
    cases value with
    | nothing => rw [shown] at fails; cases fails
    | truth flag => cases flag <;> rw [shown] at fails <;> cases fails
    | whole number =>
      rw [shown] at fails
      split at fails
      · cases fails
      · cases fails
        exact absurd rfl unreported
    | real number => rw [shown] at fails; cases fails
    | text content => rw [shown] at fails; cases fails
    | object key =>
      rw [shown] at fails
      exact .object fails unreported
    | list values =>
      rw [shown] at fails
      obtain ⟨before, value, after, texts, rfl, front, inner⟩ :=
        shownItems_error_iff.mp (map_eq_error_iff.mp fails)
      exact .item front (ih inner)
    | record fields =>
      rw [shown] at fails
      obtain ⟨before, name, value, after, texts, rfl, front, inner⟩ :=
        shownFields_error_iff.mp (map_eq_error_iff.mp fails)
      exact .field front (ih inner)

/-- **Displays fail without a report** just where they come to a part that cannot be displayed. -/
theorem shown_undisplayed_iff {value : Value} : shown levels value = .error fault ∧ ¬ Reported fault ↔
    Undisplayed levels value fault :=
  ⟨fun ⟨fails, unreported⟩ => undisplayed_of_fails fails unreported,
    fun undisplayed => ⟨undisplayed.shown_eq, undisplayed.not_reported⟩⟩

end Parts

variable [Limits]

/-- **The value has no text**, for a reason that is not reported: it is an object that refuses, or no text and a
part of it cannot be displayed. -/
inductive Untold : Value → Fault → Prop
  | object {key : Nat} {fault : Fault} (refuses : Objects.asText key = .error fault)
      (unreported : ¬ Reported fault) : Untold (.object key) fault
  | display {value : Value} {fault : Fault} (proper : ∀ key, value ≠ .object key)
      (other : ∀ content, value ≠ .text content)
      (undisplayed : Undisplayed Limits.levels value fault) : Untold value fault

theorem asText_of_ne {value : Value} (proper : ∀ key, value ≠ .object key)
    (other : ∀ content, value ≠ .text content) : value.asText = shown Limits.levels value := by
  cases value with
  | text content => exact (other content rfl).elim
  | object key => exact (proper key rfl).elim
  | _ => rfl

theorem asText_untold_iff {value : Value} {fault : Fault} :
    value.asText = .error fault ∧ ¬ Reported fault ↔ Untold value fault := by
  constructor
  · rintro ⟨fails, unreported⟩
    by_cases isObject : ∃ key, value = .object key
    · obtain ⟨key, rfl⟩ := isObject
      exact .object fails unreported
    by_cases isText : ∃ content, value = .text content
    · obtain ⟨content, rfl⟩ := isText
      cases fails
    have proper : ∀ key, value ≠ .object key := fun key same => isObject ⟨key, same⟩
    have other : ∀ content, value ≠ .text content := fun content same => isText ⟨content, same⟩
    rw [asText_of_ne proper other] at fails
    exact .display proper other (undisplayed_of_fails fails unreported)
  · rintro (⟨refuses, unreported⟩ | ⟨proper, other, undisplayed⟩)
    · exact ⟨refuses, unreported⟩
    · rw [asText_of_ne proper other]
      exact ⟨undisplayed.shown_eq, undisplayed.not_reported⟩

end Value

namespace Template

/-! ### Layouts of all values -/

section Layouts

variable [Objects] [Limits] {value : Value} {written : Text} {fault : Fault}

/-- **A value that does not fit a written format**: a number that does not fit it; a value without a text, by
the empty format; a layout that there is no memory to fill to the width; or an object that refuses. -/
inductive Misfit : Value → Text → Fault → Prop
  | number {number : Int} {written : Text} {format : Format} {fault : Fault}
      (read : Format.read "int" 'd' .right written = .ok format) (misfits : format.Misfits number fault) :
      Misfit (.whole number) written fault
  | text {value : Value} {fault : Fault} (proper : ∀ key, value ≠ .object key)
      (untold : value.Untold fault) : Misfit value [] fault
  | row {value : Value} {written : Text} {format : Format} {layout : Layout} (given : written ≠ [])
      (laid : laidOut value written = .ok (format, layout))
      (full : Limits.fits (format.row layout) = false) : Misfit value written .pastMemory
  | object {key : Nat} {written : Text} {fault : Fault}
      (refuses : Objects.formatted key written = .error fault) (unreported : ¬ Reported fault) :
      Misfit (.object key) written fault

omit [Limits] in
theorem raises_laidOut (value : Value) (written : Text) :
    Raises (fun fault => Reported fault ∨ ∃ number format, value = .whole number ∧
      Format.read "int" 'd' .right written = .ok format ∧ format.Misfits number fault)
      (laidOut value written) := by
  unfold laidOut
  split
  · refine ((Format.raises_read _ _ _ _).imp fun _ => .inl).bind fun format read => ?_
    split
    · exact ((format.raises_text _).imp fun _ => .inl).bind fun _ _ => raises_pure _
    · exact raises_error (.inl rfl)
  · rename_i number
    refine ((Format.raises_read _ _ _ _).imp fun _ => .inl).bind fun format read => ?_
    refine ((raises_laidOutWhole "int" number format).imp fun fault => ?_).bind fun _ _ =>
      raises_pure _
    exact Or.imp_right fun misfits => ⟨number, format, rfl, read, misfits⟩
  · rename_i flag
    refine ((Format.raises_read _ _ _ _).imp fun _ => .inl).bind fun format read => ?_
    refine ((raises_laidOutWhole "bool" _ format).imp fun fault => ?_).bind fun _ _ => raises_pure _
    exact Or.imp_right fun misfits => absurd misfits (format.not_misfits_truth flag fault)
  · refine ((Format.raises_read _ _ _ _).imp fun _ => .inl).bind fun format read => ?_
    split
    · exact ((format.raises_real _).imp fun _ => .inl).bind fun _ _ => raises_pure _
    · exact raises_error (.inl rfl)
  · exact raises_error (.inl rfl)

/-- A value by a format that is not empty is laid out, and then filled to its width. -/
theorem formatted_of_ne (proper : ∀ key, value ≠ .object key) (given : written ≠ []) :
    formatted value written =
      (laidOut value written >>= fun (format, layout) => format.fillUp layout) := by
  have more : ¬ written.isEmpty := fun empty => given (List.isEmpty_iff.mp empty)
  unfold formatted
  split
  · exact (proper _ rfl).elim
  · rw [if_neg more]

theorem formatted_nil (proper : ∀ key, value ≠ .object key) : formatted value [] = value.asText := by
  unfold formatted
  split
  · exact (proper _ rfl).elim
  · rfl

omit [Objects] [Limits] in
theorem ne_nil_of_misfits {format : Format} {number : Int}
    (read : Format.read "int" 'd' .right written = .ok format) (misfits : format.Misfits number fault) :
    written ≠ [] := by
  rintro rfl
  rw [Format.read_nil] at read
  cases read
  cases misfits with
  | character plain => exact absurd plain.code (by decide)
  | machineWord plain => exact absurd plain.code (by decide)
  | double code => exact absurd code (by decide)

theorem Misfit.not_reported (misfit : Misfit value written fault) : ¬ Reported fault := by
  cases misfit with
  | number read misfits => cases misfits <;> decide
  | text proper untold => exact (Value.asText_untold_iff.mpr untold).2
  | row given laid full => decide
  | object refuses unreported => exact unreported

theorem Misfit.formatted_eq (misfit : Misfit value written fault) :
    formatted value written = .error fault := by
  cases misfit with
  | number read misfits =>
    rename_i number format
    have proper : ∀ key, Value.whole number ≠ .object key := nofun
    rw [formatted_of_ne proper (ne_nil_of_misfits read misfits)]
    refine bind_error_iff.mpr (.inl ?_)
    refine bind_error_iff.mpr (.inr ⟨format, read, ?_⟩)
    exact bind_error_iff.mpr (.inl (laidOutWhole_of_misfits misfits))
  | text proper untold =>
    rw [formatted_nil proper]
    exact (Value.asText_untold_iff.mpr untold).1
  | row given laid full =>
    have proper : ∀ key, value ≠ .object key := by
      rintro key rfl
      cases laid
    rw [formatted_of_ne proper given, laid]
    exact Format.fillUp_error_iff.mpr ⟨rfl, full⟩
  | object refuses unreported => exact refuses

/-- **Layouts fail without a report** just when a value does not fit its format. -/
theorem formatted_misfit_iff :
    formatted value written = .error fault ∧ ¬ Reported fault ↔ Misfit value written fault := by
  refine ⟨fun ⟨failed, unreported⟩ => ?_, fun misfit => ⟨misfit.formatted_eq, misfit.not_reported⟩⟩
  by_cases isObject : ∃ key, value = .object key
  · obtain ⟨key, rfl⟩ := isObject
    exact .object failed unreported
  have proper : ∀ key, value ≠ .object key := fun key same => isObject ⟨key, same⟩
  by_cases given : written = []
  · subst given
    rw [formatted_nil proper] at failed
    exact .text proper (Value.asText_untold_iff.mp ⟨failed, unreported⟩)
  rw [formatted_of_ne proper given] at failed
  rcases bind_error_iff.mp failed with early | ⟨⟨format, layout⟩, laid, late⟩
  · rcases raises_laidOut value written fault early with reported | ⟨number, format, rfl, read, misfits⟩
    · exact absurd reported unreported
    · exact .number read misfits
  · obtain ⟨rfl, full⟩ := Format.fillUp_error_iff.mp late
    exact .row given laid full

end Layouts

end Template

end Splice
