/-
**The standard readers.**

* `Standard.whole`: integers, doubles equal to one of 64 bits, truth values, and texts that spell one;
* `Standard.truth`: truth values, zero and one, and the usual words for them;
* `Standard.text`: texts;
* `Standard.schema`: the readers, with fields, records and lists.
-/

import Splice.Schema.Reading
import Splice.Standard.Issues
import Splice.Standard.Spelling

namespace Splice.Standard

/-! ### Integers -/

/-- The integer that a text spells. -/
def wholeOfText (text : Text) : Except IssueKind Int :=
  if text.any CodePoint.isSurrogate then .error .notUnicode
  else (Spelling.whole text).mapError fun
    | .unreadable => .unreadableWhole
    | .oversized => .oversizedWhole

/-- Whether an integer has 64 bits. -/
def isWord (number : Int) : Bool := -(Int.pow 2 63) ≤ number && number < Int.pow 2 63

/-- The integer that a double is. The least integer of 64 bits is refused, as a double of that value
may also stand for an integer below it. -/
def wholeOfReal (number : Binary64) : Except IssueKind Int :=
  match number with
  | .undefined | .infinite _ => .error .notFinite
  | .finite _ _ _ =>
    match number.wholeValue? with
    | none => .error .fractional
    | some whole =>
      if isWord whole && whole ≠ -(Int.pow 2 63) then .ok whole else .error .oversizedWhole

/-- The integer of a value. -/
def whole : Value → Except IssueKind Int
  | .whole number => .ok number
  | .truth flag => .ok (if flag then 1 else 0)
  | .real number => wholeOfReal number
  | .text text => wholeOfText text
  | .nothing | .list _ | .record _ | .object _ => .error .notWhole

/-- An integer of 64 bits can be written. -/
theorem writable_of_isWord {number : Int} (word : isWord number = true) : writable number = true := by
  obtain ⟨least, most⟩ := Bool.and_eq_true_iff.mp word
  have least := of_decide_eq_true least
  have most := of_decide_eq_true most
  have power : Int.pow 2 63 = 9223372036854775808 := rfl
  have size : number.natAbs < Nat.pow 10 19 := by
    show number.natAbs < 10 ^ 19
    omega
  exact writable_of_lt size (by decide)

theorem isWord_of_wholeOfReal {real : Binary64} {number : Int} (read : wholeOfReal real = .ok number) :
    isWord number = true := by
  unfold wholeOfReal at read
  split at read
  · cases read
  · cases read
  · split at read
    · cases read
    · split at read
      · rename_i fits
        obtain rfl := Except.ok.inj read
        exact (Bool.and_eq_true_iff.mp fits).1
      · cases read

/-- Whatever is taken for an integer, and is none, stands for one that can be written. -/
theorem writable_of_whole {value : Value} {number : Int} (other : ∀ given, value ≠ .whole given)
    (read : whole value = .ok number) : writable number = true := by
  cases value with
  | whole given => exact (other given rfl).elim
  | truth flag =>
    obtain rfl := Except.ok.inj read
    exact writable_of_isWord (by cases flag <;> decide)
  | real given => exact writable_of_isWord (isWord_of_wholeOfReal read)
  | text given =>
    replace read : wholeOfText given = .ok number := read
    unfold wholeOfText at read
    split at read
    · cases read
    · cases spelled : Spelling.whole given with
      | error fault =>
        rw [spelled] at read
        cases read
      | ok other =>
        rw [spelled] at read
        obtain rfl := Except.ok.inj read
        exact Spelling.writable_of_whole spelled
  | nothing => cases read
  | list values => cases read
  | record fields => cases read
  | object key => cases read

/-! ### Truth values and texts -/

/-- The words for true. -/
def trueWords : List Text := ["1", "on", "t", "true", "y", "yes"]

/-- The words for false. -/
def falseWords : List Text := ["0", "off", "f", "false", "n", "no"]

/-- The truth value that a text spells, in any case. -/
def truthOfText (text : Text) : Except IssueKind Bool :=
  if text.any CodePoint.isSurrogate then .error .notUnicode
  else if trueWords.contains text.asciiLower then .ok true
  else if falseWords.contains text.asciiLower then .ok false
  else .error .unreadableTruth

/-- The truth value of an integer: zero and one have one. -/
def truthOfWhole (number : Int) : Except IssueKind Bool :=
  if number = 0 then .ok false
  else if number = 1 then .ok true
  else .error .unreadableTruth

/-- The truth value of a value. A number that is no integer of 64 bits is none at all. -/
def truth : Value → Except IssueKind Bool
  | .truth flag => .ok flag
  | .whole number => if isWord number then truthOfWhole number else .error .notTruth
  | .real number =>
    match wholeOfReal number with
    | .ok whole => truthOfWhole whole
    | .error _ => .error .notTruth
  | .text text => truthOfText text
  | .nothing | .list _ | .record _ | .object _ => .error .notTruth

/-- The text of a value. -/
def text : Value → Except IssueKind Text
  | .text text => .ok text
  | _ => .error .notText

theorem text_ok_iff (value : Value) (content : Text) :
    text value = .ok content ↔ value = .text content := by
  cases value <;> simp [text]

/-! ### Fields, records and lists -/

/-- A value that may also be nothing. -/
def nullable {α : Type} (reader : Value → Except IssueKind α) : Value → Except IssueKind (Option α)
  | .nothing => .ok none
  | value => (reader value).map some

/-- A value at a place of its own. -/
def leaf {α : Type} (reader : Value → Except IssueKind α) (value : Value) : Checked α :=
  (reader value).mapError fun kind => [⟨[], kind, value⟩]

/-- The field of a name: what it has by default, or that it is missing. -/
def field {α : Type} (record : Record) (name : String) (default : Option α)
    (reader : Value → Checked α) : Checked α :=
  match record.find? name with
  | some value => (reader value).under (.name name)
  | none =>
    match default with
    | some value => .ok value
    | none => .error [⟨[.name name], .missing, .record record⟩]

/-- The fields of a value that must be a record. -/
def record {α : Type} (name : String) (reader : Record → Checked α) : Value → Checked α
  | .record fields => reader fields
  | value => .error [⟨[], .notRecord name, value⟩]

/-- The elements of a value that must be a list. -/
def list {α : Type} (reader : Value → Checked α) : Value → Checked (List α)
  | .list values => Checked.indexed (values.map reader)
  | value => .error [⟨[], .notList, value⟩]

/-- The standard readers. -/
abbrev schema [Objects] [Limits] : Schema where
  whole := whole
  truth := truth
  text := text
  nullable := nullable
  field record name default reader := field record name default (leaf reader)
  record := record
  list := list
  missing := .missing
  notRecord := .notRecord
  notList := .notList
  refused := .refused
  report := Issue.report
  whole_whole _ := rfl
  writable_of_whole := writable_of_whole
  truth_truth _ := rfl
  text_ok_iff := text_ok_iff
  nullable_nothing _ := rfl
  nullable_of_ne reader value given := by
    cases value <;> first | rfl | exact (given rfl).elim
  field_of_find default reader value found := by
    simp only [field, found, leaf]
    cases reader value <;> rfl
  field_of_default default reader lacking := by
    simp only [field, lacking]
  field_of_missing reader lacking := by
    simp only [field, lacking]
  record_record _ _ _ := rfl
  record_of_ne name reader value other := by
    cases value <;> first | rfl | exact (other _ rfl).elim
  list_list _ _ := rfl
  list_of_ne reader value other := by
    cases value <;> first | rfl | exact (other _ rfl).elim

end Splice.Standard
