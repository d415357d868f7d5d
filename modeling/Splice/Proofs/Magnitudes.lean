/-
**How large the numbers of a script are.**

A script may hold integers as large as it likes, but a document is only accepted if each of them is short
enough to be written: one with more digits is refused where it stands, whether it stands for itself or in
a text. So all numbers that an entry is given are short enough. The offset to which its length leads need
not be, since a sum can have one digit more than its parts.

* `Value.Writable`: every integer in a value can be written;
* `Json.writable_of_read`: the value of a document is such a value;
* `Schema.writable_whole`: the integer for which such a value is taken;
* `Script.writable_of_parse`: the numbers of the entries of a document, and the one that they leave open.
-/

import Splice.Proofs.Acceptance
import Splice.Proofs.Extents
import Splice.Proofs.Outcomes
import Splice.Text.Digits

namespace Splice

/-! ### Values of documents -/

theorem writable_signed {number : Int} (short : writable number = true) (negative : Bool) :
    writable (if negative then -number else number) = true := by
  cases negative with
  | false => exact short
  | true => exact (writable_neg number).trans short

/-- Every integer in the value can be written. -/
inductive Value.Writable : Value → Prop
  | nothing : Writable .nothing
  | truth (flag : Bool) : Writable (.truth flag)
  | whole {number : Int} (short : writable number = true) : Writable (.whole number)
  | real (number : Binary64) : Writable (.real number)
  | text (content : Text) : Writable (.text content)
  | list {values : List Value} (each : ∀ value ∈ values, Writable value) : Writable (.list values)
  | record {fields : List (Text × Value)} (each : ∀ field ∈ fields, Writable field.2) :
    Writable (.record fields)
  | object (key : Nat) : Writable (.object key)

namespace Record

theorem mem_put {record : Record} {name : Text} {value : Value} {field : Text × Value}
    (member : field ∈ record.put name value) : field = (name, value) ∨ field ∈ record := by
  induction record with
  | nil => exact Or.inl (List.mem_singleton.mp member)
  | cons first rest ih =>
    obtain ⟨other, old⟩ := first
    rw [put] at member
    split at member
    · rcases List.mem_cons.mp member with new | known
      · exact Or.inl new
      · exact Or.inr (List.mem_cons_of_mem _ known)
    · rcases List.mem_cons.mp member with same | later
      · exact Or.inr (List.mem_cons.mpr (Or.inl same))
      · exact (ih later).imp_right (List.mem_cons_of_mem _)

/-- A record of fields holds none but these. -/
theorem mem_ofFields {fields : List (Text × Value)} {field : Text × Value}
    (member : field ∈ ofFields fields) : field ∈ fields := by
  unfold ofFields at member
  induction fields using List.reverseRecOn with
  | nil => exact member
  | append_singleton front last ih =>
    rw [List.foldl_append] at member
    rcases mem_put member with rfl | known
    · exact List.mem_append_right _ (List.mem_singleton_self _)
    · exact List.mem_append_left _ (ih known)

theorem writable_of_find? {record : Record} {name : Text} {value : Value}
    (short : ∀ field ∈ record, field.2.Writable) (found : record.find? name = some value) :
    value.Writable := by
  obtain ⟨front, back, rfl, -⟩ := List.lookup_eq_some_iff.mp found
  exact short _ (List.mem_append_right _ List.mem_cons_self)

end Record

namespace Json

theorem writable_of_word? {source rest : Text} {value : Value}
    (found : word? source = some (value, rest)) : value.Writable := by
  obtain ⟨⟨word, other⟩, member, same⟩ := List.exists_of_findSome?_eq_some found
  have each : ∀ entry ∈ words, entry.2.Writable := by
    simp [words, Value.Writable.nothing, Value.Writable.truth, Value.Writable.real]
  dsimp only at same
  split at same
  · cases same
    exact each _ member
  · cases same

theorem writable_of_numeral {numeral : Numeral} {value : Value} (read : numeral.value = .ok value) :
    value.Writable := by
  unfold Numeral.value at read
  split at read
  · obtain rfl := Except.ok.inj read
    exact .real _
  · split at read
    · cases read
    · rename_i few
      obtain rfl := Except.ok.inj read
      have short : writable (spelled numeral.whole) = true :=
        writable_of_length_le rfl (Nat.not_lt.mp few)
      exact .whole (writable_signed short numeral.negative)

theorem writable_of_readSimple {source : Text} {taken : Taken source Value}
    (read : readSimple source = .ok taken) : taken.value.Writable := by
  unfold readSimple at read
  split at read
  · rename_i found
    split at read
    · obtain rfl := Except.ok.inj read
      exact writable_of_word? found
    · cases read
  · split at read
    · cases read
    · split at read
      · cases read
      · rename_i valued
        split at read
        · obtain rfl := Except.ok.inj read
          exact writable_of_numeral valued
        · cases read

mutual

/-- **A value** at the front of a document. -/
theorem writable_of_readValue {levels : Nat} {source : Text} {taken : Taken source Value}
    (read : readValue levels source = .ok taken) : taken.value.Writable := by
  unfold readValue at read
  split at read
  · obtain ⟨content, -, rfl⟩ := map_eq_ok_iff.mp read
    exact .text _
  · rename_i rest
    have bound := length_skipBlanks_le rest
    split at read
    · cases read
    dsimp only at read
    split at read
    · obtain rfl := Except.ok.inj read
      exact .list (fun _ member => (List.not_mem_nil member).elim)
    · obtain ⟨items, others, rfl⟩ := map_eq_ok_iff.mp read
      exact .list (writable_of_readItems others)
  · rename_i rest
    have bound := length_skipBlanks_le rest
    split at read
    · cases read
    dsimp only at read
    split at read
    · obtain rfl := Except.ok.inj read
      exact .record (fun _ member => (List.not_mem_nil member).elim)
    · obtain ⟨fields, others, rfl⟩ := map_eq_ok_iff.mp read
      have each := writable_of_readFields others
      exact .record fun field member => each field (Record.mem_ofFields member)
  · exact writable_of_readSimple read
  termination_by 2 * source.length
  decreasing_by all_goals subst_vars; simp only [List.length_cons]; omega

/-- **The values of a list.** -/
theorem writable_of_readItems {levels : Nat} {source : Text} {taken : Taken source (List Value)}
    (read : readItems levels source = .ok taken) : ∀ value ∈ taken.value, value.Writable := by
  unfold readItems at read
  obtain ⟨first, here, behind⟩ := bind_ok_iff.mp read
  have short := writable_of_readValue here
  have bound := length_skipBlanks_le first.rest
  have start := first.shorter
  dsimp only at behind
  split at behind
  · obtain rfl := Except.ok.inj behind
    exact List.forall_mem_singleton.mpr short
  · rename_i after inner
    have next := length_skipBlanks_le after
    have inside := List.length_cons ▸ inner ▸ bound
    obtain ⟨others, rest, behind⟩ := bind_ok_iff.mp behind
    obtain rfl := Except.ok.inj behind
    exact List.forall_mem_cons.mpr ⟨short, writable_of_readItems rest⟩
  · cases behind
  termination_by 2 * source.length + 1
  decreasing_by all_goals omega

/-- **The fields of a record.** -/
theorem writable_of_readFields {levels : Nat} {source : Text} {taken : Taken source (List (Text × Value))}
    (read : readFields levels source = .ok taken) : ∀ field ∈ taken.value, field.2.Writable := by
  unfold readFields at read
  split at read
  · obtain ⟨name, -, behind⟩ := bind_ok_iff.mp read
    have nameBound := length_skipBlanks_le name.rest
    have nameStart := name.shorter
    dsimp only at behind
    split at behind
    · rename_i behindColon colon
      have valueBound := length_skipBlanks_le behindColon
      have nameInside := List.length_cons ▸ colon ▸ nameBound
      obtain ⟨value, here, behind⟩ := bind_ok_iff.mp behind
      have short := writable_of_readValue here
      have bound := length_skipBlanks_le value.rest
      have start := value.shorter
      split at behind
      · obtain rfl := Except.ok.inj behind
        exact List.forall_mem_singleton.mpr short
      · rename_i after inner
        have next := length_skipBlanks_le after
        have inside := List.length_cons ▸ inner ▸ bound
        obtain ⟨others, rest, behind⟩ := bind_ok_iff.mp behind
        obtain rfl := Except.ok.inj behind
        exact List.forall_mem_cons.mpr ⟨short, writable_of_readFields rest⟩
      · cases behind
    · cases behind
  · cases read
  termination_by 2 * source.length
  decreasing_by all_goals subst_vars; simp only [List.length_cons]; omega

end

/-- **A document** is accepted only if every integer in it can be written. -/
theorem writable_of_read [Limits] {document : Text} {value : Value}
    (read : Json.read document = .ok value) : value.Writable := by
  unfold Json.read at read
  dsimp only at read
  split at read
  · cases read
  · split at read
    · cases read
    · rename_i taken valued
      split at read
      · obtain rfl := Except.ok.inj read
        exact writable_of_readValue valued
      · cases read

end Json

/-! ### Numbers of entries -/

/-- **The integer for which a value is taken** can be written if those in the value can. -/
theorem Schema.writable_whole [Schema] {value : Value} {number : Int} (short : value.Writable)
    (read : Schema.whole value = .ok number) : writable number = true := by
  by_cases isWhole : ∃ given, value = .whole given
  · obtain ⟨given, rfl⟩ := isWhole
    obtain rfl := Except.ok.inj ((Schema.whole_whole given).symm.trans read)
    cases short with
    | whole short => exact short
  · exact Schema.writable_of_whole (fun given same => isWhole ⟨given, same⟩) read

namespace Entry

variable [Schema] {record : Record} {entry : Entry}

theorem writable_of_givesNumber {name : String} {given : Option Int}
    (short : ∀ field ∈ record, field.2.Writable) (gives : record.GivesNumber name given) :
    ∀ number ∈ given.toList, writable number = true := by
  cases given with
  | none => exact fun _ member => (List.not_mem_nil member).elim
  | some number =>
    obtain ⟨value, found, -, read⟩ := gives
    intro other member
    obtain rfl := List.mem_singleton.mp member
    exact Schema.writable_whole (Record.writable_of_find? short found) read

theorem SpelledIn.writable_numbers (spelled : SpelledIn record entry)
    (short : ∀ field ∈ record, field.2.Writable) : ∀ number ∈ entry.numbers, writable number = true := by
  obtain ⟨value, found, read⟩ := spelled.start
  have starts : writable entry.start = true :=
    Schema.writable_whole (Record.writable_of_find? short found) read
  refine List.forall_mem_append.mpr ⟨?_, writable_of_givesNumber short spelled.stop⟩
  exact List.forall_mem_cons.mpr ⟨starts, writable_of_givesNumber short spelled.length⟩

/-- **The offset to which the length of an entry leads** is the one number that may be too long to be
written, and only where no end is given. -/
theorem SpelledIn.open_of_unwritable (spelled : SpelledIn record entry)
    (short : ∀ number ∈ entry.numbers, writable number = true)
    (long : writable (entry.start + entry.reach) = false) :
    entry.length.isSome = true ∧ entry.stop = none := by
  obtain ⟨toStop, -, nothing⟩ := spelled.reach
  cases stops : entry.stop with
  | some stop =>
    have known : stop ∈ entry.numbers := by simp [numbers, stops]
    rw [toStop stop stops, short stop known] at long
    cases long
  | none =>
    refine ⟨Option.isSome_iff_ne_none.mpr fun lengths => ?_, rfl⟩
    rw [nothing lengths stops, add_zero, short entry.start List.mem_cons_self] at long
    cases long

end Entry

namespace Script

/-- **The numbers of a document's entries** can all be written, and so can the offset to which a length
leads if an end is given beside it or no length is given at all. -/
theorem writable_of_parse [Schema] [Limits] {document : Text} {script : Script}
    (read : parse document = .ok script) :
    ∀ entry ∈ script, (∀ number ∈ entry.numbers, writable number = true) ∧
      (writable (entry.start + entry.reach) = false →
        entry.length.isSome = true ∧ entry.stop = none) := by
  obtain ⟨values, valued, each⟩ := parse_ok_iff.mp read
  intro entry member
  cases Json.writable_of_read valued with
  | list short =>
    obtain ⟨value, short, record, rfl, spelled⟩ :=
      exists_of_forall₂_of_mem ((List.forall₂_and_left _ _).mpr ⟨short, each⟩) entry member
    cases short with
    | record short =>
      have numbers := spelled.writable_numbers short
      exact ⟨numbers, spelled.open_of_unwritable numbers⟩

end Script

end Splice
