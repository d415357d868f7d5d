/-
**Scripts that are accepted, and what is wrong with the others.**

A script is read from a list of records, and it is accepted as a whole or not at all. What a record must
give for an entry is said field by field (`Entry.SpelledIn`): a start, a length and an end that may be
left out or be nothing, a text and a mark of templates that may be left out, and a length that leads from
the start to the end if both are given. Where something is wrong, the issues of all elements are reported
in order, and of one element those of all its fields; length and end are only compared in a record whose
fields are in order.

All this holds whatever library reads the values: what an integer and a truth value are, and what is said
of a value that is none, is left to it.

* `Checked.issues`: the issues of a reading, and how they add up (`issues_both`, `issues_indexed`);
* `Entry.ofValue_ok_iff`, `Entry.issues_ofValue`: the entry of a value, and the issues of one;
* `Script.parse_ok_iff`, `Script.issues_ofValue_list`: the script of a document, and the issues of a
  list;
* `Script.parse_accepts`: the documents that are accepted, and what is reported of the others.
-/

import Mathlib
import Splice.Script.Entry
import Splice.Standard.Runtime

namespace Splice

/-! ### Readings and their issues -/

namespace Checked

variable {α β : Type}

/-- What is wrong; nothing if there is a result. -/
def issues : Checked α → List Issue
  | .ok _ => []
  | .error found => found

/-- A reading that fails only where something is wrong. -/
def Grounded (checked : Checked α) : Prop := checked.issues = [] → ∃ value, checked = .ok value

variable {first : Checked α} {second : Checked β}

theorem both_ok_iff {pair : α × β} :
    first.both second = .ok pair ↔ first = .ok pair.1 ∧ second = .ok pair.2 := by
  obtain ⟨left, right⟩ := pair
  cases first with
  | error found => cases second <;> simp [both]
  | ok value => cases second <;> simp [both]

theorem issues_both : (first.both second).issues = first.issues ++ second.issues := by
  cases first with
  | error found => cases second <;> simp [both, issues]
  | ok value => cases second <;> simp [both, issues]

theorem Grounded.both (grounded : first.Grounded) (grounded' : second.Grounded) :
    (first.both second).Grounded := by
  intro none
  rw [issues_both, List.append_eq_nil_iff] at none
  obtain ⟨value, rfl⟩ := grounded none.1
  obtain ⟨value', rfl⟩ := grounded' none.2
  exact ⟨(value, value'), rfl⟩

theorem issues_map (change : α → β) : issues (first.map change) = first.issues := by
  cases first with
  | error found => rfl
  | ok value => rfl

theorem under_ok_iff {item : PathItem} {value : α} :
    first.under item = .ok value ↔ first = .ok value := by
  cases first <;> simp [under, Except.mapError]

theorem issues_under (item : PathItem) :
    (first.under item).issues = first.issues.map (Issue.under item) := by
  cases first with
  | error found => rfl
  | ok value => rfl

theorem issues_all (checks : List (Checked α)) : (all checks).issues = checks.flatMap issues := by
  induction checks with
  | nil => rfl
  | cons check rest ih => rw [all, issues_map, issues_both, ih, List.flatMap_cons]

/-- All have results just when each one has. -/
theorem all_ok_iff {checks : List (Checked α)} {values : List α} :
    all checks = .ok values ↔ List.Forall₂ (fun check value => check = .ok value) checks values := by
  induction checks generalizing values with
  | nil => cases values <;> simp [all]
  | cons check rest ih =>
    constructor
    · intro read
      rw [all] at read
      cases each : Checked.both check (all rest) with
      | error found =>
        rw [each] at read
        cases read
      | ok pair =>
        rw [each] at read
        obtain rfl := Except.ok.inj read
        obtain ⟨here, others⟩ := both_ok_iff.mp each
        exact .cons here (ih.mp others)
    · intro each
      cases each with
      | cons here others =>
        rw [all, here, ih.mpr others]
        rfl

/-- Steps in front of the issues change no result. -/
theorem all_mapIdx_ok_iff {checks : List (Checked α)} {values : List α} (item : Nat → PathItem) :
    all (checks.mapIdx fun index check => check.under (item index)) = .ok values ↔
      all checks = .ok values := by
  rw [all_ok_iff, all_ok_iff]
  induction checks generalizing values item with
  | nil => rfl
  | cons check rest ih =>
    rw [List.mapIdx_cons]
    cases values with
    | nil => simp
    | cons value values =>
      rw [List.forall₂_cons, List.forall₂_cons, under_ok_iff, ih fun index => item (index + 1)]

theorem indexed_ok_iff {checks : List (Checked α)} {values : List α} :
    indexed checks = .ok values ↔ List.Forall₂ (fun check value => check = .ok value) checks values :=
  (all_mapIdx_ok_iff .index).trans all_ok_iff

/-- **Issues of results in a row** stand in order, each under its index. -/
theorem issues_indexed (checks : List (Checked α)) : (indexed checks).issues =
    (checks.mapIdx fun index check => check.issues.map (Issue.under (.index index))).flatten := by
  unfold indexed
  rw [issues_all, List.flatMap_def, List.mapIdx_eq_zipIdx_map, List.mapIdx_eq_zipIdx_map, List.map_map]
  simp only [Function.comp_def, issues_under]

end Checked

/-! ### Fields -/

namespace Schema

variable [Schema] {α : Type} {fields : Record} {name : String} {default : Option α} {result : α}
  {reader : Value → Except IssueKind α}

/-- What is wrong with the value that the record has under the name, or with the lack of one. -/
def issuesAt (record : Record) (name : String) (lacking : List Issue)
    (reader : Value → Except IssueKind α) : List Issue :=
  match record.find? name with
  | none => lacking
  | some value =>
    match reader value with
    | .error kind => [⟨[.name name], kind, value⟩]
    | .ok _ => []

/-- What is wrong with a record that lacks a field without a default. -/
def lackOf (fields : Record) (name : String) (default : Option α) : List Issue :=
  match default with
  | none => [⟨[.name name], missing, .record fields⟩]
  | some _ => []

/-- **A field** has a result just when its value has, or the name is lacking and there is a default. -/
theorem field_ok_iff : field fields name default reader = .ok result ↔
    (fields.find? name = none ∧ default = some result) ∨
      ∃ value, fields.find? name = some value ∧ reader value = .ok result := by
  cases found : fields.find? name with
  | none =>
    cases default with
    | none => simp [field_of_missing reader found]
    | some value => simp [field_of_default value reader found]
  | some value =>
    rw [field_of_find default reader found]
    cases read : reader value <;> simp [read, Except.mapError]

/-- **The issue of a field** is that of its value, or that it is missing. -/
theorem issues_field : (field fields name default reader).issues =
    issuesAt fields name (lackOf fields name default) reader := by
  unfold issuesAt lackOf
  cases found : fields.find? name with
  | none =>
    cases default with
    | none => exact congrArg Checked.issues (field_of_missing reader found)
    | some value => exact congrArg Checked.issues (field_of_default value reader found)
  | some value =>
    rw [field_of_find default reader found]
    dsimp only
    cases reader value with
    | error kind => rfl
    | ok result => rfl

theorem grounded_field : (field fields name default reader).Grounded := by
  intro none
  rw [issues_field] at none
  unfold issuesAt lackOf at none
  cases found : fields.find? name with
  | none =>
    cases default with
    | none => simp [found] at none
    | some value => exact ⟨value, field_of_default value reader found⟩
  | some value =>
    cases read : reader value with
    | error kind => simp [found, read] at none
    | ok result => exact ⟨result, field_ok_iff.mpr (.inr ⟨value, found, read⟩)⟩

theorem nullable_ok_iff {value : Value} {result : Option α} : nullable reader value = .ok result ↔
    match result with
    | none => value = .nothing
    | some inner => value ≠ .nothing ∧ reader value = .ok inner := by
  by_cases nothing : value = .nothing
  · subst nothing
    rw [nullable_nothing]
    cases result <;> simp
  · rw [nullable_of_ne reader nothing]
    cases read : reader value <;> cases result <;> simp [Except.map, nothing]

end Schema

/-! ### Entries -/

section Entries

variable [Schema]

/-- What a record gives for a number that may be left out: nothing where the name is lacking or its
value is nothing, and otherwise the integer of the value. -/
def Record.GivesNumber (record : Record) (name : String) : Option Int → Prop
  | none => record.find? name = none ∨ record.find? name = some .nothing
  | some number => ∃ value, record.find? name = some value ∧ value ≠ .nothing ∧
      Schema.whole value = .ok number

theorem Record.givesNumber_iff {record : Record} {name : String} {number : Option Int} :
    Schema.optional record name none (Schema.nullable Schema.whole) = .ok number ↔
      record.GivesNumber name number := by
  unfold Schema.optional
  rw [Schema.field_ok_iff]
  simp only [Schema.nullable_ok_iff]
  cases number with
  | none => simp [GivesNumber]
  | some number => simp [GivesNumber]

namespace Entry

variable {record : Record} {entry : Entry}

/-- The record spells the entry: it has a start, and may have a length, an end, a text and a mark of
templates; a length and an end that are both given fit together. -/
structure SpelledIn (record : Record) (entry : Entry) : Prop where
  start : ∃ value, record.find? "start" = some value ∧ Schema.whole value = .ok entry.start
  length : record.GivesNumber "length" entry.length
  stop : record.GivesNumber "end" entry.stop
  text : (record.find? "text" = none ∧ entry.text = []) ∨ record.find? "text" = some (.text entry.text)
  isTemplate : (record.find? "template" = none ∧ entry.isTemplate = false) ∨
    ∃ value, record.find? "template" = some value ∧ Schema.truth value = .ok entry.isTemplate
  fits : ∀ length stop, entry.length = some length → entry.stop = some stop →
    entry.start + length = stop

/-- The fields of a record, each for itself. -/
def fieldsOf (record : Record) : Checked (Int × Option Int × Option Int × Text × Bool) :=
  (Schema.required record "start" Schema.whole).both
    ((Schema.optional record "length" none (Schema.nullable Schema.whole)).both
      ((Schema.optional record "end" none (Schema.nullable Schema.whole)).both
        ((Schema.optional record "text" [] Schema.text).both
          (Schema.optional record "template" false Schema.truth))))

/-- The issues of the fields of a record, in the order in which the fields are declared. -/
def fieldIssues (record : Record) : List Issue :=
  Schema.issuesAt record "start" [⟨[.name "start"], Schema.missing, .record record⟩] Schema.whole ++
    (Schema.issuesAt record "length" [] (Schema.nullable Schema.whole) ++
      (Schema.issuesAt record "end" [] (Schema.nullable Schema.whole) ++
        (Schema.issuesAt record "text" [] Schema.text ++
          Schema.issuesAt record "template" [] Schema.truth)))

theorem issues_fieldsOf : (fieldsOf record).issues = fieldIssues record := by
  unfold fieldsOf fieldIssues Schema.required Schema.optional
  simp only [Checked.issues_both, Schema.issues_field]
  rfl

theorem grounded_fieldsOf : (fieldsOf record).Grounded :=
  Schema.grounded_field.both (Schema.grounded_field.both (Schema.grounded_field.both
    (Schema.grounded_field.both Schema.grounded_field)))

/-- The fields of a record have results just when each of them is spelled. -/
theorem fieldsOf_ok_iff {start : Int} {length stop : Option Int} {text : Text} {isTemplate : Bool} :
    fieldsOf record = .ok (start, length, stop, text, isTemplate) ↔
      (∃ value, record.find? "start" = some value ∧ Schema.whole value = .ok start) ∧
        record.GivesNumber "length" length ∧ record.GivesNumber "end" stop ∧
        ((record.find? "text" = none ∧ text = []) ∨ record.find? "text" = some (.text text)) ∧
        ((record.find? "template" = none ∧ isTemplate = false) ∨
          ∃ value, record.find? "template" = some value ∧ Schema.truth value = .ok isTemplate) := by
  unfold fieldsOf Schema.required
  simp only [Checked.both_ok_iff, Record.givesNumber_iff]
  unfold Schema.optional
  simp only [Schema.field_ok_iff, Schema.text_ok_iff, Option.some.injEq, reduceCtorEq, and_false,
    false_or, exists_eq_right, eq_comm (a := ([] : Text)), eq_comm (a := false)]

theorem ofRecord_eq (record : Record) : ofRecord record =
    match fieldsOf record with
    | .error found => .error found
    | .ok (start, length, stop, text, isTemplate) =>
      match disagreement? ⟨start, length, stop, text, isTemplate⟩ with
      | some message => .error [⟨[], Schema.refused message, .record record⟩]
      | none => .ok ⟨start, length, stop, text, isTemplate⟩ := rfl

omit [Schema] in
theorem disagreement?_eq_none_iff : entry.disagreement? = none ↔
    ∀ length stop, entry.length = some length → entry.stop = some stop →
      entry.start + length = stop := by
  obtain ⟨start, length, stop, text, isTemplate⟩ := entry
  cases length <;> cases stop <;> simp [disagreement?]

/-- **The entry of a record** is the one that the record spells. -/
theorem ofRecord_ok_iff : ofRecord record = .ok entry ↔ SpelledIn record entry := by
  rw [ofRecord_eq]
  constructor
  · intro read
    cases fields : fieldsOf record with
    | error found =>
      rw [fields] at read
      cases read
    | ok parts =>
      simp only [fields] at read
      split at read
      · cases read
      · rename_i fits
        obtain rfl := Except.ok.inj read
        obtain ⟨start, length, stop, text, isTemplate⟩ := fieldsOf_ok_iff.mp fields
        exact ⟨start, length, stop, text, isTemplate, disagreement?_eq_none_iff.mp fits⟩
  · intro spelled
    have fields : fieldsOf record =
        .ok (entry.start, entry.length, entry.stop, entry.text, entry.isTemplate) :=
      fieldsOf_ok_iff.mpr ⟨spelled.start, spelled.length, spelled.stop, spelled.text,
        spelled.isTemplate⟩
    simp only [fields, disagreement?_eq_none_iff.mpr spelled.fits]

theorem ofValue_of_ne {value : Value} (other : ∀ fields, value ≠ .record fields) :
    ofValue value = .error [⟨[], Schema.notRecord "EditSpec", value⟩] :=
  Schema.record_of_ne _ _ other

theorem ofValue_record (fields : Record) : ofValue (.record fields) = ofRecord fields :=
  Schema.record_record _ _ fields

theorem ofValue_ok_iff {value : Value} :
    ofValue value = .ok entry ↔ ∃ record, value = .record record ∧ SpelledIn record entry := by
  by_cases given : ∃ fields, value = .record fields
  · obtain ⟨fields, rfl⟩ := given
    simp only [ofValue_record, ofRecord_ok_iff, Value.record.injEq, exists_eq_left']
  · rw [ofValue_of_ne fun fields same => given ⟨fields, same⟩]
    exact ⟨nofun, fun ⟨fields, same, _⟩ => (given ⟨fields, same⟩).elim⟩

/-- The reach of an entry that is spelled leads to its end, is its length, or is nothing. -/
theorem SpelledIn.reach (spelled : SpelledIn record entry) :
    (∀ stop, entry.stop = some stop → entry.start + entry.reach = stop) ∧
      (∀ length, entry.length = some length → entry.reach = length) ∧
      (entry.length = none → entry.stop = none → entry.reach = 0) := by
  have fits := spelled.fits
  unfold Entry.reach
  cases lengths : entry.length with
  | some length =>
    refine ⟨fun stop stops => fits length stop lengths stops, fun _ same => ?_, nofun⟩
    exact Option.some.inj same
  | none =>
    cases stops : entry.stop with
    | some stop =>
      refine ⟨fun _ same => ?_, nofun, nofun⟩
      obtain rfl := Option.some.inj same
      dsimp only
      omega
    | none => exact ⟨nofun, nofun, fun _ _ => rfl⟩

/-! ### What is wrong with an entry -/

/-- The integer with which the record says that an entry starts, if it has one. -/
def startAt (record : Record) : Option Int :=
  (record.find? "start").bind fun value => (Schema.whole value).toOption

/-- The integer that the record has under the name, if it has one. -/
def numberAt (record : Record) (name : String) : Option Int :=
  (record.find? name).bind fun value => (Schema.nullable Schema.whole value).toOption.join

/-- What is wrong with a length and an end that are both given and do not fit together. -/
def extentIssues (record : Record) : List Issue :=
  match startAt record, numberAt record "length", numberAt record "end" with
  | some start, some length, some stop =>
    if start + length = stop then []
    else [⟨[], Schema.refused (disagreement start length stop), .record record⟩]
  | _, _, _ => []

/-- What is wrong with a value that is to be an entry: that it is no record; or the issues of its fields;
or, where the fields are in order, that length and end do not fit together. -/
def issues : Value → List Issue
  | .record record => if (fieldIssues record).isEmpty then extentIssues record else fieldIssues record
  | value => [⟨[], Schema.notRecord "EditSpec", value⟩]

theorem numberAt_of_gives {name : String} {number : Option Int}
    (gives : record.GivesNumber name number) : numberAt record name = number := by
  unfold numberAt
  cases number with
  | none =>
    rcases gives with lacking | nothing
    · rw [lacking]
      rfl
    · rw [nothing, Option.bind_some, Schema.nullable_nothing]
      rfl
  | some number =>
    obtain ⟨value, found, given, read⟩ := gives
    rw [found, Option.bind_some, Schema.nullable_of_ne _ given, read]
    rfl

/-- **The issues of a record** are those of its fields, or else that of its length and end. -/
theorem issues_ofRecord (record : Record) : (ofRecord record).issues = issues (.record record) := by
  rw [ofRecord_eq, issues, ← issues_fieldsOf]
  cases fields : fieldsOf record with
  | error found =>
    have some : found ≠ [] := by
      rintro rfl
      obtain ⟨parts, read⟩ := grounded_fieldsOf (by rw [fields]; rfl)
      rw [fields] at read
      cases read
    simp [Checked.issues, some]
  | ok parts =>
    obtain ⟨start, length, stop, text, isTemplate⟩ := parts
    obtain ⟨⟨value, found, read⟩, lengths, stops, -, -⟩ := fieldsOf_ok_iff.mp fields
    have starts : startAt record = some start := by
      rw [startAt, found, Option.bind_some, read]
      rfl
    simp only [Checked.issues, List.isEmpty_nil, if_true, extentIssues, starts,
      numberAt_of_gives lengths, numberAt_of_gives stops]
    cases length with
    | none => rfl
    | some length =>
      cases stop with
      | none => rfl
      | some stop => by_cases fits : start + length = stop <;> simp [disagreement?, fits]

theorem issues_ofValue (value : Value) : (ofValue value).issues = issues value := by
  by_cases given : ∃ fields, value = .record fields
  · obtain ⟨fields, rfl⟩ := given
    rw [ofValue_record, issues_ofRecord]
  · rw [ofValue_of_ne fun fields same => given ⟨fields, same⟩]
    cases value with
    | record fields => exact (given ⟨fields, rfl⟩).elim
    | _ => rfl

end Entry

end Entries

/-! ### Scripts -/

/-- Partners for all items are found just when each item has one. -/
theorem exists_forall₂_iff {α β : Type} {relation : α → β → Prop} {items : List α} :
    (∃ others, List.Forall₂ relation items others) ↔ ∀ item ∈ items, ∃ other, relation item other := by
  induction items with
  | nil => simp
  | cons item rest ih =>
    rw [List.forall_mem_cons, ← ih]
    constructor
    · rintro ⟨_, _ | ⟨here, others⟩⟩
      exact ⟨⟨_, here⟩, _, others⟩
    · rintro ⟨⟨other, here⟩, others, each⟩
      exact ⟨other :: others, .cons here each⟩

theorem exists_of_forall₂_of_mem {α β : Type} {relation : α → β → Prop} {items : List α}
    {others : List β} (each : List.Forall₂ relation items others) :
    ∀ other ∈ others, ∃ item, relation item other := by
  induction each with
  | nil => exact fun _ member => (List.not_mem_nil member).elim
  | cons here _ ih => exact List.forall_mem_cons.mpr ⟨⟨_, here⟩, ih⟩

namespace Script

section Documents

variable [Schema] {values : List Value} {script : Script} {document : Text}

theorem ofValue_list (values : List Value) :
    ofValue (.list values) = Checked.indexed (values.map Entry.ofValue) := Schema.list_list _ values

theorem ofValue_list_ok_iff : ofValue (.list values) = .ok script ↔
    List.Forall₂ (fun value entry => ∃ record, value = .record record ∧ entry.SpelledIn record)
      values script := by
  simp only [← Entry.ofValue_ok_iff]
  rw [ofValue_list]
  exact Checked.indexed_ok_iff.trans List.forall₂_map_left_iff

theorem issues_ofValue_list (values : List Value) : (ofValue (.list values)).issues =
    (values.mapIdx fun index value =>
      (Entry.issues value).map (Issue.under (.index index))).flatten := by
  rw [ofValue_list, Checked.issues_indexed]
  simp only [List.mapIdx_eq_zipIdx_map, List.zipIdx_map, List.map_map, Function.comp_def, Prod.map,
    Entry.issues_ofValue, id]

variable [Limits]

/-- A document is accepted just when it is a list whose elements spell the entries. -/
theorem parse_ok_iff : parse document = .ok script ↔
    ∃ values, Json.read document = .ok (.list values) ∧
      List.Forall₂ (fun value entry => ∃ record, value = .record record ∧ entry.SpelledIn record)
        values script := by
  unfold parse
  cases read : Json.read document with
  | error fault => simp
  | ok value =>
    by_cases list : ∃ values, value = .list values
    · obtain ⟨values, rfl⟩ := list
      simp only [Except.ok.injEq, Value.list.injEq, exists_eq_left']
      rw [← ofValue_list_ok_iff]
      cases ofValue (.list values) <;> simp [Except.mapError]
    · have refused : ofValue value = .error [⟨[], Schema.notList, value⟩] :=
        Schema.list_of_ne _ fun values same => list ⟨values, same⟩
      simp only [refused, Except.mapError, Except.ok.injEq]
      exact ⟨nofun, fun ⟨values, same, _⟩ => (list ⟨values, same⟩).elim⟩

/-- A list that is no script has the issues of its elements. -/
theorem parse_of_rejected (read : Json.read document = .ok (.list values))
    (rejected : ∀ script, parse document ≠ .ok script) :
    parse document = .error (.invalid (values.mapIdx fun index value =>
      (Entry.issues value).map (Issue.under (.index index))).flatten) := by
  have parsed : parse document = (ofValue (.list values)).mapError .invalid := by
    unfold parse
    rw [read]
  rw [← issues_ofValue_list]
  cases result : ofValue (.list values) with
  | error found =>
    rw [parsed, result]
    rfl
  | ok script =>
    rw [result] at parsed
    exact (rejected script parsed).elim

/-- **Documents that are accepted.** For every document:

* it is a script just when it is a JSON list whose elements are records that spell an entry each, and
  the script is then these entries, in order and without exception;
* so it is accepted just when it is a list of which each element is a record that has an integer as the
  start; an integer, nothing or no value as the length and as the end; a text or no value as the text; a
  truth value or no value as the mark of templates; and a length that leads from the start to the end, if
  both are given;
* the reach of an accepted entry leads to the end where it is given, is the length where that is given,
  and is zero where neither is;
* a list that is not accepted is rejected with the issues of all its elements, one element after another
  and each under its index: that it is no record; or the issues of its fields, in the order in which the
  fields are declared; or, just where these are in order, that length and end do not fit together. -/
theorem parse_accepts (document : Text) :
    (∀ script, parse document = .ok script ↔
      ∃ values, Json.read document = .ok (.list values) ∧
        List.Forall₂ (fun value entry => ∃ record, value = .record record ∧ entry.SpelledIn record)
          values script) ∧
      ((∃ script, parse document = .ok script) ↔
        ∃ values, Json.read document = .ok (.list values) ∧
          ∀ value ∈ values, ∃ record, value = .record record ∧ ∃ entry, Entry.SpelledIn record entry) ∧
      (∀ script, parse document = .ok script → ∀ entry ∈ script,
        (∀ stop, entry.stop = some stop → entry.start + entry.reach = stop) ∧
          (∀ length, entry.length = some length → entry.reach = length) ∧
          (entry.length = none → entry.stop = none → entry.reach = 0)) ∧
      ∀ values, Json.read document = .ok (.list values) →
        (∀ script, parse document ≠ .ok script) →
          parse document = .error (.invalid (values.mapIdx fun index value =>
            (Entry.issues value).map (Issue.under (.index index))).flatten) := by
  refine ⟨fun script => parse_ok_iff, ?_, fun script accepted entry member => ?_,
    fun values => parse_of_rejected⟩
  · simp only [parse_ok_iff]
    constructor
    · rintro ⟨script, values, read, each⟩
      refine ⟨values, read, fun value member => ?_⟩
      obtain ⟨entry, record, same, spelled⟩ := exists_forall₂_iff.mp ⟨script, each⟩ value member
      exact ⟨record, same, entry, spelled⟩
    · rintro ⟨values, read, each⟩
      have spelled : ∀ value ∈ values, ∃ entry : Entry, ∃ record, value = .record record ∧
          entry.SpelledIn record := by
        intro value member
        obtain ⟨record, same, entry, spelled⟩ := each value member
        exact ⟨entry, record, same, spelled⟩
      obtain ⟨script, each⟩ := exists_forall₂_iff.mpr spelled
      exact ⟨script, values, read, each⟩
  · obtain ⟨values, -, each⟩ := parse_ok_iff.mp accepted
    obtain ⟨_, _, -, spelled⟩ := exists_of_forall₂_of_mem each entry member
    exact spelled.reach

end Documents

example : (parse ("[\x7b\"start\": 3, \"length\": null\x7d, " ++
    "\x7b\"end\": \" 4 \", \"start\": 6, \"text\": \"x\", \"length\": -2\x7d]")).toOption =
    some [⟨3, none, none, "", false⟩, ⟨6, some (-2), some 4, "x", false⟩] := by decide +kernel

end Script

end Splice
