/-
**One range, written in several ways.**

An entry says how far it reaches by a length, by an end, or by both, and a negative length or an end in
front of the start makes it reach backwards. So a range between two offsets can be written in five ways.
All of them can stand in a document, where they are read as what they are, and they have the same outcome
in whatever state a session is: what counts is the range, however it is given.

* `Entry.given`, `Script.value`: the record of an entry and the value of a script;
* `Script.parse_of_value`, `Script.spellable_value`: a script has a document and is read from it;
* `Entry.extents`, `Entry.span_of_mem_extents`: the five ways, and the range that they share;
* `Session.load_extents`: what comes of them.
-/

import Splice.Proofs.Batches
import Splice.Proofs.Acceptance
import Splice.Proofs.Documents

namespace Splice

namespace Entry

/-- The field of a number, if there is one. -/
def numberField (name : String) : Option Int → Record
  | none => []
  | some number => [(Text.ofString name, .whole number)]

/-- The record of an entry, with a length and an end only where the entry has them. -/
def given (entry : Entry) : Record :=
  numberField "start" (some entry.start) ++ numberField "length" entry.length ++
    numberField "end" entry.stop ++
      [(Text.ofString "text", .text entry.text), (Text.ofString "template", .truth entry.isTemplate)]

/-- The numbers of an entry. -/
def numbers (entry : Entry) : List Int := entry.start :: entry.length.toList ++ entry.stop.toList

theorem spelledIn_given [Schema] {entry : Entry} (fits : entry.disagreement? = none) :
    SpelledIn entry.given entry := by
  obtain ⟨start, length, stop, text, isTemplate⟩ := entry
  refine ⟨?_, ?_, ?_, .inr ?_, .inr ⟨.truth isTemplate, ?_, Schema.truth_truth _⟩,
    disagreement?_eq_none_iff.mp fits⟩
  · exact ⟨.whole start, rfl, Schema.whole_whole start⟩
  · cases length with
    | none => cases stop <;> exact .inl rfl
    | some length => exact ⟨.whole length, rfl, nofun, Schema.whole_whole length⟩
  · cases stop with
    | none => cases length <;> exact .inl rfl
    | some stop => cases length <;> exact ⟨.whole stop, rfl, nofun, Schema.whole_whole stop⟩
  · cases length <;> cases stop <;> rfl
  · cases length <;> cases stop <;> rfl

theorem spellable_numberField (levels : Nat) {name : String} {number : Option Int}
    (short : ∀ given ∈ number.toList, writable given = true) :
    ∀ field ∈ numberField name number, Json.Spellable levels field.2 := by
  cases number with
  | none => exact fun _ member => (List.not_mem_nil member).elim
  | some number =>
    intro field member
    obtain rfl := List.mem_singleton.mp member
    exact .whole levels (short number (List.mem_singleton_self _))

theorem names_numberField (name : String) (number : Option Int) :
    ((numberField name number).map Prod.fst).Sublist [Text.ofString name] := by
  cases number with
  | none => exact List.nil_sublist _
  | some number => exact List.Sublist.refl _

theorem spellable_given (levels : Nat) {entry : Entry}
    (short : ∀ number ∈ entry.numbers, writable number = true) :
    Json.Spellable (levels + 1) (.record entry.given) := by
  obtain ⟨⟨start, lengths⟩, stops⟩ := (List.forall_mem_append.trans
    (and_congr_left' List.forall_mem_cons)).mp short
  refine .record ?_ ?_
  · simp only [given, List.forall_mem_append, List.forall_mem_cons]
    refine ⟨⟨⟨spellable_numberField levels (by simpa using start),
      spellable_numberField levels lengths⟩, spellable_numberField levels stops⟩, .text levels _,
      .truth levels _, nofun⟩
  · have names : [Text.ofString "start", Text.ofString "length", Text.ofString "end",
        Text.ofString "text", Text.ofString "template"].Nodup := by decide +kernel
    refine names.sublist ?_
    unfold given
    simp only [List.map_append]
    exact (((names_numberField _ _).append (names_numberField _ _)).append
      (names_numberField _ _)).append (List.Sublist.refl _)

end Entry

namespace Script

/-- The value of a script. -/
def value (script : Script) : Value := .list (script.map fun entry => .record entry.given)

section Parsing

variable [Schema] [Limits]

/-- **A script is read from its value**. -/
theorem parse_of_value {script : Script} {document : Text}
    (fits : ∀ entry ∈ script, entry.disagreement? = none)
    (read : Json.read document = .ok script.value) : parse document = .ok script := by
  refine parse_ok_iff.mpr ⟨_, read, List.forall₂_map_left_iff.mpr (List.forall₂_same.mpr ?_)⟩
  exact fun entry member => ⟨_, rfl, Entry.spelledIn_given (fits entry member)⟩

omit [Schema] in
/-- A script stands in its document on two levels, as records in a list. -/
theorem spellable_value {script : Script}
    (short : ∀ entry ∈ script, ∀ number ∈ entry.numbers, writable number = true) :
    Json.Spellable Limits.nesting script.value := by
  obtain ⟨levels, room⟩ := Nat.exists_eq_add_of_le' Limits.two_le_nesting
  rw [room]
  refine .list fun value member => ?_
  obtain ⟨entry, known, rfl⟩ := List.mem_map.mp member
  exact Entry.spellable_given levels (short entry known)

/-- A script whose numbers can all be written is read from the document that spells it. -/
theorem parse_spell_value {script : Script}
    (fits : ∀ entry ∈ script, entry.disagreement? = none)
    (short : ∀ entry ∈ script, ∀ number ∈ entry.numbers, writable number = true) :
    parse (Json.spell script.value) = .ok script :=
  parse_of_value fits (Json.read_spell (spellable_value short))

end Parsing

end Script

namespace Entry

/-- The five ways to write the range between an offset and the one that lies a length away. -/
def extents (start length : Int) (text : Text) (isTemplate : Bool) : List Entry :=
  [⟨start, some length, none, text, isTemplate⟩,
    ⟨start, none, some (start + length), text, isTemplate⟩,
    ⟨start, some length, some (start + length), text, isTemplate⟩,
    ⟨start + length, some (-length), none, text, isTemplate⟩,
    ⟨start + length, none, some start, text, isTemplate⟩]

section Extents

variable {start length : Int} {text : Text} {isTemplate : Bool}

/-- **All five have the same range.** -/
theorem span_of_mem_extents : ∀ entry ∈ extents start length text isTemplate,
    entry.span = .directed start length ∧ entry.text = text ∧ entry.isTemplate = isTemplate := by
  have ahead : Span.directed start (start + length - start) = .directed start length := by
    rw [add_sub_cancel_left]
  have back : Span.directed (start + length) (-length) = .directed start length := by
    rw [Span.directed, Span.directed, add_neg_cancel_right, min_comm, max_comm]
  have backTo : Span.directed (start + length) (start - (start + length)) = .directed start length := by
    rw [sub_add_cancel_left]
    exact back
  rw [extents]
  intro entry member
  rcases List.mem_cons.mp member with rfl | member
  · exact ⟨rfl, rfl, rfl⟩
  rcases List.mem_cons.mp member with rfl | member
  · exact ⟨ahead, rfl, rfl⟩
  rcases List.mem_cons.mp member with rfl | member
  · exact ⟨rfl, rfl, rfl⟩
  rcases List.mem_cons.mp member with rfl | member
  · exact ⟨back, rfl, rfl⟩
  · obtain rfl := List.mem_singleton.mp member
    exact ⟨backTo, rfl, rfl⟩

theorem fits_of_mem_extents :
    ∀ entry ∈ extents start length text isTemplate, entry.disagreement? = none := by
  simp [extents, disagreement?]

theorem writable_of_mem_extents (starts : writable start = true) (lengths : writable length = true)
    (stops : writable (start + length) = true) : ∀ entry ∈ extents start length text isTemplate,
      ∀ number ∈ entry.numbers, writable number = true := by
  have back : writable (-length) = true := (writable_neg length).trans lengths
  simp [extents, numbers, starts, lengths, stops, back, or_imp, forall_and]

end Extents

theorem edit_registration [Objects] [Limits] (entry : Entry) (text : Text) (order : Int) :
    (entry.registration text).edit order =
      ⟨entry.span, order, if entry.isTemplate then
        .template entry.text (text.slice entry.span.start entry.span.stop) else .fixed entry.text⟩ :=
  rfl

end Entry

/-- A range is reported as long as the offset to which its length leads can be written. -/
theorem Failure.outside_directed_of_writable {start length : Int} (starts : writable start = true)
    (size : Nat) : outside (.directed start length) size =
      if writable (start + length) then .range (.directed start length) size else .tooManyDigits := by
  have both : (writable (Span.directed start length).start &&
      writable (Span.directed start length).stop) = writable (start + length) := by
    unfold Span.directed
    rcases le_total start (start + length) with ahead | back
    · rw [min_eq_left ahead, max_eq_right ahead, starts, Bool.true_and]
    · rw [min_eq_right back, max_eq_left back, starts, Bool.and_true]
  rw [outside, both]

theorem Failure.outside_directed {start length : Int} (starts : writable start = true)
    (stops : writable (start + length) = true) (size : Nat) :
    outside (.directed start length) size = .range (.directed start length) size :=
  (outside_directed_of_writable starts size).trans (if_pos stops)

namespace Session

/-- **One range, written in five ways.** Take two offsets and a length between them, all of them short
enough to be written, and any text and mark. Each of the five entries for the range between the offsets

* has a document, and every document of it is accepted and read as the entry;
* comes to the same in whatever state a session is: where the range lies in the text, one edit of it is
  registered under the next order, whose template, if it is one, has the part of the text that the range
  covers; where it does not, the range is reported and the session is as it was.

The edit is one and the same, so it renders to the same for every context, on a machine whose objects
answer the same whenever they are asked (`Objects`). -/
theorem load_extents [Objects] [Limits] [Schema] (session : Session) (start length : Int)
    (text : Text) (isTemplate : Bool) (starts : writable start = true) (lengths : writable length = true)
    (stops : writable (start + length) = true) :
    let span : Span := ⟨min start (start + length), max start (start + length)⟩
    let size := session.draft.text.length
    let part := session.draft.text.slice span.start span.stop
    let edit : Edit := ⟨span, session.lastOrder + 1,
      if isTemplate then .template text part else .fixed text⟩
    ∀ entry ∈ Entry.extents start length text isTemplate,
      let value : Value := .list [.record entry.given]
      Json.read (Json.spell value) = .ok value ∧
        (∀ document, Json.read document = .ok value → Script.parse document = .ok [entry]) ∧
        session.load [entry] =
          if 0 ≤ span.start ∧ span.stop ≤ size then
            ⟨⟨session.draft.append edit, edit.order⟩, [.registered edit, .loaded 1], .ok 1⟩
          else ⟨session, [], .error (.range span size)⟩ := by
  intro span size part edit entry member value
  obtain ⟨same, rfl, rfl⟩ := Entry.span_of_mem_extents entry member
  have short := Entry.writable_of_mem_extents starts lengths stops entry member
  have fits : ∀ only ∈ [entry], only.disagreement? = none :=
    List.forall_mem_singleton.mpr (Entry.fits_of_mem_extents entry member)
  have spellable : Json.Spellable Limits.nesting value :=
    Script.spellable_value (List.forall_mem_singleton.mpr short)
  refine ⟨Json.read_spell spellable, fun document => Script.parse_of_value fits, ?_⟩
  have within : entry.span.within size = true ↔ 0 ≤ span.start ∧ span.stop ≤ size := by
    rw [same]
    exact Span.within_directed_iff
  have made : (entry.registration session.draft.text).edit (session.lastOrder + 1) = edit := by
    rw [Entry.edit_registration, same]
    rfl
  have reported : Failure.outside entry.span size = .range span size := by
    rw [same]
    exact Failure.outside_directed starts stops size
  rw [load_singleton, made, reported]
  exact if_congr within rfl rfl

/-- A range in the middle of a text, given backwards, and one that lies across its end. -/
theorem load_extents_backwards :
    (writable 4 = true ∧ writable (-3) = true ∧ writable (4 + -3) = true ∧ writable (4 + 3) = true) ∧
      (∀ entry ∈ Entry.extents 4 (-3) "<\x7boriginal\x7d>" true,
        Script.parse (Json.spell (.list [.record entry.given])) = .ok [entry] ∧
          (begunSession.load [entry]).session.draft.edits =
            [⟨⟨0, 1⟩, 1, .fixed "X"⟩, ⟨⟨1, 4⟩, 2, .template "<\x7boriginal\x7d>" "bcd"⟩]) ∧
      ∀ entry ∈ Entry.extents 4 3 "<\x7boriginal\x7d>" true,
        (begunSession.load [entry]).result = .error (.range ⟨4, 7⟩ 6) := by
  have short : writable 4 = true ∧ writable (-3) = true ∧ writable (4 + -3) = true ∧
      writable (4 + 3) = true ∧ writable 3 = true := by decide +kernel
  obtain ⟨four, back, one, seven, three⟩ := short
  refine ⟨⟨four, back, one, seven⟩, fun entry member => ?_, fun entry member => ?_⟩
  · obtain ⟨read, parsed, loaded⟩ :=
      load_extents begunSession 4 (-3) "<\x7boriginal\x7d>" true four back one entry member
    refine ⟨parsed _ read, ?_⟩
    rw [loaded]
    rfl
  · obtain ⟨-, -, loaded⟩ :=
      load_extents begunSession 4 3 "<\x7boriginal\x7d>" true four three seven entry member
    rw [loaded]
    rfl

end Session
end Splice
