/-
**Documents of values.**

Every value without doubles and objects has a document that is read as the value, as long as its
integers are short enough to be written, no record in it has two fields of one name, and its lists and
records stand in each other no deeper than can be read.

* `Json.spell`: the document of a value;
* `Json.Spellable`: the values that are meant, by how many levels they have;
* `Json.reads_items`, `Json.reads_fields`: one item or field, and what stands behind it;
* `Json.readsBack_of_spellable`: a value with something behind it;
* `Json.read_spell`: the document of a value is read as the value.
-/

import Splice.Proofs.Lexemes

namespace Splice

namespace Record

theorem put_of_not_mem {record : Record} {name : Text} (fresh : name ∉ record.map Prod.fst)
    (value : Value) : record.put name value = record ++ [(name, value)] := by
  induction record with
  | nil => rfl
  | cons field rest ih =>
    obtain ⟨other, old⟩ := field
    rw [List.map_cons, List.mem_cons, not_or] at fresh
    rw [put, if_neg (Ne.symm fresh.1), ih fresh.2]
    rfl

theorem ofFields_of_nodup {fields : List (Text × Value)} (distinct : (fields.map Prod.fst).Nodup) :
    ofFields fields = fields := by
  unfold ofFields
  induction fields using List.reverseRecOn with
  | nil => rfl
  | append_singleton front field ih =>
    rw [List.map_append, List.nodup_append] at distinct
    rw [List.foldl_append, ih distinct.1]
    exact put_of_not_mem (fun member => distinct.2.2 _ member _ (List.mem_singleton_self _) rfl) _

end Record

namespace Json

mutual

/-- The document of a value; an object has none. -/
def spell : Value → Text
  | .nothing => Text.ofString "null"
  | .truth true => Text.ofString "true"
  | .truth false => Text.ofString "false"
  | .whole number => Text.decimal number
  | .real number => writeReal number
  | .text text => spellText text
  | .list values => .scalar '[' :: spellItems values ++ [.scalar ']']
  | .record fields => .scalar '\x7b' :: spellFields fields ++ [.scalar '\x7d']
  | .object _ => []

/-- Values with commas between them. -/
def spellItems : List Value → Text
  | [] => []
  | [value] => spell value
  | value :: next :: rest => spell value ++ Text.ofString ", " ++ spellItems (next :: rest)

/-- Fields with commas between them. -/
def spellFields : List (Text × Value) → Text
  | [] => []
  | [(name, value)] => spellText name ++ Text.ofString ": " ++ spell value
  | (name, value) :: next :: rest =>
    spellText name ++ Text.ofString ": " ++ spell value ++ Text.ofString ", " ++
      spellFields (next :: rest)

end

/-- A value with a document: it holds no double, no object and no integer that is too long to be written,
no record in it has two fields of one name, and there are no more lists and records in each other than
there are levels. -/
inductive Spellable : Nat → Value → Prop where
  | nothing (levels : Nat) : Spellable levels .nothing
  | truth (levels : Nat) (value : Bool) : Spellable levels (.truth value)
  | whole (levels : Nat) {number : Int} (short : writable number = true) :
    Spellable levels (.whole number)
  | text (levels : Nat) (text : Text) : Spellable levels (.text text)
  | list {levels : Nat} {values : List Value} (each : ∀ value ∈ values, Spellable levels value) :
    Spellable (levels + 1) (.list values)
  | record {levels : Nat} {fields : List (Text × Value)} (each : ∀ field ∈ fields, Spellable levels field.2)
    (distinct : (fields.map Prod.fst).Nodup) : Spellable (levels + 1) (.record fields)

/-! ### Lists and records -/

/-- What stands behind an item or a field: the closing mark, or a comma and the others. -/
def Followed {α : Type} (reading : (source : Text) → Except Stop (Taken source (List α)))
    (mark : Char) (left : Text) (others : List α) (rest : Text) : Prop :=
  (skipBlanks left = .scalar mark :: rest ∧ others = []) ∨
    ∃ behind, skipBlanks left = .scalar ',' :: behind ∧ Reads (reading (skipBlanks behind)) others rest

section Steps

variable {levels : Nat} {source left behind rest opened name : Text} {value : Value} {values : List Value}
  {fields : List (Text × Value)}

theorem reads_list_nil (closed : skipBlanks source = .scalar ']' :: rest) :
    Reads (readValue (levels + 1) (.scalar '[' :: source)) (.list []) rest := by
  rw [readValue]
  split
  · rename_i after inner
    obtain rfl : rest = after := (List.cons.inj (closed.symm.trans inner)).2
    exact ⟨_, rfl, rfl, rfl⟩
  · rename_i other
    exact (other rest closed).elim

theorem reads_list (more : (skipBlanks source).head? ≠ some (.scalar ']'))
    (reads : Reads (readItems levels (skipBlanks source)) values rest) :
    Reads (readValue (levels + 1) (.scalar '[' :: source)) (.list values) rest := by
  obtain ⟨taken, read, rfl, rfl⟩ := reads
  rw [readValue]
  split
  · rename_i after inner
    exact (more (congrArg List.head? inner)).elim
  · rw [read]
    exact ⟨_, rfl, rfl, rfl⟩

theorem reads_record_nil (closed : skipBlanks source = .scalar '\x7d' :: rest) :
    Reads (readValue (levels + 1) (.scalar '\x7b' :: source)) (.record []) rest := by
  rw [readValue]
  split
  · rename_i after inner
    obtain rfl : rest = after := (List.cons.inj (closed.symm.trans inner)).2
    exact ⟨_, rfl, rfl, rfl⟩
  · rename_i other
    exact (other rest closed).elim

theorem reads_record (more : (skipBlanks source).head? ≠ some (.scalar '\x7d'))
    (reads : Reads (readFields levels (skipBlanks source)) fields rest) :
    Reads (readValue (levels + 1) (.scalar '\x7b' :: source)) (.record (Record.ofFields fields)) rest := by
  obtain ⟨taken, read, rfl, rfl⟩ := reads
  rw [readValue]
  split
  · rename_i after inner
    exact (more (congrArg List.head? inner)).elim
  · rw [read]
    exact ⟨_, rfl, rfl, rfl⟩

/-- **One item** and what stands behind it. -/
theorem reads_items (reads : Reads (readValue levels source) value left)
    (followed : Followed (readItems levels) ']' left values rest) :
    Reads (readItems levels source) (value :: values) rest := by
  obtain ⟨first, read, rfl, rfl⟩ := reads
  rw [readItems, read]
  dsimp only [bind, Except.bind]
  rcases followed with ⟨closed, rfl⟩ | ⟨behind, comma, others, readOthers, rfl, rfl⟩
  · split
    · rename_i after inner
      obtain rfl : rest = after := (List.cons.inj (closed.symm.trans inner)).2
      exact ⟨_, rfl, rfl, rfl⟩
    · rename_i inner
      cases (List.cons.inj (closed.symm.trans inner)).1
    · rename_i other _
      exact (other rest closed).elim
  · split
    · rename_i inner
      cases (List.cons.inj (comma.symm.trans inner)).1
    · rename_i after inner
      obtain rfl : behind = after := (List.cons.inj (comma.symm.trans inner)).2
      rw [readOthers]
      exact ⟨_, rfl, rfl, rfl⟩
    · rename_i _ other
      exact (other behind comma).elim

/-- **One field** and what stands behind it. -/
theorem reads_fields (named : Reads (readText opened) name source)
    (colon : skipBlanks source = .scalar ':' :: behind)
    (reads : Reads (readValue levels (skipBlanks behind)) value left)
    (followed : Followed (readFields levels) '\x7d' left fields rest) :
    Reads (readFields levels (.scalar '"' :: opened)) ((name, value) :: fields) rest := by
  obtain ⟨called, readName, rfl, rfl⟩ := named
  obtain ⟨first, read, rfl, rfl⟩ := reads
  rw [readFields, readName]
  dsimp only [bind, Except.bind]
  split
  · rename_i after inner
    obtain rfl : behind = after := (List.cons.inj (colon.symm.trans inner)).2
    simp only [read]
    rcases followed with ⟨closed, rfl⟩ | ⟨behind, comma, others, readOthers, rfl, rfl⟩
    · split
      · rename_i after inner
        obtain rfl : rest = after := (List.cons.inj (closed.symm.trans inner)).2
        exact ⟨_, rfl, rfl, rfl⟩
      · rename_i inner
        cases (List.cons.inj (closed.symm.trans inner)).1
      · rename_i other _
        exact (other rest closed).elim
    · split
      · rename_i inner
        cases (List.cons.inj (comma.symm.trans inner)).1
      · rename_i after inner
        obtain rfl : behind = after := (List.cons.inj (comma.symm.trans inner)).2
        simp only [readOthers]
        exact ⟨_, rfl, rfl, rfl⟩
      · rename_i _ other
        exact (other behind comma).elim
  · rename_i other
    exact (other behind colon).elim

end Steps

/-! ### Values -/

section Fronts

variable {levels : Nat} {value : Value} {values : List Value} {fields : List (Text × Value)}

theorem exists_spell (spellable : Spellable levels value) : ∃ point others,
    spell value = point :: others ∧ isBlank point = false ∧ point ≠ .scalar ']' ∧
      point ≠ .scalar '\uFEFF' := by
  cases spellable with
  | nothing _ => exact ⟨_, _, rfl, by decide⟩
  | truth _ value => cases value <;> exact ⟨_, _, rfl, by decide⟩
  | @whole _ number short =>
    obtain ⟨point, others, spelled, digit | ⟨rfl, -⟩⟩ := exists_decimal number
    · have other := ne_of_isDigit digit
      refine ⟨point, others, by rw [spell, spelled], ?_, other ']' rfl, other '\uFEFF' rfl⟩
      simp [isBlank, other ' ' rfl, other '\t' rfl, other '\n' rfl, other '\r' rfl]
    · exact ⟨_, others, by rw [spell, spelled], by decide⟩
  | text _ text => exact ⟨_, _, rfl, by decide⟩
  | list each => exact ⟨_, _, rfl, by decide⟩
  | record each distinct => exact ⟨_, _, rfl, by decide⟩

theorem skipBlanks_cons {point : CodePoint} (visible : isBlank point = false) (others : Text) :
    skipBlanks (point :: others) = point :: others :=
  List.dropWhile_cons_of_neg (by simp [visible])

theorem skipBlanks_spell (spellable : Spellable levels value) (rest : Text) :
    skipBlanks (spell value ++ rest) = spell value ++ rest := by
  obtain ⟨point, others, spelled, visible, -⟩ := exists_spell spellable
  rw [spelled]
  exact skipBlanks_cons visible _

theorem exists_spellItems (some : values ≠ []) (spellable : ∀ value ∈ values, Spellable levels value) :
    ∃ point others, spellItems values = point :: others ∧ isBlank point = false ∧
      point ≠ .scalar ']' := by
  obtain ⟨first, others, rfl⟩ := List.exists_cons_of_ne_nil some
  obtain ⟨point, behind, spelled, visible, item, -⟩ := exists_spell (spellable first List.mem_cons_self)
  cases others with
  | nil => exact ⟨point, _, by rw [spellItems, spelled], visible, item⟩
  | cons next others => exact ⟨point, _, by rw [spellItems, spelled]; rfl, visible, item⟩

theorem exists_spellFields (some : fields ≠ []) :
    ∃ others, spellFields fields = .scalar '"' :: others := by
  obtain ⟨⟨name, value⟩, others, rfl⟩ := List.exists_cons_of_ne_nil some
  cases others with
  | nil => exact ⟨_, rfl⟩
  | cons next others => exact ⟨_, rfl⟩

end Fronts

/-- The value is read from the front of what its document begins, and no more. -/
def ReadsBack (levels : Nat) (value : Value) : Prop :=
  ∀ rest, EndsNumber rest → Reads (readValue levels (spell value ++ rest)) value rest

section Runs

variable {levels : Nat} {values : List Value} {fields : List (Text × Value)}

theorem reads_spellItems (some : values ≠ []) (spellable : ∀ value ∈ values, Spellable levels value)
    (back : ∀ value ∈ values, ReadsBack levels value) (rest : Text) :
    Reads (readItems levels (skipBlanks (spellItems values ++ .scalar ']' :: rest))) values rest := by
  induction values with
  | nil => exact (some rfl).elim
  | cons value others ih =>
    rw [List.forall_mem_cons] at spellable back
    cases others with
    | nil =>
      rw [spellItems, skipBlanks_spell spellable.1]
      exact reads_items (back.1 _ (endsNumber_cons _ (by decide))) (.inl ⟨rfl, rfl⟩)
    | cons next others =>
      have behind := ih (List.cons_ne_nil _ _) spellable.2 back.2
      rw [spellItems, List.append_assoc, List.append_assoc, skipBlanks_spell spellable.1]
      exact reads_items (back.1 _ (endsNumber_cons _ (by decide))) (.inr ⟨_, rfl, behind⟩)

theorem reads_spellFields (some : fields ≠ []) (spellable : ∀ field ∈ fields, Spellable levels field.2)
    (back : ∀ field ∈ fields, ReadsBack levels field.2) (rest : Text) :
    Reads (readFields levels (skipBlanks (spellFields fields ++ .scalar '\x7d' :: rest))) fields rest := by
  induction fields with
  | nil => exact (some rfl).elim
  | cons field others ih =>
    rw [List.forall_mem_cons] at spellable back
    obtain ⟨name, value⟩ := field
    have here (behind : Text) (ends : EndsNumber behind) :
        Reads (readValue levels (skipBlanks (.scalar ' ' :: (spell value ++ behind)))) value behind := by
      show Reads (readValue levels (skipBlanks (spell value ++ behind))) value behind
      rw [skipBlanks_spell spellable.1]
      exact back.1 behind ends
    cases others with
    | nil =>
      rw [spellFields, List.append_assoc, List.append_assoc, spellText_append]
      exact reads_fields (reads_text _ _) rfl (here _ (endsNumber_cons _ (by decide)))
        (.inl ⟨rfl, rfl⟩)
    | cons next others =>
      have behind := ih (List.cons_ne_nil _ _) spellable.2 back.2
      rw [spellFields, List.append_assoc, List.append_assoc, List.append_assoc, List.append_assoc,
        spellText_append]
      exact reads_fields (reads_text _ _) rfl (here _ (endsNumber_cons _ (by decide)))
        (.inr ⟨_, rfl, behind⟩)

end Runs

/-- **A value is read back** from the front of what its document begins. -/
theorem readsBack_of_spellable {levels : Nat} {value : Value} (spellable : Spellable levels value) :
    ReadsBack levels value := by
  induction spellable with
  | nothing levels => exact fun rest _ => reads_word _ (by decide) rfl
  | truth levels value =>
    cases value with
    | false => exact fun rest _ => reads_word _ (by decide) rfl
    | true => exact fun rest _ => reads_word _ (by decide) rfl
  | whole levels short =>
    intro rest ends
    rw [spell]
    exact reads_decimal _ short ends
  | text levels text =>
    intro rest _
    obtain ⟨taken, read, value, left⟩ := reads_text text rest
    rw [spell, spellText_append, readValue, read]
    exact ⟨_, rfl, congrArg Value.text value, left⟩
  | @list levels values each ih =>
    intro rest _
    rw [spell, List.cons_append, List.cons_append, List.append_assoc]
    by_cases none : values = []
    · subst none
      exact reads_list_nil rfl
    · obtain ⟨point, others, spelled, visible, item⟩ := exists_spellItems none each
      refine reads_list ?_ (reads_spellItems none each ih rest)
      rw [spelled, List.cons_append, skipBlanks_cons visible]
      exact fun same => item (Option.some.inj same)
  | @record levels fields each distinct ih =>
    intro rest _
    rw [spell, List.cons_append, List.cons_append, List.append_assoc]
    by_cases none : fields = []
    · subst none
      exact reads_record_nil rfl
    · obtain ⟨others, spelled⟩ := exists_spellFields none
      have named : (skipBlanks (spellFields fields ++ .scalar '\x7d' :: rest)).head? =
          some (.scalar '"') := by
        rw [spelled]
        rfl
      have read := reads_record (by rw [named]; decide) (reads_spellFields none each ih rest)
      rwa [Record.ofFields_of_nodup distinct] at read

/-- **The document of a value** is read as the value. -/
theorem read_spell [Limits] {value : Value} (spellable : Spellable Limits.nesting value) :
    read (spell value) = .ok value := by
  obtain ⟨point, others, spelled, -, -, mark⟩ := exists_spell spellable
  have unmarked : ¬ (spell value).startsWith [.scalar '\uFEFF'] := by
    simp [spelled, Text.startsWith, mark.symm]
  have reads := readsBack_of_spellable spellable [] endsNumber_nil
  rw [← skipBlanks_spell spellable, List.append_nil] at reads
  obtain ⟨taken, read, value, left⟩ := reads
  unfold Json.read
  simp only [if_neg unmarked, read, left]
  exact congrArg Except.ok value

end Json
end Splice
