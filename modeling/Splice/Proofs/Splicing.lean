/-
**Emission as splicing.**

An emission walks over the text once, from left to right, with a cursor. Its outcome is described in
two ways that know no cursor:

* `spliceAll`: the edits that take effect are put into the text one after another, from the last to
  the first, each by cutting its range out and putting its text in;
* `outputAt`: what comes out at an offset, namely the texts of the insertions there, the text of the
  replacement that starts there, and the character there unless a replacement covers it.

`Draft.render_splices` says that both give the text that is emitted. For edits that lie in a row the
walk that is left to do from an offset on is the invariant: `spliceAll_eq_weave` puts the text in
front of the offset before it, and `weave_eq_outputBetween` reads it off offset by offset.
-/

import Mathlib
import Splice.Proofs.Walk

namespace Splice

/-! ### Splicing one edit after another -/

/-- The text with another one in the place of the range of an edit. -/
def splice (text : Text) (edit : Edit) (inserted : Text) : Text :=
  text.slice 0 edit.start ++ inserted ++ text.slice edit.stop text.length

/-- The text with all edits spliced in, the last one first. -/
def spliceAll (text : Text) (rendered : List (Edit × Text)) : Text :=
  rendered.foldr (fun (edit, inserted) spliced => splice spliced edit inserted) text

variable {text : Text} {rendered : List (Edit × Text)} {offset : Int}

/-- Splicing changes only what lies behind the start of the edit. -/
theorem splice_slice_append {edit : Edit} {inserted back : Text} (nonneg : 0 ≤ edit.start)
    (upright : edit.start ≤ edit.stop) (inside : edit.stop ≤ text.length) :
    splice (text.slice 0 edit.stop ++ back) edit inserted =
      text.slice 0 edit.start ++ (inserted ++ back) := by
  have size : (text.slice 0 edit.stop).length = edit.stop.toNat := by
    rw [Text.slice_zero (by omega) inside, List.length_take]
    omega
  have total : ((text.slice 0 edit.stop ++ back).length : Int) = edit.stop + back.length := by
    rw [List.length_append, size]
    omega
  unfold splice
  rw [Text.slice_zero nonneg (by omega), Text.slice_length (by omega) (by omega),
    List.drop_append_of_le_length (by omega), List.drop_of_length_le (by omega), List.nil_append,
    List.take_append_of_le_length (by omega), Text.slice_zero (by omega) inside, List.take_take,
    Nat.min_eq_left (by omega), Text.slice_zero nonneg (by omega), List.append_assoc]

/-- **Splicing leaves the text in front of the edits alone**, and turns the rest into the walk that
is left to do. -/
theorem spliceAll_eq_weave (laid : Laid text.length offset (rendered.map Prod.fst))
    (nonneg : 0 ≤ offset) :
    spliceAll text rendered = text.slice 0 offset ++ weave text offset rendered := by
  induction rendered generalizing offset with
  | nil =>
    have inside : offset ≤ text.length := laid
    rw [weave, Text.between_eq_slice nonneg inside (Int.le_refl _),
      Text.slice_append_slice (Int.le_refl _) nonneg inside (Int.le_refl _),
      Text.slice_length (Int.le_refl _) (Int.natCast_nonneg _)]
    rfl
  | cons pair rest ih =>
    obtain ⟨edit, inserted⟩ := pair
    obtain ⟨front, upright, others⟩ := laid_cons.mp laid
    have inside := others.le_size
    show splice (spliceAll text rest) edit inserted = _
    rw [ih others (by omega), splice_slice_append (by omega) upright inside, weave,
      Text.between_eq_slice nonneg front (by omega), ← List.append_assoc (text.slice 0 offset),
      Text.slice_append_slice (Int.le_refl _) nonneg front (by omega)]

/-! ### What comes out at an offset -/

/-- The edit is an insertion at the offset. -/
def Edit.insertsAt (offset : Nat) (edit : Edit) : Bool := edit.isInsertion && edit.start == offset

/-- The edit is a replacement that starts at the offset. -/
def Edit.replacesFrom (offset : Nat) (edit : Edit) : Bool :=
  !edit.isInsertion && edit.start == offset

/-- The offset lies in the range of the edit. -/
def Edit.covers (offset : Nat) (edit : Edit) : Bool :=
  decide (edit.start ≤ offset) && decide (offset < edit.stop)

/-- The texts of the edits that pass a test, one after another. -/
def textsOf (test : Edit → Bool) (rendered : List (Edit × Text)) : Text :=
  (rendered.filter fun pair => test pair.1).flatMap Prod.snd

/-- The texts of the insertions at an offset. -/
def insertedAt (rendered : List (Edit × Text)) (offset : Nat) : Text :=
  textsOf (Edit.insertsAt offset) rendered

/-- The text of the replacement that starts at an offset, if one does. -/
def replacedAt (rendered : List (Edit × Text)) (offset : Nat) : Text :=
  textsOf (Edit.replacesFrom offset) rendered

/-- The character at an offset, unless an edit covers it. -/
def keptAt (text : Text) (rendered : List (Edit × Text)) (offset : Nat) : Text :=
  if rendered.any fun pair => pair.1.covers offset then [] else text[offset]?.toList

/-- What comes out at an offset. -/
def outputAt (text : Text) (rendered : List (Edit × Text)) (offset : Nat) : Text :=
  insertedAt rendered offset ++ replacedAt rendered offset ++ keptAt text rendered offset

/-- What comes out from one offset up to another. -/
def outputBetween (text : Text) (rendered : List (Edit × Text)) (first stop : Nat) : Text :=
  (List.range' first (stop - first)).flatMap (outputAt text rendered)

namespace Edit

variable {edit : Edit} {place : Nat}

theorem insertsAt_iff :
    edit.insertsAt place = true ↔ edit.start = edit.stop ∧ edit.start = place := by
  simp [insertsAt, isInsertion_iff]

theorem replacesFrom_iff :
    edit.replacesFrom place = true ↔ edit.start ≠ edit.stop ∧ edit.start = place := by
  simp [replacesFrom, isInsertion_eq_false_iff]

theorem covers_iff : edit.covers place = true ↔ edit.start ≤ place ∧ place < edit.stop := by
  simp [covers]

/-- The edit has nothing to do with the offset. -/
def Silent (place : Nat) (edit : Edit) : Prop :=
  edit.insertsAt place = false ∧ edit.replacesFrom place = false ∧ edit.covers place = false

theorem silent_iff : edit.Silent place ↔ edit.start ≠ place ∧
    (edit.start ≤ place → edit.stop ≤ place) := by
  unfold Silent
  simp only [← Bool.not_eq_true, insertsAt_iff, replacesFrom_iff, covers_iff]
  omega

end Edit

/-! ### Outputs of a part of the edits -/

section Outputs

variable {before after : List (Edit × Text)} {edit : Edit} {inserted : Text} {place : Nat}

theorem textsOf_append (test : Edit → Bool) (before after : List (Edit × Text)) :
    textsOf test (before ++ after) = textsOf test before ++ textsOf test after := by
  unfold textsOf
  rw [List.filter_append, List.flatMap_append]

theorem textsOf_cons_of_pos {test : Edit → Bool} (passed : test edit = true) :
    textsOf test ((edit, inserted) :: after) = inserted ++ textsOf test after := by
  unfold textsOf
  rw [List.filter_cons_of_pos (by exact passed), List.flatMap_cons]

theorem textsOf_cons_of_neg {test : Edit → Bool} (failed : test edit = false) :
    textsOf test ((edit, inserted) :: after) = textsOf test after := by
  unfold textsOf
  rw [List.filter_cons_of_neg (by simp [failed])]

theorem textsOf_eq_nil {test : Edit → Bool} (failed : ∀ pair ∈ rendered, test pair.1 = false) :
    textsOf test rendered = [] := by
  unfold textsOf
  rw [List.filter_eq_nil_iff.mpr fun pair member => by simp [failed pair member], List.flatMap_nil]

theorem outputAt_cons_of_silent (silent : edit.Silent place) :
    outputAt text ((edit, inserted) :: after) place = outputAt text after place := by
  obtain ⟨inserts, replaces, covers⟩ := silent
  unfold outputAt insertedAt replacedAt keptAt
  rw [textsOf_cons_of_neg inserts, textsOf_cons_of_neg replaces, List.any_cons, covers,
    Bool.false_or]

/-- An insertion comes out in front of all else at its offset. -/
theorem outputAt_cons_of_insertsAt (inserts : edit.insertsAt place = true) :
    outputAt text ((edit, inserted) :: after) place = inserted ++ outputAt text after place := by
  have replaces : edit.replacesFrom place = false := by
    rw [← Bool.not_eq_true, Edit.replacesFrom_iff]
    rw [Edit.insertsAt_iff] at inserts
    omega
  have covers : edit.covers place = false := by
    rw [← Bool.not_eq_true, Edit.covers_iff]
    rw [Edit.insertsAt_iff] at inserts
    omega
  unfold outputAt insertedAt replacedAt keptAt
  rw [textsOf_cons_of_pos inserts, textsOf_cons_of_neg replaces, List.any_cons, covers,
    Bool.false_or]
  simp only [List.append_assoc]

theorem outputAt_eq_char (silent : ∀ pair ∈ rendered, pair.1.Silent place) :
    outputAt text rendered place = text[place]?.toList := by
  induction rendered with
  | nil => rfl
  | cons pair rest ih =>
    rw [outputAt_cons_of_silent (silent pair List.mem_cons_self)]
    exact ih fun other member => silent other (List.mem_cons_of_mem _ member)

/-- Where a replacement covers an offset, no character comes out. -/
theorem keptAt_eq_nil (member : (edit, inserted) ∈ rendered) (covers : edit.covers place = true) :
    keptAt text rendered place = [] := by
  unfold keptAt
  rw [if_pos (List.any_eq_true.mpr ⟨(edit, inserted), member, covers⟩)]

/-! ### Outputs of a range of offsets -/

theorem outputBetween_split {first middle stop : Nat} (front : first ≤ middle)
    (back : middle ≤ stop) :
    outputBetween text rendered first stop =
      outputBetween text rendered first middle ++ outputBetween text rendered middle stop := by
  unfold outputBetween
  rw [← List.flatMap_append, show List.range' middle (stop - middle) =
    List.range' (first + (middle - first)) (stop - middle) by congr 1; omega,
    List.range'_append_1, show middle - first + (stop - middle) = stop - first by omega]

theorem outputBetween_head {first stop : Nat} (room : first < stop) :
    outputBetween text rendered first stop =
      outputAt text rendered first ++ outputBetween text rendered (first + 1) stop := by
  unfold outputBetween
  rw [show stop - first = stop - (first + 1) + 1 by omega, List.range'_succ, List.flatMap_cons]

theorem outputBetween_congr {others : List (Edit × Text)} {first stop : Nat}
    (same : ∀ place, first ≤ place → place < stop →
      outputAt text rendered place = outputAt text others place) :
    outputBetween text rendered first stop = outputBetween text others first stop := by
  unfold outputBetween
  refine List.flatMap_congr fun place member => ?_
  rw [List.mem_range'_1] at member
  exact same place member.1 (by omega)

theorem outputBetween_eq_nil {first stop : Nat}
    (silent : ∀ place, first ≤ place → place < stop → outputAt text rendered place = []) :
    outputBetween text rendered first stop = [] := by
  unfold outputBetween
  refine List.flatMap_eq_nil_iff.mpr fun place member => ?_
  rw [List.mem_range'_1] at member
  exact silent place member.1 (by omega)

/-- Where no edit has a say, the text comes out as it stands. -/
theorem outputBetween_eq_slice {first stop : Nat} (inside : stop ≤ text.length)
    (silent : ∀ place, first ≤ place → place < stop → ∀ pair ∈ rendered, pair.1.Silent place) :
    outputBetween text rendered first stop = (text.drop first).take (stop - first) := by
  generalize room : stop - first = count
  induction count generalizing first with
  | zero =>
    unfold outputBetween
    rw [room]
    rfl
  | succ count ih =>
    have bound : first < text.length := by omega
    have here : text[first]? = some text[first] := List.getElem?_eq_getElem bound
    rw [outputBetween_head (by omega), ih (fun place front => silent place (by omega)) (by omega),
      outputAt_eq_char (silent first (Nat.le_refl _) (by omega)), List.drop_eq_getElem_cons bound,
      List.take_succ_cons, here]
    rfl

/-! ### Outputs of edits in a row -/

/-- An offset in front of edits in a row is none of their business. -/
theorem Laid.silent {size : Int} {edits : List Edit} (laid : Laid size offset edits)
    (ahead : place < offset) : ∀ edit ∈ edits, edit.Silent place := by
  intro edit member
  have := laid.bounds edit member
  rw [Edit.silent_iff]
  omega

/-- Up to edits in a row the text comes out as it stands. -/
theorem outputBetween_approach {start : Int} (laid : Laid text.length start (rendered.map Prod.fst))
    (nonneg : 0 ≤ offset) (front : offset ≤ start) :
    outputBetween text rendered offset.toNat start.toNat = text.between offset start := by
  have inside := laid.le_size
  rw [Text.between_eq_slice nonneg front inside, Text.slice_of_nonneg nonneg front inside,
    outputBetween_eq_slice (by omega)]
  intro place _ ahead pair member
  exact laid.silent (by omega) pair.1 (List.mem_map_of_mem member)

section Range

variable (ahead : ∀ pair ∈ before, pair.1.start ≤ pair.1.stop ∧ pair.1.stop ≤ edit.start)
  (behind : ∀ pair ∈ after, edit.stop ≤ pair.1.start) (extent : edit.start < edit.stop)

include ahead behind extent

/-- No other replacement starts where a replacement does. -/
theorem replacedAt_start (nonneg : 0 ≤ edit.start) :
    replacedAt (before ++ (edit, inserted) :: after) edit.start.toNat = inserted := by
  have starts : edit.replacesFrom edit.start.toNat = true :=
    Edit.replacesFrom_iff.mpr ⟨by omega, by omega⟩
  unfold replacedAt
  rw [textsOf_append, textsOf_eq_nil, textsOf_cons_of_pos starts, textsOf_eq_nil,
    List.append_nil, List.nil_append]
  · intro pair member
    have := behind pair member
    rw [← Bool.not_eq_true, Edit.replacesFrom_iff]
    omega
  · intro pair member
    have := ahead pair member
    rw [← Bool.not_eq_true, Edit.replacesFrom_iff]
    omega

/-- Nothing comes out strictly inside the range of a replacement. -/
theorem outputAt_inside (start : edit.start < place) (stop : place < edit.stop) :
    outputAt text (before ++ (edit, inserted) :: after) place = [] := by
  have others : ∀ pair ∈ before ++ (edit, inserted) :: after,
      pair.1.insertsAt place = false ∧ pair.1.replacesFrom place = false := by
    intro pair member
    simp only [← Bool.not_eq_true, Edit.insertsAt_iff, Edit.replacesFrom_iff]
    rcases List.mem_append.mp member with member | member
    · have := ahead pair member
      omega
    · rcases List.mem_cons.mp member with rfl | member
      · show ¬ (edit.start = edit.stop ∧ _) ∧ ¬ (_ ∧ edit.start = _)
        omega
      · have := behind pair member
        omega
  have covers : edit.covers place = true := Edit.covers_iff.mpr ⟨by omega, stop⟩
  unfold outputAt insertedAt replacedAt
  rw [textsOf_eq_nil fun pair member => (others pair member).1,
    textsOf_eq_nil fun pair member => (others pair member).2,
    keptAt_eq_nil (List.mem_append_right _ List.mem_cons_self) covers]
  rfl

end Range

/-- **The range of a replacement.** From its start up to its end there come out the insertions at
its start and its text, nothing else. -/
theorem outputBetween_replacement
    (laid : Laid text.length offset ((before ++ (edit, inserted) :: after).map Prod.fst))
    (nonneg : 0 ≤ offset) (proper : edit.isInsertion = false) :
    outputBetween text (before ++ (edit, inserted) :: after) edit.start.toNat edit.stop.toNat =
      insertedAt (before ++ (edit, inserted) :: after) edit.start.toNat ++ inserted := by
  have row : Laid text.length offset (before.map Prod.fst ++ edit :: after.map Prod.fst) := by
    simpa using laid
  obtain ⟨earlier, front, upright, later⟩ := row.split
  have differ := (Edit.isInsertion_eq_false_iff edit).mp proper
  have extent : edit.start < edit.stop := by omega
  have ahead : ∀ pair ∈ before, pair.1.start ≤ pair.1.stop ∧ pair.1.stop ≤ edit.start :=
    fun pair member => earlier pair.1 (List.mem_map_of_mem member)
  have behind : ∀ pair ∈ after, edit.stop ≤ pair.1.start :=
    fun pair member => (later.bounds pair.1 (List.mem_map_of_mem member)).1
  have covers : edit.covers edit.start.toNat = true := Edit.covers_iff.mpr ⟨by omega, by omega⟩
  have inside : outputBetween text (before ++ (edit, inserted) :: after) (edit.start.toNat + 1)
      edit.stop.toNat = [] :=
    outputBetween_eq_nil fun place start stop =>
      outputAt_inside ahead behind extent (by omega) (by omega)
  rw [outputBetween_head (by omega), inside, outputAt,
    replacedAt_start ahead behind extent (by omega),
    keptAt_eq_nil (List.mem_append_right _ List.mem_cons_self) covers, List.append_nil,
    List.append_nil]

/-- Behind an edit the outputs are those of the edits behind it. -/
theorem outputBetween_behind {first stop : Nat} (start : edit.start < first)
    (behind : edit.stop ≤ first) :
    outputBetween text ((edit, inserted) :: after) first stop =
      outputBetween text after first stop := by
  refine outputBetween_congr fun place front _ => outputAt_cons_of_silent ?_
  rw [Edit.silent_iff]
  omega

/-- **One edit.** From its start on there come out its text and what comes out from its end on. -/
theorem outputBetween_cons
    (laid : Laid text.length edit.start (((edit, inserted) :: after).map Prod.fst))
    (nonneg : 0 ≤ edit.start) :
    outputBetween text ((edit, inserted) :: after) edit.start.toNat (text.length + 1) =
      inserted ++ outputBetween text after edit.stop.toNat (text.length + 1) := by
  obtain ⟨_, upright, others⟩ := laid_cons.mp laid
  have inside := others.le_size
  cases point : edit.isInsertion with
  | true =>
    have same := (Edit.isInsertion_iff edit).mp point
    have inserts : edit.insertsAt edit.start.toNat = true :=
      Edit.insertsAt_iff.mpr ⟨same, by omega⟩
    have room : edit.start.toNat < text.length + 1 := by omega
    rw [← same, outputBetween_head room, outputAt_cons_of_insertsAt inserts,
      outputBetween_behind (by omega) (by omega), outputBetween_head room,
      List.append_assoc]
  | false =>
    have extent := (Edit.isInsertion_eq_false_iff edit).mp point
    have nothing : insertedAt ((edit, inserted) :: after) edit.start.toNat = [] := by
      refine textsOf_eq_nil fun pair member => ?_
      rw [← Bool.not_eq_true, Edit.insertsAt_iff]
      rcases List.mem_cons.mp member with rfl | member
      · exact fun both => extent both.1
      · have := (others.bounds pair.1 (List.mem_map_of_mem member)).1
        omega
    have range := @outputBetween_replacement text edit.start [] after edit inserted laid nonneg point
    rw [List.nil_append, nothing, List.nil_append] at range
    rw [outputBetween_split (show edit.start.toNat ≤ edit.stop.toNat by omega) (by omega), range,
      outputBetween_behind (by omega) (by omega)]

/-- **The walk, offset by offset.** -/
theorem weave_eq_outputBetween (laid : Laid text.length offset (rendered.map Prod.fst))
    (nonneg : 0 ≤ offset) :
    weave text offset rendered =
      outputBetween text rendered offset.toNat (text.length + 1) := by
  induction rendered generalizing offset with
  | nil =>
    have inside : offset ≤ text.length := laid
    have rest : Laid text.length text.length (([] : List (Edit × Text)).map Prod.fst) :=
      Int.le_refl _
    have approach := outputBetween_approach rest nonneg inside
    rw [Int.toNat_natCast] at approach
    rw [weave, outputBetween_split (show offset.toNat ≤ text.length by omega) (Nat.le_succ _),
      approach, outputBetween_head (Nat.lt_succ_self _)]
    simp [outputBetween, outputAt_eq_char]
  | cons pair rest ih =>
    obtain ⟨edit, inserted⟩ := pair
    obtain ⟨front, upright, others⟩ := laid_cons.mp laid
    have inside := others.le_size
    have fromHere : Laid text.length edit.start (((edit, inserted) :: rest).map Prod.fst) :=
      ⟨Int.le_refl _, upright, others⟩
    rw [weave, ih others (by omega), ← outputBetween_approach fromHere nonneg front,
      ← outputBetween_cons fromHere (by omega)]
    exact (outputBetween_split (by omega) (by omega)).symm

end Outputs

/-! ### Emission -/

section Emission

variable {edits kept : List Edit}

/-- Insertions at one offset are kept in the order of their registration numbers. -/
theorem Plan.insertions_by_order (planned : (Plan.ofEdits edits).result = .ok kept) (place : Nat) :
    (kept.filter (Edit.insertsAt place)).Pairwise fun first second => first.order ≤ second.order := by
  rw [List.pairwise_filter]
  refine (Plan.kept_precedes planned).imp fun {first second} ahead inserts inserts' => ?_
  rw [Edit.insertsAt_iff] at inserts inserts'
  rw [Edit.precedes_iff] at ahead
  omega

/-- At most one of the replacements that are kept starts at an offset. -/
theorem Plan.one_replacement (planned : (Plan.ofEdits edits).result = .ok kept)
    (upright : ∀ edit ∈ edits, edit.start ≤ edit.stop) (place : Nat) :
    (kept.filter (Edit.replacesFrom place)).length ≤ 1 := by
  have apart : (kept.filter (Edit.replacesFrom place)).Pairwise fun _ _ => False := by
    rw [List.pairwise_filter]
    refine (Plan.kept_disjoint planned).imp_of_mem ?_
    intro first second member _ disjoint here here'
    have := upright first (Plan.kept_mem planned first member)
    rw [Edit.replacesFrom_iff] at here here'
    omega
  match kept.filter (Edit.replacesFrom place), apart with
  | [], _ => exact Nat.zero_le _
  | [_], _ => exact Nat.le_refl _
  | _ :: second :: _, apart => exact ((List.pairwise_cons.mp apart).1 second List.mem_cons_self).elim

/-- **What is emitted.** If the edits that take effect all give a text, then the text emitted

* is what is left of the text once they have been spliced into it, from the last to the first;
* consists of what comes out at the offsets, in order, where the insertions at one offset stand by
  order and at most one replacement starts;
* has behind the text of each replacement what comes out at the offset where the replacement ends,
  and nothing else in the place of its range. -/
theorem Draft.render_splices {draft : Draft} {context : Context} {history : History}
    {kept : List Edit} {texts : List Text}
    (within : ∀ edit ∈ draft.edits, edit.span.within draft.text.length = true)
    (planned : draft.plan.result = .ok kept) (answered : answers context history kept = .ok texts) :
    (draft.render context history).result = .ok (spliceAll draft.text (kept.zip texts)) ∧
      spliceAll draft.text (kept.zip texts) =
        outputBetween draft.text (kept.zip texts) 0 (draft.text.length + 1) ∧
      (∀ place,
        ((kept.filter (Edit.insertsAt place)).Pairwise fun first second =>
          first.order ≤ second.order) ∧
        (kept.filter (Edit.replacesFrom place)).length ≤ 1) ∧
      ∀ edit inserted, (edit, inserted) ∈ kept.zip texts → edit.isInsertion = false →
        spliceAll draft.text (kept.zip texts) =
          outputBetween draft.text (kept.zip texts) 0 edit.start.toNat ++
            (insertedAt (kept.zip texts) edit.start.toNat ++ inserted) ++
            outputAt draft.text (kept.zip texts) edit.stop.toNat ++
            outputBetween draft.text (kept.zip texts) (edit.stop.toNat + 1)
              (draft.text.length + 1) := by
  have fronts : (kept.zip texts).map Prod.fst = kept :=
    List.map_fst_zip (Nat.le_of_eq (length_answers answered).symm)
  have inside : ∀ edit ∈ draft.edits,
      0 ≤ edit.start ∧ edit.start ≤ edit.stop ∧ edit.stop ≤ draft.text.length :=
    fun edit member => (Edit.within_iff _ _).mp (within edit member)
  have laid : Laid draft.text.length 0 ((kept.zip texts).map Prod.fst) := by
    rw [fronts]
    exact Plan.laid_of_ok planned (Int.natCast_nonneg _) inside
  have spliced : spliceAll draft.text (kept.zip texts) = weave draft.text 0 (kept.zip texts) := by
    rw [spliceAll_eq_weave laid (Int.le_refl _),
      Text.slice_self (Int.le_refl _) (Int.natCast_nonneg _), List.nil_append]
  have placed := spliced.trans (weave_eq_outputBetween laid (Int.le_refl _))
  refine ⟨?_, placed, fun place => ⟨Plan.insertions_by_order planned place, ?_⟩, ?_⟩
  · rw [Draft.render_result, planned, spliced]
    simp only [answered, Except.map, Except.mapError]
  · exact Plan.one_replacement planned (fun edit member => (inside edit member).2.1) place
  · intro edit inserted member proper
    obtain ⟨before, after, parts⟩ := List.append_of_mem member
    have range := outputBetween_replacement (parts ▸ laid) (Int.le_refl _) proper
    have bounds := laid.bounds edit (List.mem_map_of_mem (f := Prod.fst) member)
    rw [← parts] at range
    rw [placed, Int.toNat_zero, ← range,
      outputBetween_split (Nat.zero_le _) (show edit.start.toNat ≤ draft.text.length + 1 by omega),
      outputBetween_split (show edit.start.toNat ≤ edit.stop.toNat by omega)
        (show edit.stop.toNat ≤ draft.text.length + 1 by omega),
      outputBetween_head (show edit.stop.toNat < draft.text.length + 1 by omega)]
    simp only [List.append_assoc]

/-- A draft with a replacement inside another one, insertions on both of its edges, and a deletion up
to the end of the text. -/
def edgedDraft : Draft :=
  ⟨"abcdefg", [⟨⟨3, 4⟩, 1, .fixed "in"⟩, ⟨⟨2, 5⟩, 2, .fixed "OUT"⟩, ⟨⟨5, 5⟩, 3, .counted 1 "#"⟩,
    ⟨⟨2, 2⟩, 4, .counted 1 "#"⟩, ⟨⟨5, 7⟩, 5, .fixed ""⟩]⟩

/-- The edits of the draft that take effect. -/
def edgedKept : List Edit :=
  [⟨⟨2, 2⟩, 4, .counted 1 "#"⟩, ⟨⟨2, 5⟩, 2, .fixed "OUT"⟩, ⟨⟨5, 5⟩, 3, .counted 1 "#"⟩,
    ⟨⟨5, 7⟩, 5, .fixed ""⟩]

theorem Draft.render_splices_edged :
    (∀ edit ∈ edgedDraft.edits, edit.span.within edgedDraft.text.length = true) ∧
      edgedDraft.plan.result = .ok edgedKept ∧
      answers none [] edgedKept = .ok ["#1", "OUT", "#2", ""] ∧
      (edgedDraft.render none []).result = .ok "ab#1OUT#2" := by
  have within : ∀ edit ∈ edgedDraft.edits, edit.span.within edgedDraft.text.length = true := by
    decide
  have planned : edgedDraft.plan.result = .ok edgedKept := by cbv
  have answered : answers none [] edgedKept = .ok ["#1", "OUT", "#2", ""] := rfl
  refine ⟨within, planned, answered, ?_⟩
  rw [(Draft.render_splices within planned answered).1]
  rfl

end Emission

end Splice
