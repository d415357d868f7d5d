/-
**What an emission amounts to.**

An emission takes its text from two sources, the answers of the edits that take effect and the parts
of the text between them. With the answers at hand the outcome is a plain function of both:

* `answers`: the texts of edits that are asked in order, or the first fault;
* `weave`: texts in the places of edits, with the parts of the text between them;
* `Draft.render_result`: an emission is refused if the plan is, fails where an answer fails, and
  otherwise weaves the answers into the text.

Edits that are kept lie in a row (`Laid`, `Plan.laid_of_ok`), so that the parts between them are
slices with ascending ends.
-/

import Splice.Emission
import Splice.Proofs.Sweep

namespace Splice

/-! ### Slices -/

namespace Text

/-- The part from one offset up to a later one, empty if it is not later. -/
def between (text : Text) (first stop : Int) : Text :=
  if first < stop then text.slice first stop else []

variable {text : Text} {first middle stop : Int}

theorem clamp_of_nonneg {size : Nat} {offset : Int} (nonneg : 0 ≤ offset) :
    clamp size offset = min offset.toNat size := by
  unfold clamp
  rw [if_neg (by omega)]

theorem slice_of_nonneg (nonneg : 0 ≤ first) (ascending : first ≤ stop)
    (inside : stop ≤ text.length) :
    text.slice first stop = (text.drop first.toNat).take (stop.toNat - first.toNat) := by
  unfold slice
  rw [clamp_of_nonneg nonneg, clamp_of_nonneg (Int.le_trans nonneg ascending),
    Nat.min_eq_left (by omega), Nat.min_eq_left (by omega)]

theorem slice_self (nonneg : 0 ≤ first) (inside : first ≤ text.length) :
    text.slice first first = [] := by
  rw [slice_of_nonneg nonneg (Int.le_refl _) inside, Nat.sub_self, List.take_zero]

theorem slice_append_slice (nonneg : 0 ≤ first) (front : first ≤ middle) (back : middle ≤ stop)
    (inside : stop ≤ text.length) :
    text.slice first middle ++ text.slice middle stop = text.slice first stop := by
  rw [slice_of_nonneg nonneg front (by omega), slice_of_nonneg (by omega) back inside,
    slice_of_nonneg nonneg (by omega) inside,
    show middle.toNat = first.toNat + (middle.toNat - first.toNat) by omega, ← List.drop_drop,
    show stop.toNat - first.toNat = (middle.toNat - first.toNat) +
      (stop.toNat - (first.toNat + (middle.toNat - first.toNat))) by omega, List.take_add,
    Nat.add_sub_cancel_left]

theorem slice_zero (inside : 0 ≤ stop) (within : stop ≤ text.length) :
    text.slice 0 stop = text.take stop.toNat := by
  rw [slice_of_nonneg (Int.le_refl _) inside within, Int.toNat_zero, List.drop_zero, Nat.sub_zero]

theorem slice_length (nonneg : 0 ≤ first) (inside : first ≤ text.length) :
    text.slice first text.length = text.drop first.toNat := by
  rw [slice_of_nonneg nonneg inside (Int.le_refl _), List.take_of_length_le]
  rw [List.length_drop]
  omega

theorem between_eq_slice (nonneg : 0 ≤ first) (ascending : first ≤ stop)
    (inside : stop ≤ text.length) : text.between first stop = text.slice first stop := by
  unfold between
  by_cases later : first < stop
  · rw [if_pos later]
  · obtain rfl : first = stop := by omega
    rw [if_neg later, slice_self nonneg inside]

end Text

/-! ### Answers and weaving -/

/-- The texts of edits that are asked in order, or the first fault. -/
def answers (context : Context) (history : History) : List Edit → Except RenderFault (List Text)
  | [] => .ok []
  | edit :: rest =>
    match edit.replacement.ask context history with
    | .error fault => .error fault
    | .ok text => (answers context (history ++ [edit.replacement.key]) rest).map (text :: ·)

/-- Texts in the places of edits, with the parts of the text between them, from an offset on. -/
def weave (text : Text) (offset : Int) : List (Edit × Text) → Text
  | [] => text.between offset text.length
  | (edit, inserted) :: rest =>
    text.between offset edit.start ++ (inserted ++ weave text edit.stop rest)

variable {context : Context} {history : History}

/-- Only the replacements of edits matter to their answers. -/
theorem answers_map {change : Edit → Edit}
    (same : ∀ edit, (change edit).replacement = edit.replacement) (history : History)
    (edits : List Edit) :
    answers context history (edits.map change) = answers context history edits := by
  induction edits generalizing history with
  | nil => rfl
  | cons edit rest ih => rw [List.map_cons, answers, answers, same, ih]

/-- Only the ranges of edits matter to where texts are woven in. -/
theorem weave_map {change : Edit → Edit} (same : ∀ edit, (change edit).span = edit.span)
    (text : Text) (offset : Int) (edits : List Edit) (texts : List Text) :
    weave text offset ((edits.map change).zip texts) = weave text offset (edits.zip texts) := by
  induction edits generalizing offset texts with
  | nil => rfl
  | cons edit rest ih =>
    cases texts with
    | nil => rfl
    | cons inserted others =>
      rw [List.map_cons, List.zip_cons_cons, List.zip_cons_cons, weave, weave, ih, Edit.start,
        Edit.stop, same]

theorem length_answers {edits : List Edit} {texts : List Text}
    (answered : answers context history edits = .ok texts) : texts.length = edits.length := by
  induction edits generalizing history texts with
  | nil =>
    cases answered
    rfl
  | cons edit rest ih =>
    unfold answers at answered
    split at answered
    · cases answered
    · rename_i text _
      cases others : answers context (history ++ [edit.replacement.key]) rest with
      | error fault =>
        rw [others] at answered
        cases answered
      | ok texts =>
        rw [others] at answered
        cases answered
        rw [List.length_cons, List.length_cons, ih others]

theorem gather_kept_if (condition : Prop) [Decidable condition] (part : Text)
    (way : List Stretch) :
    (gather context history ((if condition then [.kept part] else []) ++ way)).result =
      (gather context history way).result.map ((if condition then part else []) ++ ·) := by
  by_cases holds : condition
  · simp only [if_pos holds, List.singleton_append, gather, Rendering.withPart]
  · simp only [if_neg holds, List.nil_append]
    cases (gather context history way).result <;> rfl

/-- **A walk weaves answers into the text.** -/
theorem gather_result (text : Text) (offset : Int) (kept : List Edit) :
    (gather context history (stretches text offset kept)).result =
      ((answers context history kept).map fun texts =>
        weave text offset (kept.zip texts)).mapError .render := by
  induction kept generalizing offset history with
  | nil =>
    have tail := @gather_kept_if context history (offset < text.length) _
      (text.slice offset text.length) []
    rw [List.append_nil] at tail
    rw [stretches, tail]
    simp only [gather, Except.map, List.append_nil, answers, weave, Text.between, List.zip_nil_left,
      Except.mapError]
  | cons edit rest ih =>
    rw [stretches, gather_kept_if]
    simp only [gather, answers]
    cases edit.replacement.ask context history with
    | error fault => rfl
    | ok inserted =>
      simp only [Rendering.asking, Rendering.withPart, ih]
      cases answers context (history ++ [edit.replacement.key]) rest with
      | error fault => rfl
      | ok texts => rfl

namespace Draft

variable {draft : Draft}

theorem walk_of_error {clash : Clash} (refused : draft.plan.result = .error clash) :
    draft.walk = (draft.plan.events, .error (.overlap clash)) := by
  simp only [walk, refused]

theorem walk_of_ok {kept : List Edit} (planned : draft.plan.result = .ok kept) :
    draft.walk = (draft.plan.events ++ [.emitting draft.edits.length kept.length],
      .ok (stretches draft.text 0 kept)) := by
  simp only [walk, planned]

/-- **The outcome of an emission.** -/
theorem render_result (draft : Draft) :
    (draft.render context history).result =
      match draft.plan.result with
      | .error clash => .error (.overlap clash)
      | .ok kept => ((answers context history kept).map fun texts =>
          weave draft.text 0 (kept.zip texts)).mapError .render := by
  cases planned : draft.plan.result with
  | error clash =>
    unfold render
    rw [walk_of_error planned]
  | ok kept =>
    unfold render
    rw [walk_of_ok planned]
    exact gather_result draft.text 0 kept

end Draft

/-! ### Edits in a row -/

/-- Edits that lie one behind the other, from an offset on and up to a size. -/
def Laid (size : Int) : Int → List Edit → Prop
  | offset, [] => offset ≤ size
  | offset, edit :: rest => offset ≤ edit.start ∧ edit.start ≤ edit.stop ∧ Laid size edit.stop rest

theorem laid_cons {size offset : Int} {edit : Edit} {inserted : Text}
    {rendered : List (Edit × Text)} :
    Laid size offset (((edit, inserted) :: rendered).map Prod.fst) ↔
      offset ≤ edit.start ∧ edit.start ≤ edit.stop ∧ Laid size edit.stop (rendered.map Prod.fst) :=
  Iff.rfl

namespace Laid

variable {size offset : Int} {edits : List Edit}

theorem le_size (laid : Laid size offset edits) : offset ≤ size := by
  induction edits generalizing offset with
  | nil => exact laid
  | cons edit rest ih =>
    obtain ⟨front, upright, others⟩ := laid
    have := ih others
    omega

theorem bounds (laid : Laid size offset edits) :
    ∀ edit ∈ edits, offset ≤ edit.start ∧ edit.start ≤ edit.stop ∧ edit.stop ≤ size := by
  induction edits generalizing offset with
  | nil => exact fun _ member => (List.not_mem_nil member).elim
  | cons head rest ih =>
    obtain ⟨front, upright, others⟩ := laid
    intro edit member
    rcases List.mem_cons.mp member with rfl | member
    · exact ⟨front, upright, others.le_size⟩
    · have := ih others edit member
      omega

/-- In front of an edit lie edits that end before it, behind it lie edits in a row. -/
theorem split {before after : List Edit} {edit : Edit}
    (laid : Laid size offset (before ++ edit :: after)) :
    (∀ earlier ∈ before, earlier.start ≤ earlier.stop ∧ earlier.stop ≤ edit.start) ∧
      offset ≤ edit.start ∧ edit.start ≤ edit.stop ∧ Laid size edit.stop after := by
  induction before generalizing offset with
  | nil => exact ⟨fun _ member => (List.not_mem_nil member).elim, laid⟩
  | cons head before ih =>
    obtain ⟨front, upright, others⟩ := laid
    obtain ⟨earlier, start, back⟩ := ih others
    refine ⟨fun other member => ?_, by omega, back⟩
    rcases List.mem_cons.mp member with rfl | member
    · exact ⟨upright, start⟩
    · exact earlier other member

theorem of_apart (apart : edits.Pairwise fun first second => first.stop ≤ second.start)
    (inside : ∀ edit ∈ edits, offset ≤ edit.start ∧ edit.start ≤ edit.stop ∧ edit.stop ≤ size)
    (room : offset ≤ size) : Laid size offset edits := by
  induction edits generalizing offset with
  | nil => exact room
  | cons head rest ih =>
    obtain ⟨ahead, others⟩ := List.pairwise_cons.mp apart
    obtain ⟨front, upright, back⟩ := inside head List.mem_cons_self
    refine ⟨front, upright, ih others (fun edit member => ?_) back⟩
    have := inside edit (List.mem_cons_of_mem _ member)
    exact ⟨ahead edit member, this.2⟩

end Laid

namespace Plan

variable {edits kept : List Edit}

theorem kept_mem (planned : (ofEdits edits).result = .ok kept) : ∀ edit ∈ kept, edit ∈ edits := by
  obtain ⟨drops, passes⟩ := sweep_ok_iff.mp planned
  exact fun edit member => Edit.mem_sorted.mp (passes.kept_sublist.subset member)

theorem kept_precedes (planned : (ofEdits edits).result = .ok kept) :
    kept.Pairwise fun first second => first.precedes second = true := by
  obtain ⟨drops, passes⟩ := sweep_ok_iff.mp planned
  exact (Edit.sorted_pairwise edits).sublist passes.kept_sublist

theorem kept_disjoint (planned : (ofEdits edits).result = .ok kept) :
    kept.Pairwise fun first second => first.stop ≤ second.start := by
  obtain ⟨drops, passes⟩ := sweep_ok_iff.mp planned
  have apart := passes.kept_apart Trails.start (Edit.sorted_ascending edits)
  have ascending := (kept_precedes planned).imp Edit.start_le_of_precedes
  refine (apart.and ascending).imp fun {first second} both => ?_
  cases point : first.isInsertion with
  | true =>
    rw [← (Edit.isInsertion_iff first).mp point]
    exact both.2
  | false => exact both.1 point

/-- **The edits kept lie in a row**, if all edits lie between the same two offsets. -/
theorem laid_of_ok {offset size : Int} (planned : (ofEdits edits).result = .ok kept)
    (room : offset ≤ size)
    (inside : ∀ edit ∈ edits, offset ≤ edit.start ∧ edit.start ≤ edit.stop ∧ edit.stop ≤ size) :
    Laid size offset kept :=
  Laid.of_apart (kept_disjoint planned)
    (fun edit member => inside edit (kept_mem planned edit member)) room

end Plan

end Splice
