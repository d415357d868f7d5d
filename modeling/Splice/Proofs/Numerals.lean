/-
**The numbers that a merge writes.**

An integer is written in decimal only as long as it is short enough. A merge writes integers: the
orders and the ranges of the edits that it drops and of those around them, and of the two edits that
clash. All of these are edits that have been registered (`Plan.mem_of_mem_named`). The range of an edit
in a text is no longer to write than the size of the text, and its order no longer than the number of
registrations. So a merge of registered edits writes all its numbers, and reports a clash by the message
that names both edits, however large the numbers are that stood in the script.

* `Plan.named`: the edits whose numbers a merge writes;
* `Edit.isWritable_of_within`: an edit in a text;
* `Script.isWritable_of_named`, `Script.message_of_clash`: a merge of the edits of a script.
-/

import Mathlib
import Splice.Proofs.Loading
import Splice.Proofs.Precedence

namespace Splice

/-! ### The edits that a merge names -/

namespace Plan

/-- The edits whose numbers are written: dropped ones with those around them, and the two that clash. -/
def named (plan : Plan) : List Edit :=
  (plan.drops.flatMap fun drop => [drop.edit, drop.outer]) ++
    match plan.result with
    | .ok _ => []
    | .error clash => [clash.second, clash.first]

theorem named_keep (edit : Edit) (plan : Plan) : (plan.keep edit).named = plan.named := by
  obtain ⟨drops, clash | kept⟩ := plan <;> rfl

theorem named_drop (edit outer : Edit) (plan : Plan) :
    (plan.drop edit outer).named = edit :: outer :: plan.named := by
  obtain ⟨drops, clash | kept⟩ := plan <;> rfl

/-- A step of a sweep names the edit at hand and the replacement kept last. -/
theorem mem_of_mem_named_sweep {last : Option Edit} {edits : List Edit} {edit : Edit}
    (member : edit ∈ (sweep last edits).named) : edit ∈ last ∨ edit ∈ edits := by
  induction edits generalizing last with
  | nil => exact (List.not_mem_nil member).elim
  | cons next rest ih =>
    rw [sweep] at member
    split at member
    · rename_i outer met
      have known : outer ∈ last := (Option.filter_eq_some_iff.mp met).1
      split at member
      · rw [named_drop] at member
        rcases List.mem_cons.mp member with rfl | member
        · exact Or.inr List.mem_cons_self
        · rcases List.mem_cons.mp member with rfl | later
          · exact Or.inl known
          · exact (ih later).imp_right (List.mem_cons_of_mem _)
      · rcases List.mem_pair.mp member with rfl | rfl
        · exact Or.inr List.mem_cons_self
        · exact Or.inl known
    · rw [named_keep] at member
      rcases ih member with kept | later
      · split at kept
        · exact Or.inl kept
        · obtain rfl := Option.some.inj kept
          exact Or.inr List.mem_cons_self
      · exact Or.inr (List.mem_cons_of_mem _ later)

/-- **A merge names registered edits alone.** -/
theorem mem_of_mem_named {edits : List Edit} {edit : Edit} (member : edit ∈ (ofEdits edits).named) :
    edit ∈ edits := by
  rcases mem_of_mem_named_sweep member with absent | sorted
  · cases absent
  · exact Edit.mem_sorted.mp sorted

end Plan

/-! ### Their numbers -/

/-- A number between others that can be written can be written. -/
theorem writable_of_le {number : Int} {size : Nat} (least : 0 ≤ number) (most : number ≤ size)
    (short : writable size = true) : writable number = true := by
  rw [writable_iff] at short ⊢
  have below : number.natAbs ≤ (size : Int).natAbs := by omega
  exact Nat.lt_of_le_of_lt below short

/-- **An edit in a text** has numbers that can be written, if its order has. -/
theorem Edit.isWritable_of_within {edit : Edit} {size : Nat} (within : edit.span.within size = true)
    (offsets : writable size = true) (order : writable edit.order = true) :
    edit.isWritable = true := by
  obtain ⟨least, upright, most⟩ := (Edit.within_iff _ _).mp within
  have starts : writable edit.start = true := writable_of_le least (upright.trans most) offsets
  have stops : writable edit.stop = true := writable_of_le (least.trans upright) most offsets
  refine List.all_eq_true.mpr fun number listed => ?_
  simp only [numbers, List.mem_cons, List.not_mem_nil, or_false] at listed
  rcases listed with rfl | rfl | rfl
  · exact order
  · exact starts
  · exact stops

/-- The message of a clash names both edits, if their numbers can be written. -/
theorem Clash.message_of_writable {clash : Clash} (first : clash.first.isWritable = true)
    (second : clash.second.isWritable = true) :
    clash.message = Text.concat ["Patch [", Text.decimal clash.second.start, ", ",
      Text.decimal clash.second.stop, ") (order ", Text.decimal clash.second.order,
      ") partially overlaps patch [", Text.decimal clash.first.start, ", ",
      Text.decimal clash.first.stop, ") (order ", Text.decimal clash.first.order, ")"] := by
  have short : (clash.second.numbers ++ clash.first.numbers).all writable = true := by
    rw [List.all_append, Bool.and_eq_true]
    exact ⟨second, first⟩
  unfold message Text.withNumbers
  rw [if_pos short]
  simp [Text.concat, Text.ofString]

theorem Registration.order_of_mem_edits {order : Int} {registrations : List Registration} {edit : Edit}
    (member : edit ∈ edits order registrations) :
    order ≤ edit.order ∧ edit.order < order + registrations.length := by
  induction registrations generalizing order with
  | nil => exact (List.not_mem_nil member).elim
  | cons registration rest ih =>
    rw [List.length_cons, Nat.cast_succ]
    rcases List.mem_cons.mp member with rfl | later
    · show order ≤ order ∧ order < order + (rest.length + 1)
      omega
    · have bounds := ih later
      omega

namespace Script

variable [Objects] [Limits] {script : Script} {text : Text}
  (within : ∀ entry ∈ script, entry.span.within text.length = true)
  (offsets : writable text.length = true) (orders : writable script.length = true)

include within offsets orders

/-- The edits of a script have numbers that can be written, whatever numbers stand in it. -/
theorem isWritable_of_mem_edits {edit : Edit} (member : edit ∈ (script.draftOver text).edits) :
    edit.isWritable = true := by
  obtain ⟨least, most⟩ := Registration.order_of_mem_edits member
  rw [List.length_map] at most
  have order : writable edit.order = true := writable_of_le (by omega) (by omega) orders
  exact Edit.isWritable_of_within (within_draftOver within edit member) offsets order

/-- **A merge of the edits of a script** writes all its numbers. -/
theorem isWritable_of_named {edit : Edit} (member : edit ∈ (script.draftOver text).plan.named) :
    edit.isWritable = true :=
  isWritable_of_mem_edits within offsets orders (Plan.mem_of_mem_named member)

/-- **A clash of the edits of a script** is reported by the message that names both. -/
theorem message_of_clash {clash : Clash}
    (refused : (script.draftOver text).plan.result = .error clash) :
    clash.message = Text.concat ["Patch [", Text.decimal clash.second.start, ", ",
      Text.decimal clash.second.stop, ") (order ", Text.decimal clash.second.order,
      ") partially overlaps patch [", Text.decimal clash.first.start, ", ",
      Text.decimal clash.first.stop, ") (order ", Text.decimal clash.first.order, ")"] := by
  have named : [clash.second, clash.first] ⊆ (script.draftOver text).plan.named := by
    unfold Plan.named
    rw [refused]
    exact List.subset_append_right _ _
  have second := isWritable_of_named within offsets orders (named List.mem_cons_self)
  have first := isWritable_of_named within offsets orders
    (named (List.mem_cons_of_mem _ List.mem_cons_self))
  exact Clash.message_of_writable first second

end Script

end Splice
