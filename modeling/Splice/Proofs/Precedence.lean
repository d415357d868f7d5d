/-
**The order of precedence.**

Precedence compares starts, puts insertions ahead of replacements and longer replacements ahead of
shorter ones, and falls back on the order of registration. It is a total preorder, so that sorting
by it is stable:

* `Edit.precedes_iff`: precedence in terms of starts, stops and orders;
* `Edit.precedes_trans`, `Edit.precedes_total`: it is transitive and total;
* `mergeSort_filter`, `Edit.sorted_filter`: leaving edits out before sorting or after it comes to the
  same;
* `Edit.sorted_filter_rank`: edits of one rank are sorted in the order in which they are listed;
* `Edit.sorted_eq_append`: edits none of which precedes one of the others are sorted apart;
* `Edit.sorted_map_moved`: moving all edits by one distance keeps their order.

Ranges are compared by `Span.Encloses`, where the inner range is a proper part of the outer one, and
by `Span.Crosses`, where each range has a part outside the other.
-/

import Mathlib.Data.List.Basic
import Splice.Plan

namespace Splice

/-! ### Ranges -/

namespace Span

/-- The inner range is a proper part of the outer one. -/
def Encloses (outer inner : Span) : Prop :=
  outer.start ≤ inner.start ∧ inner.stop ≤ outer.stop ∧ outer ≠ inner

/-- The second range begins inside the first and ends behind it. -/
def Crosses (first second : Span) : Prop :=
  first.start < second.start ∧ second.start < first.stop ∧ first.stop < second.stop

instance (outer inner : Span) : Decidable (outer.Encloses inner) :=
  inferInstanceAs (Decidable (_ ∧ _ ∧ _))

instance (first second : Span) : Decidable (first.Crosses second) :=
  inferInstanceAs (Decidable (_ ∧ _ ∧ _))

/-- The range moved by a distance. -/
def moved (distance : Int) (span : Span) : Span := ⟨span.start + distance, span.stop + distance⟩

theorem isPoint_iff (span : Span) : span.isPoint = true ↔ span.start = span.stop := by
  simp [isPoint]

theorem isPoint_eq_false_iff (span : Span) : span.isPoint = false ↔ span.start ≠ span.stop := by
  simp [isPoint]

theorem within_iff (span : Span) (size : Nat) :
    span.within size = true ↔ 0 ≤ span.start ∧ span.start ≤ span.stop ∧ span.stop ≤ size := by
  simp [within, and_assoc]

theorem isPoint_moved (distance : Int) (span : Span) :
    (span.moved distance).isPoint = span.isPoint := by
  simp [isPoint, moved]

end Span

namespace Edit

/-- The edit moved by a distance. -/
def moved (distance : Int) (edit : Edit) : Edit := { edit with span := edit.span.moved distance }

@[simp] theorem start_moved (distance : Int) (edit : Edit) :
    (edit.moved distance).start = edit.start + distance := rfl

@[simp] theorem stop_moved (distance : Int) (edit : Edit) :
    (edit.moved distance).stop = edit.stop + distance := rfl

@[simp] theorem order_moved (distance : Int) (edit : Edit) :
    (edit.moved distance).order = edit.order := rfl

@[simp] theorem replacement_moved (distance : Int) (edit : Edit) :
    (edit.moved distance).replacement = edit.replacement := rfl

@[simp] theorem isInsertion_moved (distance : Int) (edit : Edit) :
    (edit.moved distance).isInsertion = edit.isInsertion := Span.isPoint_moved distance edit.span

theorem isInsertion_iff (edit : Edit) : edit.isInsertion = true ↔ edit.start = edit.stop :=
  Span.isPoint_iff edit.span

theorem isInsertion_eq_false_iff (edit : Edit) :
    edit.isInsertion = false ↔ edit.start ≠ edit.stop :=
  Span.isPoint_eq_false_iff edit.span

theorem span_eq_iff {first second : Edit} :
    first.span = second.span ↔ first.start = second.start ∧ first.stop = second.stop := by
  unfold start stop
  cases first.span
  cases second.span
  rw [Span.mk.injEq]

theorem within_iff (edit : Edit) (size : Nat) : edit.span.within size = true ↔
    0 ≤ edit.start ∧ edit.start ≤ edit.stop ∧ edit.stop ≤ size :=
  Span.within_iff edit.span size

theorem encloses_iff {outer inner : Edit} :
    outer.span.Encloses inner.span ↔
      outer.start ≤ inner.start ∧ inner.stop ≤ outer.stop ∧ outer.span ≠ inner.span := Iff.rfl

theorem crosses_iff {first second : Edit} :
    first.span.Crosses second.span ↔
      first.start < second.start ∧ second.start < first.stop ∧ first.stop < second.stop := Iff.rfl

/-! ### The order -/

theorem rank_of_insertion {edit : Edit} (point : edit.isInsertion = true) :
    edit.rank = (edit.start, 0, 0, edit.order) := by
  unfold rank
  rw [if_pos point]

theorem rank_of_replacement {edit : Edit} (proper : edit.isInsertion = false) :
    edit.rank = (edit.start, 1, edit.start - edit.stop, edit.order) := by
  unfold rank
  rw [if_neg (by simp [proper]), Span.length, Int.neg_sub]

/-- **Precedence**: lower starts first; at one start insertions first, by order; then replacements,
those that end later first, by order among those of one range. -/
theorem precedes_iff (first second : Edit) :
    first.precedes second = true ↔
      first.start < second.start ∨ first.start = second.start ∧
        (first.start = first.stop ∧ second.start ≠ second.stop ∨
          first.start = first.stop ∧ second.start = second.stop ∧ first.order ≤ second.order ∨
          first.start ≠ first.stop ∧ second.start ≠ second.stop ∧
            (second.stop < first.stop ∨ first.stop = second.stop ∧ first.order ≤ second.order)) := by
  unfold precedes
  rcases Bool.eq_false_or_eq_true first.isInsertion with front | front <;>
    rcases Bool.eq_false_or_eq_true second.isInsertion with back | back
  · rw [rank_of_insertion front, rank_of_insertion back]
    rw [isInsertion_iff] at front back
    simp [front, back]
  · rw [rank_of_insertion front, rank_of_replacement back]
    rw [isInsertion_iff] at front
    rw [isInsertion_eq_false_iff] at back
    simp [front, back]
  · rw [rank_of_replacement front, rank_of_insertion back]
    rw [isInsertion_eq_false_iff] at front
    rw [isInsertion_iff] at back
    simp [front, back]
  · rw [rank_of_replacement front, rank_of_replacement back]
    rw [isInsertion_eq_false_iff] at front back
    simp only [Bool.or_eq_true, Bool.and_eq_true, decide_eq_true_eq, Nat.lt_irrefl, false_or,
      true_and]
    omega

theorem precedes_trans (first second third : Edit) (front : first.precedes second = true)
    (back : second.precedes third = true) : first.precedes third = true := by
  rw [precedes_iff] at front back ⊢
  omega

theorem precedes_total (first second : Edit) :
    (first.precedes second || second.precedes first) = true := by
  rw [Bool.or_eq_true, precedes_iff, precedes_iff]
  omega

theorem start_le_of_precedes {first second : Edit} (ahead : first.precedes second = true) :
    first.start ≤ second.start := by
  rw [precedes_iff] at ahead
  omega

/-- Of two edits of one rank, each may stand before the other. -/
theorem precedes_of_rank_eq {first second : Edit} (same : first.rank = second.rank) :
    first.precedes second = true := by
  unfold precedes
  rw [same]
  simp

theorem precedes_moved (distance : Int) (first second : Edit) :
    (first.moved distance).precedes (second.moved distance) = first.precedes second := by
  rw [Bool.eq_iff_iff, precedes_iff, precedes_iff]
  simp only [start_moved, stop_moved, order_moved]
  omega

/-! ### Sorting -/

@[simp] theorem mem_sorted {edits : List Edit} {edit : Edit} :
    edit ∈ sorted edits ↔ edit ∈ edits := List.mem_mergeSort

theorem sorted_pairwise (edits : List Edit) :
    (sorted edits).Pairwise fun first second => first.precedes second = true :=
  List.pairwise_mergeSort precedes_trans precedes_total edits

theorem sorted_ascending (edits : List Edit) :
    (sorted edits).Pairwise fun first second => first.start ≤ second.start :=
  (sorted_pairwise edits).imp start_le_of_precedes

end Edit

/-! ### Stable sorting -/

/-- Where a list is cut in two by a test, the test finds the front again. -/
theorem filter_append_of_cut {α : Type} {test : α → Bool} {front back : List α}
    (passed : ∀ item ∈ front, test item = true) (failed : ∀ item ∈ back, test item = false) :
    (front ++ back).filter test = front := by
  rw [List.filter_append, List.filter_eq_self.mpr passed,
    List.filter_eq_nil_iff.mpr fun item member => by simp [failed item member], List.append_nil]

/-- A list is cut in two by a test in one way only. -/
theorem append_inj_of_cut {α : Type} {test : α → Bool} {front back front' back' : List α}
    (same : front ++ back = front' ++ back') (before : ∀ item ∈ front, test item = false)
    (after : ∀ item ∈ back, test item = true) (before' : ∀ item ∈ front', test item = false)
    (after' : ∀ item ∈ back', test item = true) : front = front' ∧ back = back' := by
  have fronts : front = front' := by
    have cut := congrArg (List.filter fun item => !test item) same
    rwa [filter_append_of_cut (fun item member => by simp [before item member])
      (fun item member => by simp [after item member]),
      filter_append_of_cut (fun item member => by simp [before' item member])
      (fun item member => by simp [after' item member])] at cut
  rw [fronts] at same
  exact ⟨fronts, List.append_cancel_left same⟩

section Stable

variable {α : Type} {le : α → α → Bool}
  (trans : ∀ first second third, le first second = true → le second third = true →
    le first third = true)
  (total : ∀ first second, (le first second || le second first) = true)

include trans total

/-- An item ahead of others is sorted between those that it does not precede and those that it
precedes. -/
theorem mergeSort_cut (item : α) (rest : List α) :
    ∃ front back, (item :: rest).mergeSort le = front ++ item :: back ∧
      rest.mergeSort le = front ++ back ∧ (∀ other ∈ front, le item other = false) ∧
      ∀ other ∈ back, le item other = true := by
  obtain ⟨front, back, whole, parts, behind⟩ := List.mergeSort_cons trans total item rest
  refine ⟨front, back, whole, parts, ?_, ?_⟩
  · intro other member
    simpa using behind other member
  · have ordered := List.pairwise_mergeSort trans total (item :: rest)
    rw [whole] at ordered
    exact (List.pairwise_cons.mp (List.pairwise_append.mp ordered).2.1).1

/-- **Sorting is stable under leaving items out.** -/
theorem mergeSort_filter (chosen : α → Bool) (items : List α) :
    (items.mergeSort le).filter chosen = (items.filter chosen).mergeSort le := by
  induction items with
  | nil => simp
  | cons item rest ih =>
    obtain ⟨front, back, whole, parts, before, after⟩ := mergeSort_cut trans total item rest
    rw [parts, List.filter_append] at ih
    by_cases picked : chosen item = true
    · obtain ⟨front', back', whole', parts', before', after'⟩ :=
        mergeSort_cut trans total item (rest.filter chosen)
      -- Both ways of placing the item cut the sorted rest where the item begins to precede it.
      obtain ⟨fronts, backs⟩ := append_inj_of_cut (ih.trans parts')
        (fun other member => before other (List.mem_filter.mp member).1)
        (fun other member => after other (List.mem_filter.mp member).1) before' after'
      rw [whole, List.filter_cons_of_pos picked, whole', ← fronts, ← backs]
      simp [picked]
    · rw [whole, List.filter_cons_of_neg picked, ← ih]
      simp [picked]

end Stable

namespace Edit

/-- Edits left out before sorting or after it. -/
theorem sorted_filter (chosen : Edit → Bool) (edits : List Edit) :
    (sorted edits).filter chosen = sorted (edits.filter chosen) :=
  mergeSort_filter precedes_trans precedes_total chosen edits

/-- **Sorting is stable**: edits of one rank stay in the order in which they are listed. -/
theorem sorted_filter_rank (rank : Int × Nat × Int × Int) (edits : List Edit) :
    (sorted edits).filter (fun edit => edit.rank = rank) = edits.filter fun edit => edit.rank = rank := by
  rw [sorted_filter]
  refine List.mergeSort_of_pairwise (List.pairwise_of_forall_mem_list fun first front second back => ?_)
  have ranked : first.rank = rank := of_decide_eq_true (List.mem_filter.mp front).2
  have ranked' : second.rank = rank := of_decide_eq_true (List.mem_filter.mp back).2
  exact precedes_of_rank_eq (ranked.trans ranked'.symm)

/-- A sorted list is cut in two by a test that, once failed, is failed by all that follow. -/
theorem eq_filter_append_filter {α : Type} {related : α → α → Prop} {test : α → Bool}
    {items : List α} (ordered : items.Pairwise related)
    (closed : ∀ first ∈ items, ∀ second ∈ items, related first second → test first = false →
      test second = false) :
    items = items.filter test ++ items.filter (!test ·) := by
  induction ordered with
  | nil => rfl
  | @cons item rest ahead _ ih =>
    by_cases passed : test item = true
    · have parts := ih fun first firstIn second secondIn =>
        closed first (List.mem_cons_of_mem _ firstIn) second (List.mem_cons_of_mem _ secondIn)
      rw [List.filter_cons_of_pos passed, List.filter_cons_of_neg (by simp [passed]),
        List.cons_append, ← parts]
    · have failed : test item = false := by simpa using passed
      have others : ∀ other ∈ rest, test other = false := fun other member =>
        closed item List.mem_cons_self other (List.mem_cons_of_mem _ member) (ahead other member)
          failed
      rw [List.filter_cons_of_neg passed, List.filter_cons_of_pos (by simp [failed]),
        List.filter_eq_nil_iff.mpr fun other member => by simp [others other member],
        List.filter_eq_self.mpr fun other member => by simp [others other member], List.nil_append]

/-- **Edits sorted apart.** If no edit that fails a test precedes one that passes it, then those
that pass come first, and the two groups are sorted on their own. -/
theorem sorted_eq_append (test : Edit → Bool) (edits : List Edit)
    (closed : ∀ first ∈ edits, ∀ second ∈ edits, first.precedes second = true →
      test first = false → test second = false) :
    sorted edits = sorted (edits.filter test) ++ sorted (edits.filter (!test ·)) := by
  rw [← sorted_filter, ← sorted_filter]
  refine eq_filter_append_filter (sorted_pairwise edits) ?_
  intro first firstIn second secondIn
  exact closed first (mem_sorted.mp firstIn) second (mem_sorted.mp secondIn)

theorem sorted_map_moved (distance : Int) (edits : List Edit) :
    sorted (edits.map (moved distance)) = (sorted edits).map (moved distance) :=
  (List.map_mergeSort fun first _ second _ => (precedes_moved distance first second).symm).symm

end Edit

end Splice
