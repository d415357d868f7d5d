/-
**Other numbers in the same order.**

Edits that are registered one after another have ascending numbers. Where precedence falls back on such
numbers, it decides as the order of the list would, and sorting is stable; so edits whose numbers ascend
are sorted as if they had none, ties included. A plan is the same then up to the numbers, and an emission
shows nothing of them: portions come out and edits are asked one after another, whatever they are called.

* `mergeSort_map_of_agree`: sorting through a view that respects the order of items as they stand;
* `Plan.ofEdits_map_unnumbered`: a plan of edits with ascending numbers;
* `Plan.of_map_unnumbered`: a plan that is the same up to the numbers;
* `course_map`, `feed_map`: emissions of edits that are changed in nothing but their numbers;
* `Draft.EmitsAlike`: two drafts whose emissions differ in the numbers of edits at most.
-/

import Splice.Proofs.Agreement
import Splice.Proofs.Reordering

namespace Splice

/-! ### Sorting through a view -/

/-- **Sorting through a view.** If the view keeps how items compare with those behind them in the list,
then it does not matter whether items are viewed before sorting or after it. -/
theorem mergeSort_map_of_agree {α β : Type} {view : α → β} {le : α → α → Bool} {le' : β → β → Bool}
    (trans : ∀ first second third, le first second = true → le second third = true →
      le first third = true)
    (total : ∀ first second, (le first second || le second first) = true)
    (trans' : ∀ first second third, le' first second = true → le' second third = true →
      le' first third = true)
    (total' : ∀ first second, (le' first second || le' second first) = true) {items : List α}
    (agree : items.Pairwise fun first second => le' (view first) (view second) = le first second) :
    (items.mergeSort le).map view = (items.map view).mergeSort le' := by
  induction agree with
  | nil => simp
  | @cons item rest ahead _ ih =>
    obtain ⟨front, back, whole, parts, before, after⟩ := mergeSort_cut trans total item rest
    obtain ⟨front', back', whole', parts', before', after'⟩ :=
      mergeSort_cut trans' total' (view item) (rest.map view)
    have known : ∀ other ∈ front ++ back, other ∈ rest := by
      rw [← parts]
      exact fun other member => List.mem_mergeSort.mp member
    have same : front.map view ++ back.map view = front' ++ back' := by
      rw [← List.map_append, ← parts, ih, parts']
    have cut : ∀ other ∈ front.map view, le' (view item) other = false := by
      intro viewed member
      obtain ⟨other, inFront, rfl⟩ := List.mem_map.mp member
      rw [ahead other (known other (List.mem_append_left _ inFront)), before other inFront]
    have cut' : ∀ other ∈ back.map view, le' (view item) other = true := by
      intro viewed member
      obtain ⟨other, inBack, rfl⟩ := List.mem_map.mp member
      rw [ahead other (known other (List.mem_append_right _ inBack)), after other inBack]
    -- the viewed item is placed where it begins to precede, and that is where the item was placed
    obtain ⟨fronts, backs⟩ := append_inj_of_cut same cut cut' before' after'
    rw [List.map_cons, whole, whole', List.map_append, List.map_cons, fronts, backs]

namespace Edit

/-- Numbers ascend. -/
abbrev Numbered (edits : List Edit) : Prop :=
  edits.Pairwise fun first second => first.order ≤ second.order

theorem precedes_unnumbered_eq {first second : Edit} (ascending : first.order ≤ second.order) :
    first.unnumbered.precedes second.unnumbered = first.precedes second := by
  rw [Bool.eq_iff_iff, precedes_iff, precedes_iff]
  simp only [start_unnumbered, stop_unnumbered, order_unnumbered]
  omega

theorem sorted_map_unnumbered {edits : List Edit} (numbered : Numbered edits) :
    (sorted edits).map unnumbered = sorted (edits.map unnumbered) :=
  mergeSort_map_of_agree precedes_trans precedes_total precedes_trans precedes_total
    (numbered.imp precedes_unnumbered_eq)

end Edit

/-! ### Plans -/

namespace Plan

/-- **A plan of edits whose numbers ascend** is the plan of edits without numbers. -/
theorem ofEdits_map_unnumbered {edits : List Edit} (numbered : Edit.Numbered edits) :
    (ofEdits edits).map Edit.unnumbered = ofEdits (edits.map Edit.unnumbered) := by
  rw [ofEdits, ofEdits, ← Edit.sorted_map_unnumbered numbered]
  exact (sweep_map Edit.faithful_unnumbered none _).symm

/-- A plan that is the same up to the numbers as one that keeps all its edits. -/
theorem of_map_unnumbered {plan : Plan} {kept : List Edit}
    (same : plan.map Edit.unnumbered = (⟨[], .ok kept⟩ : Plan).map Edit.unnumbered) :
    ∃ kept', plan = ⟨[], .ok kept'⟩ ∧ kept'.map Edit.unnumbered = kept.map Edit.unnumbered := by
  obtain ⟨drops, result⟩ := plan
  have noDrops : drops = [] := List.map_eq_nil_iff.mp (congrArg Plan.drops same)
  rcases results_of_map_eq same with
    ⟨kept', others, planned, planned', sameKept⟩ | ⟨_, _, _, refused, _⟩
  · obtain rfl : result = .ok kept' := planned
    obtain rfl := Except.ok.inj planned'
    exact ⟨kept', by rw [noDrops], sameKept⟩
  · cases refused

end Plan

/-! ### Courses -/

/-- The portion, with other edits asked. -/
def Portion.map (change : Edit → Edit) (portion : Portion) : Portion :=
  { portion with asked := portion.asked.map change }

/-- The course, with other edits asked. -/
def Course.map (change : Edit → Edit) (course : Course) : Course :=
  { course with portions := course.portions.map (Portion.map change), asked := course.asked.map change }

/-- The delivery, with other edits asked. -/
def Delivery.map (change : Edit → Edit) (delivery : Delivery) : Delivery :=
  { delivery with asked := delivery.asked.map change }

section Changes

variable {change : Edit → Edit}

theorem text_portion_map (portions : List Portion) :
    (portions.map (Portion.map change)).map Portion.text = portions.map Portion.text := by
  rw [List.map_map]
  rfl

theorem own_map (inserted : Text) (asked : List Edit) :
    own inserted (asked.map change) = (own inserted asked).map (Portion.map change) := by
  unfold own
  split
  · rfl
  · rfl

theorem historyAfter_map (sameReplacement : ∀ edit, (change edit).replacement = edit.replacement)
    (history : History) (asked : List Edit) :
    historyAfter history (asked.map change) = historyAfter history asked := by
  unfold historyAfter
  rw [List.map_map]
  simp only [Function.comp_def, sameReplacement]

section Ranges

variable (sameSpan : ∀ edit, (change edit).span = edit.span)

include sameSpan

theorem cursor_map (asked : List Edit) : cursor (asked.map change) = cursor asked := by
  have stop (edit : Edit) : (change edit).stop = edit.stop := congrArg Span.stop (sameSpan edit)
  unfold cursor
  rw [List.getLast?_map, Option.map_map]
  simp only [Function.comp_def, stop]

theorem limit_map (text : Text) (rest : List Edit) : limit text (rest.map change) = limit text rest := by
  have start (edit : Edit) : (change edit).start = edit.start := congrArg Span.start (sameSpan edit)
  unfold limit
  rw [List.head?_map, Option.map_map]
  simp only [Function.comp_def, start]

theorem gap_map (text : Text) (asked rest : List Edit) :
    gap text (asked.map change) (rest.map change) = (gap text asked rest).map (Portion.map change) := by
  unfold gap
  rw [cursor_map sameSpan, limit_map sameSpan]
  split
  · rfl
  · rfl

/-- **A course over changed edits** that keep their ranges and replacements asks the changed edits, and
is the same otherwise. -/
theorem course_map (sameReplacement : ∀ edit, (change edit).replacement = edit.replacement)
    (text : Text) (context : Context) (history : History) (asked rest : List Edit) :
    course text context history (asked.map change) (rest.map change) =
      (course text context history asked rest).map change := by
  induction rest generalizing asked with
  | nil => exact congrArg (Course.mk · _ _) (gap_map sameSpan text asked [])
  | cons edit rest ih =>
    -- the gap, the question and the record of questions are the same, seen through the change
    have gaps := gap_map sameSpan text asked (edit :: rest)
    have next : asked.map change ++ [change edit] = (asked ++ [edit]).map change := by simp
    have answer' : (change edit).replacement.ask context (historyAfter history (asked.map change)) =
        edit.replacement.ask context (historyAfter history asked) := by
      rw [sameReplacement, historyAfter_map sameReplacement]
    rw [List.map_cons] at gaps ⊢
    cases answer : edit.replacement.ask context (historyAfter history asked) with
    | error fault =>
      rw [course_cons_error _ (answer'.trans answer), course_cons_error _ answer, gaps, next]
      rfl
    | ok inserted =>
      rw [course_cons_ok _ (answer'.trans answer), course_cons_ok _ answer, gaps, next, own_map, ih]
      unfold Course.behind Course.map
      rw [List.map_append, List.map_append]

end Ranges

/-- **Feeding changed portions** comes to the same, with the changed edits asked. -/
theorem feed_map {take : Nat → Text → Taking} (ending : Nat → Delivery) (writes : Nat)
    (portions : List Portion) :
    feed take (fun writes => (ending writes).map change) writes (portions.map (Portion.map change)) =
      (feed take ending writes portions).map change := by
  induction portions generalizing writes with
  | nil => rfl
  | cons portion rest ih =>
    rw [List.map_cons, feed, feed, show (portion.map change).text = portion.text from rfl]
    rcases take writes portion.text with ⟨marks, failure | failure⟩
    · exact congrArg (Delivery.behind marks) (ih (writes + 1))
    · rfl

namespace Course

variable {first second : Course} (same : first.map change = second.map change)

include same

theorem texts_of_map_eq :
    first.portions.map Portion.text = second.portions.map Portion.text := by
  have texts := congrArg (fun course : Course => course.portions.map Portion.text) same
  dsimp only [Course.map] at texts
  rwa [text_portion_map, text_portion_map] at texts

theorem outcome_of_map_eq {α : Type} (result : α) : first.outcome result = second.outcome result := by
  have fault : (first.map change).fault = (second.map change).fault := congrArg Course.fault same
  change first.fault = second.fault at fault
  unfold outcome
  rw [fault]

theorem feed_of_map_eq (take : Nat → Text → Taking) (writes : Nat) :
    let delivery := feed take first.ending writes first.portions
    let delivery' := feed take second.ending writes second.portions
    delivery.asked.map change = delivery'.asked.map change ∧ delivery.marks = delivery'.marks ∧
      delivery.result = delivery'.result := by
  intro delivery delivery'
  have portions := congrArg Course.portions same
  have ending : (fun writes => (first.ending writes).map change) =
      fun writes => (second.ending writes).map change := by
    funext writes
    unfold Course.ending Delivery.map
    rw [outcome_of_map_eq same, show first.asked.map change = second.asked.map change from
      congrArg Course.asked same]
  have fed : delivery.map change = delivery'.map change := by
    rw [← feed_map, ← feed_map, ending]
    exact congrArg _ portions
  injection fed with _ asked marks result
  exact ⟨asked, marks, result⟩

end Course

end Changes

/-! ### Emissions -/

/-- Two drafts whose emissions differ in the numbers of the edits that are asked and in the events
reported, and in nothing else: the same chunks come out, and all ends in the same way, as one text and
to every outlet. -/
structure Draft.EmitsAlike [Codecs] (first second : Draft) : Prop where
  chunks : ∀ context history, first.chunks context history = second.chunks context history
  rendered : ∀ context history,
    (first.render context history).asked.map Edit.unnumbered =
        (second.render context history).asked.map Edit.unnumbered ∧
      (first.render context history).result = (second.render context history).result
  delivered : ∀ context encoding outlet history,
    let delivery := first.deliverTo context encoding outlet history
    let delivery' := second.deliverTo context encoding outlet history
    delivery.asked.map Edit.unnumbered = delivery'.asked.map Edit.unnumbered ∧
      delivery.marks = delivery'.marks ∧ delivery.result = delivery'.result

namespace Draft

variable {first second : Draft} {kept kept' : List Edit}

/-- **An emission sees** the text and the edits kept, but not their numbers. -/
theorem EmitsAlike.of_plan [Codecs] (sameText : first.text = second.text)
    (planned : first.plan.result = .ok kept) (planned' : second.plan.result = .ok kept')
    (same : kept.map Edit.unnumbered = kept'.map Edit.unnumbered) : first.EmitsAlike second := by
  have sameCourse (context : Context) (history : History) :
      (first.courseOver context history kept).map Edit.unnumbered =
        (second.courseOver context history kept').map Edit.unnumbered := by
    have unseen (text : Text) (kept : List Edit) :
        (course text context history [] kept).map Edit.unnumbered =
          course text context history [] (kept.map Edit.unnumbered) :=
      (course_map Edit.span_unnumbered Edit.replacement_unnumbered text context history [] kept).symm
    unfold courseOver
    rw [unseen, unseen, sameText, same]
  refine ⟨fun context history => ?_, fun context history => ?_,
    fun context encoding outlet history => ?_⟩
  · unfold Draft.chunks
    simp only [planned, planned']
    exact Course.texts_of_map_eq (sameCourse context history)
  · rw [render_eq_course planned, render_eq_course planned', List.flatMap_def, List.flatMap_def,
      Course.texts_of_map_eq (sameCourse context history),
      Course.outcome_of_map_eq (sameCourse context history)]
    exact ⟨congrArg Course.asked (sameCourse context history), rfl⟩
  · rw [deliverTo_eq, deliverTo_eq, deliverBy_of_ok planned, deliverBy_of_ok planned']
    exact Course.feed_of_map_eq (sameCourse context history) (outlet.take encoding) 0

end Draft

end Splice
