/-
**Edits that are left out.**

An edit that is dropped leaves no trace in the sweep: what it remembers stays as it was. So the edits
that a plan drops can be left out beforehand, all of them or some, and the plan keeps the same edits.
As an emission sees nothing of a draft but its text and the edits kept, it takes the same course, and
what a dropped edit would have to say for itself never matters.

Nothing is required of the ranges and the orders. Edits that agree in everything are told apart by
their places, so edits are left out by a choice of places (`Edit.picked`).

* `Plan.Passes.without_dropped`: a sweep without some of the edits that it drops;
* `Draft.EmitsLike`: two drafts whose emissions cannot be told apart;
* `Plan.ofEdits_without_dropped`: plans and emissions without some of the edits dropped.
-/

import Mathlib
import Splice.Proofs.Agreement
import Splice.Proofs.Survival

namespace Splice

/-! ### Choices of places -/

/-- The edits at the places that are chosen. -/
def Edit.picked (chosen : Placed → Bool) (edits : List Edit) : List Edit :=
  (edits.zipIdx.filter chosen).map Prod.fst

/-- Edits with places in order of precedence; those that rank alike stand as they stood. -/
def Placed.sorted (items : List Placed) : List Placed :=
  items.mergeSort fun first second => first.1.precedes second.1

namespace Edit

theorem map_fst_sorted (items : List Placed) :
    (Placed.sorted items).map Prod.fst = sorted (items.map Prod.fst) :=
  List.map_mergeSort fun _ _ _ _ => rfl

theorem sorted_eq_map (edits : List Edit) :
    sorted edits = (Placed.sorted edits.zipIdx).map Prod.fst := by
  rw [map_fst_sorted, List.zipIdx_map_fst]

/-- **Places left out** before sorting or after it. -/
theorem sorted_picked (chosen : Placed → Bool) (edits : List Edit) :
    sorted (picked chosen edits) = ((Placed.sorted edits.zipIdx).filter chosen).map Prod.fst := by
  have stable : (Placed.sorted edits.zipIdx).filter chosen =
      Placed.sorted (edits.zipIdx.filter chosen) :=
    mergeSort_filter (fun first second third : Placed => precedes_trans first.1 second.1 third.1)
      (fun first second => precedes_total first.1 second.1) chosen edits.zipIdx
  rw [stable, map_fst_sorted]
  rfl

theorem placed_nodup (edits : List Edit) : (Placed.sorted edits.zipIdx).Nodup := by
  have places : (edits.zipIdx.map Prod.snd).Nodup := by
    rw [List.zipIdx_map_snd]
    exact List.nodup_range'
  exact List.nodup_mergeSort.mpr (places.of_map _)

end Edit

/-! ### Sweeps -/

namespace Plan.Passes

variable {last : Option Edit} {drops : List Drop} {edits kept : List Edit}

/-- **A sweep without edits that it drops** keeps the same edits. The edits are seen through a view, so
that the choice may know more of them. -/
theorem without_dropped {α : Type} {view : α → Edit} {items : List α}
    (passes : Passes last (items.map view) drops kept) :
    ∃ picked : List α, picked.Sublist items ∧ kept = picked.map view ∧
      ∀ chosen : α → Bool, (∀ item ∈ picked, chosen item = true) →
        ∃ others : List Drop, others.Sublist drops ∧
          Passes last ((items.filter chosen).map view) others kept := by
  induction items generalizing last drops kept with
  | nil =>
    cases passes
    exact ⟨[], .slnil, rfl, fun _ _ => ⟨[], .slnil, .done last⟩⟩
  | cons item rest ih =>
    rw [List.map_cons] at passes
    cases passes with
    | drop met fits later =>
      obtain ⟨picked, inside, same, without⟩ := ih later
      refine ⟨picked, inside.cons _, same, fun chosen keeps => ?_⟩
      obtain ⟨others, fewer, passes⟩ := without chosen keeps
      -- the sweep goes on as it was, whether it has met the dropped edit or not
      cases choice : chosen item with
      | true =>
        rw [List.filter_cons_of_pos choice, List.map_cons]
        exact ⟨_, fewer.cons_cons _, .drop met fits passes⟩
      | false =>
        rw [List.filter_cons_of_neg (by simp [choice])]
        exact ⟨others, fewer.cons _, passes⟩
    | keep free later =>
      obtain ⟨picked, inside, rfl, without⟩ := ih later
      refine ⟨item :: picked, inside.cons_cons _, rfl, fun chosen keeps => ?_⟩
      obtain ⟨choice, keeps⟩ := List.forall_mem_cons.mp keeps
      obtain ⟨others, fewer, passes⟩ := without chosen keeps
      rw [List.filter_cons_of_pos choice, List.map_cons]
      exact ⟨others, fewer, .keep free passes⟩

/-- **A sweep over what it kept** keeps all of it. -/
theorem over_kept (passes : Passes last edits drops kept) : Passes last kept [] kept := by
  induction passes with
  | done last => exact .done last
  | drop _ _ _ ih => exact ih
  | keep free _ ih => exact .keep free ih

end Plan.Passes

/-- **A plan of the edits kept** keeps them all, in the same order. -/
theorem Plan.ofEdits_kept {edits kept : List Edit} (planned : (ofEdits edits).result = .ok kept) :
    ofEdits kept = ⟨[], .ok kept⟩ := by
  obtain ⟨drops, passes⟩ := sweep_ok_iff.mp planned
  have ordered : kept.Pairwise fun first second => first.precedes second = true :=
    (Edit.sorted_pairwise edits).sublist passes.kept_sublist
  rw [ofEdits, Edit.sorted, List.mergeSort_of_pairwise ordered]
  exact passes.over_kept.sweep_eq

/-! ### Emissions -/

/-- Two drafts whose emissions cannot be told apart, but for the events reported: the same chunks come
out, the same edits are asked in the same order, and all ends in the same way, as one text and to
every outlet. -/
structure Draft.EmitsLike [Codecs] (first second : Draft) : Prop where
  chunks : ∀ context history, first.chunks context history = second.chunks context history
  rendered : ∀ context history,
    (first.render context history).asked = (second.render context history).asked ∧
      (first.render context history).result = (second.render context history).result
  delivered : ∀ context encoding outlet history,
    let delivery := first.deliverTo context encoding outlet history
    let delivery' := second.deliverTo context encoding outlet history
    delivery.asked = delivery'.asked ∧ delivery.marks = delivery'.marks ∧
      delivery.result = delivery'.result

/-- **An emission sees** the text and the edits kept, and nothing else. -/
theorem Draft.EmitsLike.of_plan [Codecs] {first second : Draft} {kept : List Edit}
    (sameText : first.text = second.text) (planned : first.plan.result = .ok kept)
    (planned' : second.plan.result = .ok kept) : first.EmitsLike second := by
  have sameCourse (context : Context) (history : History) :
      first.courseOver context history kept = second.courseOver context history kept := by
    unfold courseOver
    rw [sameText]
  refine ⟨fun context history => ?_, fun context history => ?_,
    fun context encoding outlet history => ?_⟩
  · unfold Draft.chunks
    simp only [planned, planned', sameCourse]
  · rw [render_eq_course planned, render_eq_course planned', sameCourse]
    exact ⟨rfl, rfl⟩
  · rw [deliverTo_eq, deliverTo_eq, deliverBy_of_ok planned, deliverBy_of_ok planned', sameCourse]
    exact ⟨rfl, rfl, rfl⟩

/-- **Dropped edits do not matter.** Let edits of any ranges and orders have a plan. Then

* the edits kept have a plan as well, which keeps them all and drops none;
* each of them has a place of its own among the edits, such that any of the edits at other places can
  be left out: those that are chosen have a plan that keeps the same edits, in the same order, and
  drops nothing that was not dropped before; and over every text, emissions of the chosen edits are
  like those of all edits. -/
theorem Plan.ofEdits_without_dropped [Codecs] {edits kept : List Edit}
    (planned : (ofEdits edits).result = .ok kept) :
    ofEdits kept = ⟨[], .ok kept⟩ ∧
      ∃ placed : List Placed, kept = placed.map Prod.fst ∧ placed.Nodup ∧
        (∀ entry ∈ placed, entry ∈ edits.zipIdx) ∧
        ∀ chosen : Placed → Bool, (∀ entry ∈ placed, chosen entry = true) →
          let others := Edit.picked chosen edits
          (ofEdits others).result = .ok kept ∧
            (ofEdits others).drops.Sublist (ofEdits edits).drops ∧
            ∀ text : Text, Draft.EmitsLike ⟨text, others⟩ ⟨text, edits⟩ := by
  obtain ⟨drops, passes⟩ := sweep_ok_iff.mp planned
  have swept : ofEdits edits = ⟨drops, .ok kept⟩ := passes.sweep_eq
  rw [Edit.sorted_eq_map] at passes
  obtain ⟨placed, inside, same, without⟩ := passes.without_dropped
  refine ⟨ofEdits_kept planned, placed, same, (Edit.placed_nodup edits).sublist inside,
    fun entry member => List.mem_mergeSort.mp (inside.subset member), fun chosen keeps => ?_⟩
  obtain ⟨others, fewer, passes'⟩ := without chosen keeps
  rw [← Edit.sorted_picked] at passes'
  have swept' : ofEdits (Edit.picked chosen edits) = ⟨others, .ok kept⟩ := passes'.sweep_eq
  have planned' : (ofEdits (Edit.picked chosen edits)).result = .ok kept :=
    congrArg Plan.result swept'
  refine ⟨planned', ?_, fun text => .of_plan rfl planned' planned⟩
  rw [swept, swept']
  exact fewer

/-- Two replacements of one range and one order, a range read backwards, and an insertion that has no
text and is dropped. -/
def spareEdits : List Edit :=
  [⟨⟨0, 4⟩, 1, .fixed "X"⟩, ⟨⟨2, 2⟩, 2, .failing "lost"⟩, ⟨⟨0, 4⟩, 1, .failing "late"⟩,
    ⟨⟨5, 3⟩, 1, .fixed "Y"⟩]

/-- The edits but for the insertion. -/
def sparedEdits : List Edit := Edit.picked (fun entry => entry.1.order ≠ 2) spareEdits

theorem Plan.ofEdits_without_dropped_spare :
    (ofEdits spareEdits).result = .ok [⟨⟨0, 4⟩, 1, .fixed "X"⟩, ⟨⟨5, 3⟩, 1, .fixed "Y"⟩] ∧
      (ofEdits sparedEdits).result = .ok [⟨⟨0, 4⟩, 1, .fixed "X"⟩, ⟨⟨5, 3⟩, 1, .fixed "Y"⟩] ∧
      sparedEdits.length = 3 ∧
      Draft.EmitsLike ⟨"abcdef", sparedEdits⟩ ⟨"abcdef", spareEdits⟩ ∧
      (Draft.render ⟨"abcdef", spareEdits⟩ none []).result = .ok "XeYdef" := by
  have planned : (ofEdits spareEdits).result =
      .ok [⟨⟨0, 4⟩, 1, .fixed "X"⟩, ⟨⟨5, 3⟩, 1, .fixed "Y"⟩] := by cbv
  obtain ⟨-, placed, same, -, -, without⟩ := ofEdits_without_dropped planned
  -- the edits kept have order one, so the choice leaves out none of them
  have keeps : ∀ entry ∈ placed, decide (entry.1.order ≠ 2) = true := by
    intro entry member
    have known : entry.1 ∈ placed.map Prod.fst := List.mem_map_of_mem member
    rw [← same] at known
    rcases List.mem_cons.mp known with first | others
    · simp [first]
    · simp [List.mem_singleton.mp others]
  obtain ⟨planned', -, alike⟩ := without _ keeps
  exact ⟨planned, planned', rfl, alike "abcdef", by cbv⟩

end Splice
