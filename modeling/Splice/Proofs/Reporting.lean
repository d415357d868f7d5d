/-
**What a plan reports.**

A plan says which edits take effect, and reports every edit that it drops together with the replacement
because of which it does so. Both depend on nothing but the edits: precedence falls back on orders, and if
these are distinct, it leaves no choice where edits stand, so that the places in which they were listed
do not count.

A report is made in the middle of a sweep, when it is not yet known how the sweep ends. That the
replacement in a report is one of the edits kept, and that the dropped edit lies in it, rests on the order
of precedence: the replacement kept last precedes the edit that begins in it.

* `Edit.sorted_perm`, `Plan.ofEdits_perm`: edits with distinct orders, listed in any way;
* `Plan.Passes.accounts`: every edit is kept or reported, once;
* `Plan.Passes.reports`: what is true of an edit that is reported and of the replacement named with it;
* `Plan.ofEdits_accounts`: the reports of a plan that succeeds.
-/

import Mathlib
import Splice.Event
import Splice.Proofs.Sweep

namespace Splice

/-! ### Edits listed in another way -/

namespace Edit

/-- Edits that precede each other agree in range and order. -/
theorem eq_of_precedes {first second : Edit} (ahead : first.precedes second = true)
    (behind : second.precedes first = true) :
    first.span = second.span ∧ first.order = second.order := by
  rw [precedes_iff] at ahead behind
  rw [span_eq_iff]
  omega

/-- **Edits with distinct orders are sorted in one way**, however they are listed. -/
theorem sorted_perm {edits others : List Edit} (reordered : edits.Perm others)
    (distinct : (edits.map order).Nodup) : sorted edits = sorted others := by
  have perm : (sorted edits).Perm (sorted others) :=
    (List.mergeSort_perm edits _).trans (reordered.trans (List.mergeSort_perm others _).symm)
  refine perm.eq_of_pairwise ?_ (sorted_pairwise edits) (sorted_pairwise others)
  intro first second front back ahead behind
  have known : first ∈ edits := mem_sorted.mp front
  have known' : second ∈ edits := reordered.mem_iff.mpr (mem_sorted.mp back)
  exact List.inj_on_of_nodup_map distinct known known' (eq_of_precedes ahead behind).2

end Edit

namespace Plan

/-- **A plan depends on the edits alone**, and not on how they are listed, if their orders are distinct.
Nothing is required of their ranges. The edits are sorted in the same way; the same edits are reported as
dropped, because of the same replacements and in the same order; and then the same edits are kept in the
same order, or the same two replacements clash. -/
theorem ofEdits_perm {edits others : List Edit} (reordered : edits.Perm others)
    (distinct : (edits.map Edit.order).Nodup) :
    Edit.sorted edits = Edit.sorted others ∧
      (ofEdits edits).drops = (ofEdits others).drops ∧
      (ofEdits edits).events = (ofEdits others).events ∧
      ((∃ kept, (ofEdits edits).result = .ok kept ∧ (ofEdits others).result = .ok kept) ∨
        ∃ clash, (ofEdits edits).result = .error clash ∧
          (ofEdits others).result = .error clash) := by
  have sameSorted : Edit.sorted edits = Edit.sorted others := Edit.sorted_perm reordered distinct
  have same : ofEdits edits = ofEdits others := congrArg (sweep none) sameSorted
  refine ⟨sameSorted, congrArg Plan.drops same, congrArg Plan.events same, ?_⟩
  rw [same]
  cases (ofEdits others).result with
  | ok kept => exact Or.inl ⟨kept, rfl, rfl⟩
  | error clash => exact Or.inr ⟨clash, rfl, rfl⟩

/-- A range read backwards, a range below zero with an insertion in it, two replacements of one range, and
two insertions at one offset. -/
def scatteredEdits : List Edit :=
  [⟨⟨7, 4⟩, 3, .fixed "back"⟩, ⟨⟨-5, -1⟩, 2, .fixed "low"⟩, ⟨⟨-3, -3⟩, 9, .fixed "!"⟩,
    ⟨⟨1, 3⟩, 8, .fixed "late"⟩, ⟨⟨1, 3⟩, 5, .fixed "early"⟩, ⟨⟨1, 1⟩, 7, .fixed "b"⟩,
    ⟨⟨1, 1⟩, 4, .fixed "a"⟩]

theorem ofEdits_perm_scattered :
    scatteredEdits.reverse.Perm scatteredEdits ∧
      (scatteredEdits.reverse.map Edit.order).Nodup ∧
      (ofEdits scatteredEdits).drops.map (fun drop => (drop.edit.order, drop.outer.order)) =
        [(9, 2), (8, 5)] ∧
      (ofEdits scatteredEdits.reverse).drops = (ofEdits scatteredEdits).drops ∧
      ∃ kept, (ofEdits scatteredEdits).result = .ok kept ∧
        (ofEdits scatteredEdits.reverse).result = .ok kept ∧
        kept.map Edit.order = [2, 4, 7, 5, 3] := by
  have reordered : scatteredEdits.reverse.Perm scatteredEdits := List.reverse_perm _
  have distinct : (scatteredEdits.reverse.map Edit.order).Nodup := by decide
  have planned : (ofEdits scatteredEdits).result.map (List.map Edit.order) =
      .ok [2, 4, 7, 5, 3] := by cbv
  obtain ⟨-, drops, -, ⟨kept, planned₁, planned₂⟩ | ⟨clash, -, refused⟩⟩ :=
    ofEdits_perm reordered distinct
  · rw [planned₂] at planned
    exact ⟨reordered, distinct, by cbv, drops, kept, planned₂, planned₁, Except.ok.inj planned⟩
  · rw [refused] at planned
    cases planned

/-! ### Edits that are reported -/

theorem level_dropped (drop : Drop) :
    (Event.dropped drop).level = if drop.edit.isInsertion then .info else .debug := rfl

namespace Passes

variable {seen edits kept : List Edit} {last : Option Edit} {drops : List Drop}

/-- **Every edit is kept or reported**, once. -/
theorem accounts (passes : Passes last edits drops kept) :
    (kept ++ drops.map Drop.edit).Perm edits := by
  induction passes with
  | done last => exact .refl _
  | drop _ _ _ ih => exact List.perm_middle.trans (ih.cons _)
  | keep _ _ ih => exact ih.cons _

theorem dropped_sublist (passes : Passes last edits drops kept) :
    (drops.map Drop.edit).Sublist edits := by
  induction passes with
  | done last => exact .slnil
  | drop _ _ _ ih => exact ih.cons_cons _
  | keep _ _ ih => exact ih.cons _

/-- **What is true of a report**: the replacement in it is the one that the sweep began with or is among
the edits kept; it precedes the edit, which begins in it and fits. -/
theorem reports (passes : Passes last edits drops kept) (trails : Trails seen last)
    (ordered : (seen ++ edits).Pairwise fun first second => first.precedes second = true) :
    ∀ drop ∈ drops, (drop.outer ∈ last ∨ drop.outer ∈ kept) ∧ drop.outer.isInsertion = false ∧
      drop.outer.precedes drop.edit = true ∧ drop.edit.start < drop.outer.stop ∧
      Fits drop.edit drop.outer := by
  induction passes generalizing seen with
  | done last => exact fun _ member => (List.not_mem_nil member).elim
  | @drop last edit outer rest drops kept met fits _ ih =>
    have ascending := Ascending.start_le (ordered.imp Edit.start_le_of_precedes)
    have shifted := ordered
    rw [List.append_cons] at shifted
    obtain ⟨isLast, inside⟩ := obstacle?_eq_some_iff.mp met
    obtain ⟨known, proper⟩ := trails.member outer isLast
    have ahead := (List.pairwise_append.mp ordered).2.2 outer known edit List.mem_cons_self
    exact List.forall_mem_cons.mpr
      ⟨⟨Or.inl isLast, proper, ahead, inside, fits⟩, ih (trails.drop ascending met fits) shifted⟩
  | @keep last edit rest drops kept free _ ih =>
    have ascending := Ascending.start_le (ordered.imp Edit.start_le_of_precedes)
    have shifted := ordered
    rw [List.append_cons] at shifted
    intro drop member
    obtain ⟨source, facts⟩ := ih (trails.keep ascending free) shifted drop member
    refine ⟨?_, facts⟩
    -- the replacement kept last is now the edit itself, unless it is an insertion
    rcases source with isLast | isKept
    · unfold advance at isLast
      split at isLast
      · exact Or.inl isLast
      · exact Or.inr (Option.some.inj isLast ▸ List.mem_cons_self)
    · exact Or.inr (List.mem_cons_of_mem _ isKept)

end Passes

/-- **Every dropped edit is accounted for.** Let edits of any ranges and orders have a plan. Then

* the edits kept and those reported as dropped are the edits, each once;
* there is one event for each edit dropped, in the order in which the edits sort, which is the order of
  precedence;
* each event names a replacement that is among the edits kept; at the level of information it is about an
  insertion strictly inside this replacement, and at the level of details about a replacement whose range
  lies within that of the other. -/
theorem ofEdits_accounts {edits kept : List Edit} (planned : (ofEdits edits).result = .ok kept) :
    let drops := (ofEdits edits).drops
    let dropped := drops.map Drop.edit
    (kept ++ dropped).Perm edits ∧
      (ofEdits edits).events = drops.map .dropped ∧
      dropped.Sublist (Edit.sorted edits) ∧ Edit.sorted dropped = dropped ∧
      ∀ drop ∈ drops, drop.outer ∈ kept ∧ drop.outer.isInsertion = false ∧
        ((Event.dropped drop).level = .info ∧ drop.edit.isInsertion = true ∧
            drop.outer.start < drop.edit.start ∧ drop.edit.stop < drop.outer.stop ∨
          (Event.dropped drop).level = .debug ∧ drop.edit.isInsertion = false ∧
            drop.outer.start ≤ drop.edit.start ∧ drop.edit.stop ≤ drop.outer.stop) := by
  obtain ⟨drops, passes⟩ := sweep_ok_iff.mp planned
  have swept : ofEdits edits = ⟨drops, .ok kept⟩ := passes.sweep_eq
  rw [swept]
  intro drops' dropped
  have inside : dropped.Sublist (Edit.sorted edits) := passes.dropped_sublist
  have ordered : dropped.Pairwise fun first second => first.precedes second = true :=
    (Edit.sorted_pairwise edits).sublist inside
  refine ⟨passes.accounts.trans (List.mergeSort_perm edits _), rfl, inside,
    List.mergeSort_of_pairwise ordered, fun drop member => ?_⟩
  obtain ⟨source, proper, ahead, begins, fits⟩ :=
    passes.reports Trails.start (Edit.sorted_pairwise edits) drop member
  have isKept : drop.outer ∈ kept := source.resolve_left (Option.not_mem_none _)
  refine ⟨isKept, proper, ?_⟩
  have extent := (Edit.isInsertion_eq_false_iff _).mp proper
  have precedes := (Edit.precedes_iff _ _).mp ahead
  rw [level_dropped]
  cases point : drop.edit.isInsertion with
  | true =>
    -- at the start of the replacement the insertion would come first
    have flat := (Edit.isInsertion_iff _).mp point
    exact Or.inl ⟨rfl, rfl, by omega, by omega⟩
  | false =>
    have within : drop.edit.stop ≤ drop.outer.stop := fits.resolve_left (by simp [point])
    exact Or.inr ⟨rfl, rfl, Edit.start_le_of_precedes ahead, within⟩

theorem ofEdits_accounts_scattered :
    ∃ kept, (ofEdits scatteredEdits).result = .ok kept ∧
      (kept ++ (ofEdits scatteredEdits).drops.map Drop.edit).Perm scatteredEdits ∧
      (ofEdits scatteredEdits).drops.length = 2 ∧
      ∀ drop ∈ (ofEdits scatteredEdits).drops, drop.outer ∈ kept := by
  cases planned : (ofEdits scatteredEdits).result with
  | error clash =>
    have accepted : (ofEdits scatteredEdits).result.toBool = true := by cbv
    rw [planned] at accepted
    cases accepted
  | ok kept =>
    obtain ⟨all, -, -, -, reports⟩ := ofEdits_accounts planned
    exact ⟨kept, rfl, all, by cbv, fun drop member => (reports drop member).1⟩

end Plan

end Splice
