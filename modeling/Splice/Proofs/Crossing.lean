/-
**Which edits clash.**

A sweep stops where an edit begins in the replacement kept last and ends behind it. Whether it stops
depends on the outermost ranges alone: it does exactly if two of them cross, and then it names two
that do (`Plan.clash_iff_outermost_cross`). Ranges that cross inside a wider one are of no
consequence, nor are insertions (`Plan.ofEdits_filter_replacements`).

* `Plan.Stops.outermost_cross`: the two parties of a clash are outermost and cross;
* `Plan.Passes.outermost_apart`: no two outermost ranges cross when a sweep runs through.

Some of this needs no promise about the ranges, which may be read backwards or lie below zero: the two
parties of a clash cross all the same (`Plan.Stops.crosses`), and edits that are kept lie apart
(`Plan.ofEdits_lie_apart`).
-/

import Splice.Proofs.Outcomes
import Splice.Proofs.Survival

namespace Splice

namespace Plan

variable {edits kept : List Edit} {drops : List Drop} {clash : Clash}

/-! ### Clashes name outermost ranges -/

/-- No edit encloses one that stands ahead of it in the order of precedence. -/
theorem not_encloses_of_precedes {first second : Edit} (ahead : first.precedes second = true)
    (front : first.isInsertion = false) (back : second.isInsertion = false) :
    ¬ second.span.Encloses first.span := by
  rw [Edit.isInsertion_eq_false_iff] at front back
  rw [Edit.precedes_iff] at ahead
  rw [Edit.encloses_iff, ne_eq, Edit.span_eq_iff]
  omega

section Parties

variable {before rest : List Edit} {outer edit : Edit} (trails : Trails before (some outer))

include trails

/-- No replacement encloses the one kept last. -/
theorem Trails.last_widest (flat : outer.start ≤ outer.stop)
    (ordered : (before ++ rest).Pairwise fun first second => first.precedes second = true) :
    ∀ other ∈ before ++ rest, other.isInsertion = false → ¬ other.span.Encloses outer.span := by
  obtain ⟨known, proper⟩ := trails.member outer rfl
  have extent := (Edit.isInsertion_eq_false_iff _).mp proper
  intro other member point
  rcases List.mem_append.mp member with front | behind
  · obtain ⟨last, same, bounds⟩ := trails.bound other front point
    obtain rfl := Option.some.inj same
    rw [Edit.encloses_iff, ne_eq, Edit.span_eq_iff]
    omega
  · have ahead := (List.pairwise_append.mp ordered).2.2 outer known other behind
    exact not_encloses_of_precedes ahead proper point

/-- No replacement encloses one that begins in the one kept last and ends behind it. -/
theorem Trails.next_widest (proper : edit.isInsertion = false) (inside : edit.start < outer.stop)
    (beyond : outer.stop < edit.stop)
    (ordered : (before ++ edit :: rest).Pairwise fun first second => first.precedes second = true) :
    ∀ other ∈ before ++ edit :: rest, other.isInsertion = false →
      ¬ other.span.Encloses edit.span := by
  intro other member point
  rcases List.mem_append.mp member with front | behind
  · obtain ⟨last, same, bounds⟩ := trails.bound other front point
    obtain rfl := Option.some.inj same
    obtain ⟨known, proper'⟩ := trails.member outer rfl
    have ahead := (List.pairwise_append.mp ordered).2.2 outer known edit List.mem_cons_self
    have starts := Edit.start_le_of_precedes ahead
    rw [Edit.encloses_iff]
    omega
  · rcases List.mem_cons.mp behind with rfl | behind
    · exact fun encloses => encloses.2.2 rfl
    · have back := (List.pairwise_append.mp ordered).2.1
      exact not_encloses_of_precedes ((List.pairwise_cons.mp back).1 other behind) proper point

end Parties

/-- **The parties of a clash** are two of the edits, and cross, whatever ranges there are. -/
theorem Stops.crosses (stops : Stops none (Edit.sorted edits) drops clash) :
    clash.first ∈ edits ∧ clash.second ∈ edits ∧ clash.first.span.Crosses clash.second.span := by
  obtain ⟨before, after, parts, trails, proper, inside, beyond⟩ :=
    stops.split Trails.start (Edit.sorted_ascending edits)
  rw [List.nil_append] at trails
  obtain ⟨known, proper'⟩ := trails.member clash.first rfl
  have ordered := Edit.sorted_pairwise edits
  rw [parts] at ordered
  have registered : clash.first ∈ edits := by
    rw [← Edit.mem_sorted, parts]
    exact List.mem_append_left _ known
  have registered' : clash.second ∈ edits := by
    rw [← Edit.mem_sorted, parts]
    exact List.mem_append_right _ List.mem_cons_self
  -- at one start, precedence would let the first end last
  have ahead := (List.pairwise_append.mp ordered).2.2 _ known _ List.mem_cons_self
  rw [Edit.isInsertion_eq_false_iff] at proper proper'
  rw [Edit.precedes_iff] at ahead
  refine ⟨registered, registered', Edit.crosses_iff.mpr ⟨?_, inside, beyond⟩⟩
  omega

/-- **The parties of a clash** are outermost and cross. -/
theorem Stops.outermost_cross (upright : ∀ edit ∈ edits, edit.start ≤ edit.stop)
    (stops : Stops none (Edit.sorted edits) drops clash) :
    Outermost edits clash.first ∧ Outermost edits clash.second ∧
      clash.first.span.Crosses clash.second.span := by
  obtain ⟨before, after, parts, trails, proper, inside, beyond⟩ :=
    stops.split Trails.start (Edit.sorted_ascending edits)
  rw [List.nil_append] at trails
  obtain ⟨known, proper'⟩ := trails.member clash.first rfl
  have ordered := Edit.sorted_pairwise edits
  rw [parts] at ordered
  have found : ∀ edit, edit ∈ edits ↔ edit ∈ before ++ clash.second :: after := by
    intro edit
    rw [← parts, Edit.mem_sorted]
  obtain ⟨registered, registered', cross⟩ := stops.crosses
  have widest := trails.last_widest (upright _ registered) ordered
  have widest' := trails.next_widest proper inside beyond ordered
  exact ⟨⟨registered, proper', fun other member => widest other ((found other).mp member)⟩,
    ⟨registered', proper, fun other member => widest' other ((found other).mp member)⟩, cross⟩

/-! ### Outermost ranges that cross make a clash -/

/-- **No two outermost ranges cross** when a sweep runs through. -/
theorem Passes.outermost_apart (passes : Passes none (Edit.sorted edits) drops kept)
    {first second : Edit} (front : Outermost edits first) (back : Outermost edits second) :
    ¬ first.span.Crosses second.span := by
  rw [Edit.crosses_iff]
  rintro ⟨start, inside, beyond⟩
  obtain ⟨before, after, parts⟩ :=
    List.append_of_mem (Edit.mem_sorted.mpr back.registered)
  have ordered := Edit.sorted_ascending edits
  rw [parts] at passes ordered
  obtain ⟨current, trails, fits⟩ := passes.split Trails.start ordered
  rw [List.nil_append] at trails
  have known : first ∈ before := by
    have sorted := Edit.mem_sorted.mpr front.registered
    rw [parts] at sorted
    rcases List.mem_append.mp sorted with known | behind
    · exact known
    · rcases List.mem_cons.mp behind with rfl | behind
      · omega
      · have := (List.pairwise_cons.mp (List.pairwise_append.mp ordered).2.1).1 first behind
        omega
  obtain ⟨outer, isLast, bound⟩ := trails.bound first known front.replaces
  obtain ⟨member, proper⟩ := trails.member outer isLast
  have registered : outer ∈ edits := by
    rw [← Edit.mem_sorted, parts]
    exact List.mem_append_left _ member
  have ahead := Ascending.start_le ordered outer member
  -- The replacement kept last spans the first range, so it has that range.
  have same : outer.span = first.span := by
    by_contra differ
    refine front.widest outer registered proper (Edit.encloses_iff.mpr ⟨?_, ?_, differ⟩) <;> omega
  rw [Edit.span_eq_iff] at same
  have met : obstacle? current second = some outer :=
    obstacle?_eq_some_iff.mpr ⟨isLast, by omega⟩
  have within := (fits outer met).resolve_left (by simp [back.replaces])
  omega

/-! ### Insertions -/

/-- Insertions neither stop a sweep nor change what it remembers. -/
theorem sweep_filter_replacements (last : Option Edit) (edits : List Edit) :
    (sweep last (edits.filter fun edit => !edit.isInsertion)).result =
      (sweep last edits).result.map (List.filter fun edit => !edit.isInsertion) := by
  induction edits generalizing last with
  | nil => rfl
  | cons edit rest ih =>
    cases point : edit.isInsertion with
    | true =>
      rw [List.filter_cons_of_neg (by simp [point]), ih]
      cases met : obstacle? last edit with
      | none =>
        rw [sweep_cons_keep rest met, advance, if_pos point]
        simp only [keep]
        cases (sweep last rest).result <;> simp [Except.map, point]
      | some outer =>
        rw [sweep_cons_drop rest met (Or.inl point)]
        rfl
    | false =>
      rw [List.filter_cons_of_pos (by simp [point])]
      cases met : obstacle? last edit with
      | none =>
        rw [sweep_cons_keep _ met, sweep_cons_keep _ met]
        simp only [keep, ih]
        cases (sweep (advance last edit) rest).result <;> simp [Except.map, point]
      | some outer =>
        by_cases fits : Fits edit outer
        · rw [sweep_cons_drop _ met fits, sweep_cons_drop _ met fits]
          exact ih last
        · rw [sweep_cons_clash _ met fits, sweep_cons_clash _ met fits]
          rfl

/-- The plan of the replacements alone is the plan of all edits without its insertions. -/
theorem ofEdits_filter_replacements (edits : List Edit) :
    (ofEdits (edits.filter fun edit => !edit.isInsertion)).result =
      (ofEdits edits).result.map (List.filter fun edit => !edit.isInsertion) := by
  unfold ofEdits
  rw [← Edit.sorted_filter, sweep_filter_replacements]

theorem exists_ok_of_no_error (none_stops : ∀ clash, (ofEdits edits).result ≠ .error clash) :
    ∃ kept, (ofEdits edits).result = .ok kept := by
  cases planned : (ofEdits edits).result with
  | error clash => exact (none_stops clash planned).elim
  | ok kept => exact ⟨kept, rfl⟩

/-- **Clashes.** A plan fails exactly if two outermost ranges cross, and then names two that do. So
it succeeds if of any two ranges that cross one is enclosed by another, and insertions make no
difference. -/
theorem clash_iff_outermost_cross {edits : List Edit}
    (upright : ∀ edit ∈ edits, edit.start ≤ edit.stop) :
    ((∃ clash, (ofEdits edits).result = .error clash) ↔
      ∃ first second, Outermost edits first ∧ Outermost edits second ∧
        first.span.Crosses second.span) ∧
    (∀ clash, (ofEdits edits).result = .error clash →
      Outermost edits clash.first ∧ Outermost edits clash.second ∧
        clash.first.span.Crosses clash.second.span) ∧
    ((∀ first ∈ edits, ∀ second ∈ edits, first.span.Crosses second.span →
      ∃ outer ∈ edits, outer.span.Encloses first.span ∨ outer.span.Encloses second.span) →
      ∃ kept, (ofEdits edits).result = .ok kept) ∧
    ∀ clash, (ofEdits edits).result = .error clash ↔
      (ofEdits (edits.filter fun edit => !edit.isInsertion)).result = .error clash := by
  have named : ∀ clash, (ofEdits edits).result = .error clash →
      Outermost edits clash.first ∧ Outermost edits clash.second ∧
        clash.first.span.Crosses clash.second.span := by
    intro clash refused
    obtain ⟨drops, stops⟩ := sweep_error_iff.mp refused
    exact stops.outermost_cross upright
  refine ⟨⟨?_, ?_⟩, named, fun enclosed => ?_, fun clash => ?_⟩
  · rintro ⟨clash, refused⟩
    exact ⟨clash.first, clash.second, named clash refused⟩
  · rintro ⟨first, second, front, back, cross⟩
    cases planned : (ofEdits edits).result with
    | error clash => exact ⟨clash, rfl⟩
    | ok kept =>
      obtain ⟨drops, passes⟩ := sweep_ok_iff.mp planned
      exact (passes.outermost_apart front back cross).elim
  · refine exists_ok_of_no_error fun clash refused => ?_
    obtain ⟨front, back, cross⟩ := named clash refused
    obtain ⟨outer, member, wider⟩ :=
      enclosed _ front.registered _ back.registered cross
    have proper : outer.isInsertion = false := by
      rw [Edit.isInsertion_eq_false_iff]
      rw [Edit.crosses_iff] at cross
      rw [Edit.encloses_iff, Edit.encloses_iff] at wider
      omega
    rcases wider with wider | wider
    · exact front.widest outer member proper wider
    · exact back.widest outer member proper wider
  · rw [ofEdits_filter_replacements, map_eq_error_iff]

/-- Two ranges that cross, and an insertion where both are. -/
def crossingEdits : List Edit :=
  [⟨⟨3, 8⟩, 1, .fixed "back"⟩, ⟨⟨4, 4⟩, 2, .fixed "!"⟩, ⟨⟨0, 5⟩, 3, .fixed "front"⟩]

/-- The same edits, and one around them. -/
def wrappedEdits : List Edit := crossingEdits ++ [⟨⟨0, 9⟩, 4, .fixed "all"⟩]

theorem clash_iff_outermost_cross_wrapped :
    (∀ edit ∈ crossingEdits, edit.start ≤ edit.stop) ∧
      (∃ clash, (ofEdits crossingEdits).result = .error clash) ∧
      (∀ edit ∈ wrappedEdits, edit.start ≤ edit.stop) ∧
      ∃ kept, (ofEdits wrappedEdits).result = .ok kept := by
  have upright : ∀ edit ∈ crossingEdits, edit.start ≤ edit.stop := by decide
  have upright' : ∀ edit ∈ wrappedEdits, edit.start ≤ edit.stop := by decide
  refine ⟨upright, (clash_iff_outermost_cross upright).1.mpr ?_, upright',
    (clash_iff_outermost_cross upright').2.2.1 ?_⟩
  · have front : Outermost crossingEdits ⟨⟨0, 5⟩, 3, .fixed "front"⟩ :=
      ⟨by simp [crossingEdits], rfl, by decide⟩
    have back : Outermost crossingEdits ⟨⟨3, 8⟩, 1, .fixed "back"⟩ :=
      ⟨by simp [crossingEdits], rfl, by decide⟩
    exact ⟨_, _, front, back, by decide⟩
  · -- Every range that crosses another one lies in the one around them.
    have enclosed : ∀ first ∈ wrappedEdits, ∀ second ∈ wrappedEdits,
        first.span.Crosses second.span → (⟨0, 9⟩ : Span).Encloses first.span := by decide
    intro first front second back cross
    exact ⟨⟨⟨0, 9⟩, 4, .fixed "all"⟩, by simp [wrappedEdits],
      Or.inl (enclosed first front second back cross)⟩

/-! ### Ranges of any kind -/

/-- **Plans of any edits whatever.** Ranges may be read backwards or lie below zero, and orders may repeat.
The edits are sorted by precedence, those of one rank in the order in which they are listed, and then

* either two of them clash, of which the second begins inside the first and ends behind it;
* or some of them are kept as they are sorted, and of any two that are kept, next to each other or not,
  the later begins no sooner than an earlier replacement ends. -/
theorem ofEdits_lie_apart (edits : List Edit) :
    let order := Edit.sorted edits
    (order.Perm edits ∧ (order.Pairwise fun first second => first.precedes second = true) ∧
      ∀ rank, (order.filter fun edit => edit.rank = rank) = edits.filter fun edit => edit.rank = rank) ∧
    ((∃ clash, (ofEdits edits).result = .error clash ∧ clash.first ∈ edits ∧ clash.second ∈ edits ∧
        clash.first.start < clash.second.start ∧ clash.second.start < clash.first.stop ∧
        clash.first.stop < clash.second.stop) ∨
      ∃ kept, (ofEdits edits).result = .ok kept ∧ kept.Sublist order ∧
        kept.Pairwise fun first second => first.isInsertion = false → first.stop ≤ second.start) := by
  intro order
  refine ⟨⟨List.mergeSort_perm edits _, Edit.sorted_pairwise edits,
    fun rank => Edit.sorted_filter_rank rank edits⟩, ?_⟩
  rcases sweep_cases none order with ⟨drops, kept, planned, passes⟩ | ⟨drops, clash, planned, stops⟩
  · have result : (ofEdits edits).result = .ok kept := congrArg Plan.result planned
    exact Or.inr ⟨kept, result, passes.kept_sublist,
      passes.kept_apart Trails.start (Edit.sorted_ascending edits)⟩
  · have result : (ofEdits edits).result = .error clash := congrArg Plan.result planned
    exact Or.inl ⟨clash, result, stops.crosses⟩

/-- Ranges read backwards take the end of the replacement kept last back, and yet nothing that is kept
begins inside the first range. -/
example : (ofEdits [⟨⟨12, 5⟩, 1, .fixed ""⟩, ⟨⟨0, 10⟩, 2, .fixed ""⟩, ⟨⟨10, -3⟩, 3, .fixed ""⟩,
    ⟨⟨7, 7⟩, 4, .fixed ""⟩, ⟨⟨12, 12⟩, 5, .fixed ""⟩, ⟨⟨9, 4⟩, 5, .fixed ""⟩]).result.map
      (List.map Edit.span) = .ok [⟨0, 10⟩, ⟨10, -3⟩, ⟨12, 12⟩, ⟨12, 5⟩] := by
  cbv

end Plan

end Splice
