/-
**How a plan comes about.**

A sweep decides edit by edit and remembers nothing but the replacement kept last. Two relations spell
its steps out, `Plan.Passes` for a sweep that runs through and `Plan.Stops` for one that meets a
clash (`Plan.sweep_ok_iff`, `Plan.sweep_error_iff`).

What the replacement kept last tells about all edits behind the sweep is the invariant
`Plan.Trails`: every replacement seen so far ends before it begins, or lies within it. It holds at
every step, for ranges of any kind, as long as starts ascend. Hence

* `Plan.Trails.obstacle?_eq_none_iff`: an edit is kept exactly if no replacement seen so far, kept
  or dropped, ends behind its start;
* `Plan.Passes.split`, `Plan.Stops.split`: what is true where a sweep comes to an edit, or stops;
* `Plan.Passes.kept_apart`: no edit kept begins before the end of a replacement kept earlier;
* `Plan.Passes.kept_eq_filter`: the edits kept are a sublist, given by a test on its members;
* `Plan.sweep_map`: a change of the edits that keeps how they lie to one another changes the plan
  in the same way and no other.
-/

import Splice.Proofs.Precedence

namespace Splice

namespace Plan

/-! ### The steps of a sweep -/

/-- The replacement kept last, once an edit has been kept. -/
def advance (last : Option Edit) (edit : Edit) : Option Edit :=
  if edit.isInsertion then last else some edit

/-- An edit can be dropped because of a replacement that it begins in. -/
def Fits (edit outer : Edit) : Prop := edit.isInsertion = true ∨ edit.stop ≤ outer.stop

/-- A sweep that runs through, with the edits that it drops and keeps. -/
inductive Passes : Option Edit → List Edit → List Drop → List Edit → Prop
  | done (last : Option Edit) : Passes last [] [] []
  | drop {last : Option Edit} {edit outer : Edit} {rest : List Edit} {drops : List Drop}
      {kept : List Edit} (met : obstacle? last edit = some outer) (fits : Fits edit outer)
      (others : Passes last rest drops kept) :
      Passes last (edit :: rest) (⟨edit, outer⟩ :: drops) kept
  | keep {last : Option Edit} {edit : Edit} {rest : List Edit} {drops : List Drop}
      {kept : List Edit} (free : obstacle? last edit = none)
      (others : Passes (advance last edit) rest drops kept) :
      Passes last (edit :: rest) drops (edit :: kept)

/-- A sweep that stops at a clash, with the edits that it drops on the way. -/
inductive Stops : Option Edit → List Edit → List Drop → Clash → Prop
  | clash {last : Option Edit} {edit outer : Edit} (rest : List Edit)
      (met : obstacle? last edit = some outer) (crosses : ¬ Fits edit outer) :
      Stops last (edit :: rest) [] ⟨outer, edit⟩
  | drop {last : Option Edit} {edit outer : Edit} {rest : List Edit} {drops : List Drop}
      {clash : Clash} (met : obstacle? last edit = some outer) (fits : Fits edit outer)
      (others : Stops last rest drops clash) :
      Stops last (edit :: rest) (⟨edit, outer⟩ :: drops) clash
  | keep {last : Option Edit} {edit : Edit} {rest : List Edit} {drops : List Drop}
      {clash : Clash} (free : obstacle? last edit = none)
      (others : Stops (advance last edit) rest drops clash) :
      Stops last (edit :: rest) drops clash

theorem obstacle?_eq_some_iff {last : Option Edit} {edit outer : Edit} :
    obstacle? last edit = some outer ↔ outer ∈ last ∧ edit.start < outer.stop := by
  simp [obstacle?, Option.filter_eq_some_iff]

theorem obstacle?_eq_none_iff {last : Option Edit} {edit : Edit} :
    obstacle? last edit = none ↔ ∀ outer ∈ last, outer.stop ≤ edit.start := by
  simp [obstacle?, Option.filter_eq_none_iff]

theorem fits_iff (edit outer : Edit) :
    Fits edit outer ↔ (edit.isInsertion || decide (edit.stop ≤ outer.stop)) = true := by
  simp [Fits]

theorem sweep_cons_drop {last : Option Edit} {edit outer : Edit} (rest : List Edit)
    (met : obstacle? last edit = some outer) (fits : Fits edit outer) :
    sweep last (edit :: rest) = drop edit outer (sweep last rest) := by
  rw [fits_iff] at fits
  simp only [sweep, met, fits, if_true]

theorem sweep_cons_clash {last : Option Edit} {edit outer : Edit} (rest : List Edit)
    (met : obstacle? last edit = some outer) (crosses : ¬ Fits edit outer) :
    sweep last (edit :: rest) = ⟨[], .error ⟨outer, edit⟩⟩ := by
  rw [fits_iff] at crosses
  simp only [sweep, met, crosses, if_false, Bool.false_eq_true]

theorem sweep_cons_keep {last : Option Edit} {edit : Edit} (rest : List Edit)
    (free : obstacle? last edit = none) :
    sweep last (edit :: rest) = keep edit (sweep (advance last edit) rest) := by
  simp only [sweep, free, advance]

/-- Every sweep runs through or stops at a clash. -/
theorem sweep_cases (last : Option Edit) (edits : List Edit) :
    (∃ drops kept, sweep last edits = ⟨drops, .ok kept⟩ ∧ Passes last edits drops kept) ∨
      ∃ drops clash, sweep last edits = ⟨drops, .error clash⟩ ∧ Stops last edits drops clash := by
  induction edits generalizing last with
  | nil => exact Or.inl ⟨[], [], rfl, .done last⟩
  | cons edit rest ih =>
    cases met : obstacle? last edit with
    | none =>
      rw [sweep_cons_keep rest met]
      rcases ih (advance last edit) with ⟨drops, kept, same, passes⟩ | ⟨drops, clash, same, stops⟩
      · exact Or.inl ⟨drops, edit :: kept, by rw [same]; rfl, .keep met passes⟩
      · exact Or.inr ⟨drops, clash, by rw [same]; rfl, .keep met stops⟩
    | some outer =>
      by_cases fits : Fits edit outer
      · rw [sweep_cons_drop rest met fits]
        rcases ih last with ⟨drops, kept, same, passes⟩ | ⟨drops, clash, same, stops⟩
        · exact Or.inl ⟨_, kept, by rw [same]; rfl, .drop met fits passes⟩
        · exact Or.inr ⟨_, clash, by rw [same]; rfl, .drop met fits stops⟩
      · rw [sweep_cons_clash rest met fits]
        exact Or.inr ⟨[], ⟨outer, edit⟩, rfl, .clash rest met fits⟩

theorem Passes.sweep_eq {last : Option Edit} {edits : List Edit} {drops : List Drop}
    {kept : List Edit} (passes : Passes last edits drops kept) :
    sweep last edits = ⟨drops, .ok kept⟩ := by
  induction passes with
  | done last => rfl
  | drop met fits _ ih => rw [sweep_cons_drop _ met fits, ih]; rfl
  | keep free _ ih => rw [sweep_cons_keep _ free, ih]; rfl

theorem Stops.sweep_eq {last : Option Edit} {edits : List Edit} {drops : List Drop}
    {clash : Clash} (stops : Stops last edits drops clash) :
    sweep last edits = ⟨drops, .error clash⟩ := by
  induction stops with
  | clash rest met crosses => exact sweep_cons_clash rest met crosses
  | drop met fits _ ih => rw [sweep_cons_drop _ met fits, ih]; rfl
  | keep free _ ih => rw [sweep_cons_keep _ free, ih]; rfl

/-- **Success, step by step.** -/
theorem sweep_ok_iff {last : Option Edit} {edits kept : List Edit} :
    (sweep last edits).result = .ok kept ↔ ∃ drops, Passes last edits drops kept := by
  constructor
  · intro planned
    rcases sweep_cases last edits with ⟨drops, others, same, passes⟩ | ⟨drops, clash, same, _⟩
    · rw [same] at planned
      cases planned
      exact ⟨drops, passes⟩
    · rw [same] at planned
      cases planned
  · rintro ⟨drops, passes⟩
    rw [passes.sweep_eq]

/-- **Failure, step by step.** -/
theorem sweep_error_iff {last : Option Edit} {edits : List Edit} {clash : Clash} :
    (sweep last edits).result = .error clash ↔ ∃ drops, Stops last edits drops clash := by
  constructor
  · intro refused
    rcases sweep_cases last edits with ⟨drops, kept, same, _⟩ | ⟨drops, other, same, stops⟩
    · rw [same] at refused
      cases refused
    · rw [same] at refused
      cases refused
      exact ⟨drops, stops⟩
  · rintro ⟨drops, stops⟩
    rw [stops.sweep_eq]

/-! ### What the replacement kept last tells -/

/-- No replacement among those seen ends behind the start of the edit. -/
def Clear (seen : List Edit) (edit : Edit) : Prop :=
  ∀ earlier ∈ seen, earlier.isInsertion = false → earlier.stop ≤ edit.start

/-- **The invariant of a sweep.** The replacement kept last is one of the edits seen, and every
replacement seen ends before it begins, or lies within it. -/
structure Trails (seen : List Edit) (last : Option Edit) : Prop where
  member : ∀ outer ∈ last, outer ∈ seen ∧ outer.isInsertion = false
  bound : ∀ earlier ∈ seen, earlier.isInsertion = false →
    ∃ outer ∈ last, earlier.stop ≤ outer.start ∨
      outer.start ≤ earlier.start ∧ earlier.stop ≤ outer.stop

/-- Starts ascend. -/
abbrev Ascending (edits : List Edit) : Prop :=
  edits.Pairwise fun first second => first.start ≤ second.start

theorem Ascending.start_le {before after : List Edit} {edit : Edit}
    (ordered : Ascending (before ++ edit :: after)) :
    ∀ earlier ∈ before, earlier.start ≤ edit.start :=
  fun earlier member => (List.pairwise_append.mp ordered).2.2 earlier member edit List.mem_cons_self

theorem Ascending.shift {seen rest : List Edit} {edit : Edit}
    (ordered : Ascending (seen ++ edit :: rest)) : Ascending ((seen ++ [edit]) ++ rest) := by
  rwa [List.append_assoc, List.singleton_append]

namespace Trails

variable {seen : List Edit} {last : Option Edit} {edit outer : Edit}

theorem start : Trails [] none :=
  ⟨fun _ member => (Option.not_mem_none _ member).elim,
    fun _ member => (List.not_mem_nil member).elim⟩

/-- **The replacement kept last stands for all that were seen.** -/
theorem obstacle?_eq_none_iff (trails : Trails seen last)
    (ascending : ∀ earlier ∈ seen, earlier.start ≤ edit.start) :
    obstacle? last edit = none ↔ Clear seen edit := by
  rw [Plan.obstacle?_eq_none_iff]
  constructor
  · intro free earlier member proper
    obtain ⟨outer, isLast, apart | ⟨_, inside⟩⟩ := trails.bound earlier member proper
    · exact Int.le_trans apart (ascending outer (trails.member outer isLast).1)
    · exact Int.le_trans inside (free outer isLast)
  · intro clear outer isLast
    obtain ⟨member, proper⟩ := trails.member outer isLast
    exact clear outer member proper

theorem drop (trails : Trails seen last) (ascending : ∀ earlier ∈ seen, earlier.start ≤ edit.start)
    (met : obstacle? last edit = some outer) (fits : Fits edit outer) :
    Trails (seen ++ [edit]) last := by
  obtain ⟨isLast, _⟩ := obstacle?_eq_some_iff.mp met
  refine ⟨fun other member => ?_, fun earlier member proper => ?_⟩
  · obtain ⟨known, replaces⟩ := trails.member other member
    exact ⟨List.mem_append_left _ known, replaces⟩
  · rcases List.mem_append.mp member with known | new
    · exact trails.bound earlier known proper
    · obtain rfl := List.mem_singleton.mp new
      have inside : earlier.stop ≤ outer.stop := fits.resolve_left (by simp [proper])
      exact ⟨outer, isLast, Or.inr ⟨ascending outer (trails.member outer isLast).1, inside⟩⟩

theorem keep (trails : Trails seen last) (ascending : ∀ earlier ∈ seen, earlier.start ≤ edit.start)
    (free : obstacle? last edit = none) : Trails (seen ++ [edit]) (advance last edit) := by
  have clear := (trails.obstacle?_eq_none_iff ascending).mp free
  cases point : edit.isInsertion with
  | true =>
    rw [advance, if_pos point]
    refine ⟨fun other member => ?_, fun earlier member proper => ?_⟩
    · obtain ⟨known, replaces⟩ := trails.member other member
      exact ⟨List.mem_append_left _ known, replaces⟩
    · rcases List.mem_append.mp member with known | new
      · exact trails.bound earlier known proper
      · obtain rfl := List.mem_singleton.mp new
        rw [point] at proper
        cases proper
  | false =>
    rw [advance, if_neg (by simp [point])]
    refine ⟨fun other member => ?_, fun earlier member proper => ⟨edit, rfl, ?_⟩⟩
    · obtain rfl := Option.some.inj member
      exact ⟨List.mem_append_right _ List.mem_cons_self, point⟩
    · rcases List.mem_append.mp member with known | new
      · exact Or.inl (clear earlier known proper)
      · obtain rfl := List.mem_singleton.mp new
        exact Or.inr ⟨Int.le_refl _, Int.le_refl _⟩

end Trails

/-! ### Sweeps that run through -/

namespace Passes

variable {seen edits kept : List Edit} {last : Option Edit} {drops : List Drop}

theorem kept_sublist (passes : Passes last edits drops kept) : kept.Sublist edits := by
  induction passes with
  | done last => exact List.Sublist.refl _
  | drop _ _ _ ih => exact ih.cons _
  | keep _ _ ih => exact ih.cons_cons _

/-- Every edit is kept or dropped. -/
theorem length_add (passes : Passes last edits drops kept) :
    kept.length + drops.length = edits.length := by
  induction passes with
  | done last => rfl
  | drop _ _ _ ih =>
    rw [List.length_cons, List.length_cons, ← ih]
    rfl
  | keep _ _ ih =>
    rw [List.length_cons, List.length_cons, ← ih]
    omega

theorem kept_clear (passes : Passes last edits drops kept) (trails : Trails seen last)
    (ordered : Ascending (seen ++ edits)) : ∀ edit ∈ kept, Clear seen edit := by
  induction passes generalizing seen with
  | done last => exact fun _ member => (List.not_mem_nil member).elim
  | drop met fits _ ih =>
    intro other member earlier known
    have trails' := trails.drop ordered.start_le met fits
    exact ih trails' ordered.shift other member earlier (List.mem_append_left _ known)
  | keep free _ ih =>
    intro other member earlier known
    rcases List.mem_cons.mp member with rfl | member
    · exact (trails.obstacle?_eq_none_iff ordered.start_le).mp free earlier known
    · have trails' := trails.keep ordered.start_le free
      exact ih trails' ordered.shift other member earlier (List.mem_append_left _ known)

/-- **Edits that are kept lie apart.** -/
theorem kept_apart (passes : Passes last edits drops kept) (trails : Trails seen last)
    (ordered : Ascending (seen ++ edits)) :
    kept.Pairwise fun first second => first.isInsertion = false → first.stop ≤ second.start := by
  induction passes generalizing seen with
  | done last => exact List.Pairwise.nil
  | drop met fits _ ih => exact ih (trails.drop ordered.start_le met fits) ordered.shift
  | keep free others ih =>
    have trails' := trails.keep ordered.start_le free
    refine List.pairwise_cons.mpr ⟨fun other member => ?_, ih trails' ordered.shift⟩
    exact others.kept_clear trails' ordered.shift other member _
      (List.mem_append_right _ List.mem_cons_self)

/-- **Where a sweep comes to an edit**, the invariant holds of all edits in front of it, and the
edit fits into the replacement kept last if it begins in there. -/
theorem split {before after : List Edit} {edit : Edit}
    (passes : Passes last (before ++ edit :: after) drops kept) (trails : Trails seen last)
    (ordered : Ascending (seen ++ (before ++ edit :: after))) :
    ∃ current, Trails (seen ++ before) current ∧
      ∀ outer, obstacle? current edit = some outer → Fits edit outer := by
  induction before generalizing seen last drops kept with
  | nil =>
    refine ⟨last, by rwa [List.append_nil], fun outer met => ?_⟩
    cases passes with
    | drop met' fits _ =>
      obtain rfl := Option.some.inj (met'.symm.trans met)
      exact fits
    | keep free _ =>
      rw [free] at met
      cases met
  | cons head before ih =>
    rw [show seen ++ head :: before = (seen ++ [head]) ++ before by simp]
    cases passes with
    | drop met fits others => exact ih others (trails.drop ordered.start_le met fits) ordered.shift
    | keep free others => exact ih others (trails.keep ordered.start_le free) ordered.shift

/-- The edits kept are those that pass a test, if the test says of each whether it is clear of the
edits in front of it. The edits are seen through a view, so that the test may know more of them. -/
theorem kept_eq_filter {α : Type} {view : α → Edit} {test : α → Bool} {items : List α}
    (passes : Passes last (items.map view) drops kept) (trails : Trails seen last)
    (ordered : Ascending (seen ++ items.map view))
    (decides : ∀ before item after, items = before ++ item :: after →
      (test item = true ↔ Clear (seen ++ before.map view) (view item))) :
    kept = (items.filter test).map view := by
  induction items generalizing seen last drops kept with
  | nil =>
    cases passes
    rfl
  | cons item rest ih =>
    have here : test item = true ↔ Clear seen (view item) := by
      simpa using decides [] item rest rfl
    have later : ∀ before other after, rest = before ++ other :: after →
        (test other = true ↔ Clear (seen ++ [view item] ++ before.map view) (view other)) := by
      intro before other after same
      simpa using decides (item :: before) other after (by rw [same, List.cons_append])
    rw [List.map_cons] at passes ordered
    rw [← trails.obstacle?_eq_none_iff ordered.start_le] at here
    cases passes with
    | drop met fits others =>
      have failed : ¬ test item = true := fun passed => by
        rw [here.mp passed] at met
        cases met
      rw [List.filter_cons_of_neg failed]
      exact ih others (trails.drop ordered.start_le met fits) ordered.shift later
    | keep free others =>
      rw [List.filter_cons_of_pos (here.mpr free), List.map_cons,
        ← ih others (trails.keep ordered.start_le free) ordered.shift later]

end Passes

theorem length_add {edits kept : List Edit} (planned : (ofEdits edits).result = .ok kept) :
    kept.length + (ofEdits edits).drops.length = edits.length := by
  obtain ⟨drops, passes⟩ := sweep_ok_iff.mp planned
  have swept : ofEdits edits = ⟨drops, .ok kept⟩ := passes.sweep_eq
  rw [swept, passes.length_add]
  exact List.length_mergeSort edits

/-! ### Sweeps that stop -/

/-- **Where a sweep stops**, the invariant holds of all edits in front of the second party, the
first party is the replacement kept last, and the second begins in it and ends behind it. -/
theorem Stops.split {seen edits : List Edit} {last : Option Edit} {drops : List Drop}
    {clash : Clash} (stops : Stops last edits drops clash) (trails : Trails seen last)
    (ordered : Ascending (seen ++ edits)) :
    ∃ before after, edits = before ++ clash.second :: after ∧
      Trails (seen ++ before) (some clash.first) ∧ clash.second.isInsertion = false ∧
      clash.second.start < clash.first.stop ∧ clash.first.stop < clash.second.stop := by
  induction stops generalizing seen with
  | @clash last edit outer rest met crosses =>
    obtain ⟨isLast, inside⟩ := obstacle?_eq_some_iff.mp met
    obtain rfl := Option.mem_def.mp isLast
    simp only [Fits, not_or, Int.not_le, Bool.not_eq_true] at crosses
    exact ⟨[], rest, rfl, by rwa [List.append_nil], crosses.1, inside, crosses.2⟩
  | @drop last edit outer rest drops clash met fits _ ih =>
    obtain ⟨before, after, same, trails', facts⟩ :=
      ih (trails.drop ordered.start_le met fits) ordered.shift
    refine ⟨edit :: before, after, by rw [same, List.cons_append], ?_, facts⟩
    rwa [List.append_assoc, List.singleton_append] at trails'
  | @keep last edit rest drops clash free _ ih =>
    obtain ⟨before, after, same, trails', facts⟩ :=
      ih (trails.keep ordered.start_le free) ordered.shift
    refine ⟨edit :: before, after, by rw [same, List.cons_append], ?_, facts⟩
    rwa [List.append_assoc, List.singleton_append] at trails'

end Plan

/-! ### Changes of edits -/

/-- The change leaves it as it was how the ranges of edits lie to one another. -/
structure Edit.Faithful (change : Edit → Edit) : Prop where
  isInsertion : ∀ edit, (change edit).isInsertion = edit.isInsertion
  start_lt_stop : ∀ edit outer, (change edit).start < (change outer).stop ↔ edit.start < outer.stop
  stop_le_stop : ∀ edit outer, (change edit).stop ≤ (change outer).stop ↔ edit.stop ≤ outer.stop

/-- The drop of changed edits. -/
def Drop.map (change : Edit → Edit) (drop : Drop) : Drop := ⟨change drop.edit, change drop.outer⟩

/-- The clash of changed edits. -/
def Clash.map (change : Edit → Edit) (clash : Clash) : Clash :=
  ⟨change clash.first, change clash.second⟩

namespace Plan

/-- The plan of changed edits. -/
def map (change : Edit → Edit) (plan : Plan) : Plan :=
  ⟨plan.drops.map (Drop.map change),
    (plan.result.map (List.map change)).mapError (Clash.map change)⟩

variable {change : Edit → Edit} (faithful : Edit.Faithful change)

theorem keep_map (change : Edit → Edit) (edit : Edit) (plan : Plan) :
    keep (change edit) (plan.map change) = (keep edit plan).map change := by
  obtain ⟨drops, result⟩ := plan
  cases result <;> rfl

/-- Plans that a change makes the same both succeed or both fail. -/
theorem results_of_map_eq {plan plan' : Plan} (same : plan.map change = plan'.map change) :
    (∃ kept kept', plan.result = .ok kept ∧ plan'.result = .ok kept' ∧
        kept.map change = kept'.map change) ∨
      ∃ clash clash', plan.result = .error clash ∧ plan'.result = .error clash' ∧
        clash.map change = clash'.map change := by
  obtain ⟨drops, result⟩ := plan
  obtain ⟨drops', result'⟩ := plan'
  have results := congrArg Plan.result same
  cases result with
  | ok kept =>
    cases result' with
    | ok kept' => exact Or.inl ⟨kept, kept', rfl, rfl, Except.ok.inj results⟩
    | error clash' => cases results
  | error clash =>
    cases result' with
    | ok kept' => cases results
    | error clash' => exact Or.inr ⟨clash, clash', rfl, rfl, Except.error.inj results⟩

include faithful

theorem obstacle?_map (last : Option Edit) (edit : Edit) :
    obstacle? (last.map change) (change edit) = (obstacle? last edit).map change := by
  cases last with
  | none => rfl
  | some outer =>
    have same := faithful.start_lt_stop edit outer
    by_cases inside : edit.start < outer.stop <;> simp [obstacle?, Option.filter, same, inside]

theorem advance_map (last : Option Edit) (edit : Edit) :
    advance (last.map change) (change edit) = (advance last edit).map change := by
  unfold advance
  rw [faithful.isInsertion]
  split <;> rfl

theorem fits_map (edit outer : Edit) : Fits (change edit) (change outer) ↔ Fits edit outer := by
  unfold Fits
  rw [faithful.isInsertion, faithful.stop_le_stop]

/-- **A plan depends only on how its edits lie**, and changes along with them. -/
theorem sweep_map (last : Option Edit) (edits : List Edit) :
    sweep (last.map change) (edits.map change) = (sweep last edits).map change := by
  induction edits generalizing last with
  | nil => rfl
  | cons edit rest ih =>
    have met' := obstacle?_map faithful last edit
    rw [List.map_cons]
    cases met : obstacle? last edit with
    | none =>
      rw [met] at met'
      rw [sweep_cons_keep _ met, sweep_cons_keep _ met', advance_map faithful, ih, keep_map]
    | some outer =>
      rw [met] at met'
      have same := fits_map faithful edit outer
      by_cases fits : Fits edit outer
      · rw [sweep_cons_drop _ met fits, sweep_cons_drop _ met' (same.mpr fits), ih]
        rfl
      · rw [sweep_cons_clash _ met fits, sweep_cons_clash _ met' (mt same.mp fits)]
        rfl

end Plan

end Splice
