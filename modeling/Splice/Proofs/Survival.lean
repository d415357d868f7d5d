/-
**Which edits take effect.**

The sweep compares an edit with the replacement kept last. What comes of it depends on no such
thing, but on all registered edits:

* of the replacements whose range is no proper part of another one, `Outermost`, the first of each
  range survives, where lower orders and, at one order, earlier places are first;
* an insertion survives unless it lies strictly inside the range of a replacement, kept or not.

`Plan.ok_eq_survivors` says that a plan that succeeds consists of the survivors, each once, as
`Placed.Listed` lists them. Edits that agree in everything are told apart by their places, so the
sorted edits are looked at together with these (`ranked`); `survives_of_clear` and
`clear_of_survives` compare surviving with what the sweep decides.
-/

import Mathlib
import Splice.Proofs.Sweep

namespace Splice

/-! ### Survivors -/

/-- A registered edit with its place in the list. -/
abbrev Placed := Edit × Nat

/-- A registered replacement whose range is no proper part of the range of another one. -/
structure Outermost (edits : List Edit) (edit : Edit) : Prop where
  registered : edit ∈ edits
  replaces : edit.isInsertion = false
  widest : ∀ other ∈ edits, other.isInsertion = false → ¬ other.span.Encloses edit.span

namespace Placed

/-- The first edit has the lower order or, at one order, the earlier place. -/
def Outranks (first second : Placed) : Prop :=
  first.1.order < second.1.order ∨ first.1.order = second.1.order ∧ first.2 < second.2

/-- Starts ascend; at one start there are insertions by rank, and a replacement behind them. -/
def Listed (first second : Placed) : Prop :=
  first.1.start < second.1.start ∨ first.1.start = second.1.start ∧
    first.1.isInsertion = true ∧ (second.1.isInsertion = true → first.Outranks second)

/-- An insertion strictly inside no replacement, or the first of an outermost range. -/
structure Survives (edits : List Edit) (entry : Placed) : Prop where
  insertion : entry.1.isInsertion = true → ∀ outer ∈ edits, outer.isInsertion = false →
    ¬ (outer.start < entry.1.start ∧ entry.1.start < outer.stop)
  widest : entry.1.isInsertion = false → ∀ outer ∈ edits, outer.isInsertion = false →
    ¬ outer.span.Encloses entry.1.span
  foremost : entry.1.isInsertion = false → ∀ other : Placed, other ∈ edits.zipIdx →
    other.1.span = entry.1.span → ¬ other.Outranks entry

end Placed

/-! ### Sorted edits with their places -/

/-- The sorted edits with their places in the list. -/
def ranked (edits : List Edit) : List Placed :=
  edits.zipIdx.mergeSort (List.zipIdxLE Edit.precedes)

/-- The first edit precedes the second and, if they rank alike, has the earlier place. -/
def Placed.Before (first second : Placed) : Prop :=
  first.1.precedes second.1 = true ∧ (second.1.precedes first.1 = true → first.2 < second.2)

variable {edits : List Edit} {before after : List Placed} {entry : Placed}

theorem map_fst_ranked (edits : List Edit) : (ranked edits).map Prod.fst = Edit.sorted edits :=
  List.mergeSort_zipIdx

theorem mem_ranked : entry ∈ ranked edits ↔ entry ∈ edits.zipIdx := List.mem_mergeSort

theorem exists_mem_ranked {edit : Edit} (member : edit ∈ edits) :
    ∃ entry ∈ ranked edits, entry.1 = edit := by
  have sorted : edit ∈ (ranked edits).map Prod.fst := by
    rw [map_fst_ranked]
    exact Edit.mem_sorted.mpr member
  exact List.mem_map.mp sorted

theorem fst_mem_of_mem_ranked (member : entry ∈ ranked edits) : entry.1 ∈ edits :=
  List.fst_mem_of_mem_zipIdx (mem_ranked.mp member)

theorem ranked_places_differ (edits : List Edit) :
    (ranked edits).Pairwise fun first second => first.2 ≠ second.2 := by
  have places : (edits.zipIdx.map Prod.snd).Nodup := by
    rw [List.zipIdx_map_snd]
    exact List.nodup_range'
  have moved : ((ranked edits).map Prod.snd).Nodup :=
    ((List.mergeSort_perm _ _).map Prod.snd).nodup_iff.mpr places
  exact List.pairwise_map.mp moved

theorem ranked_before (edits : List Edit) : (ranked edits).Pairwise Placed.Before := by
  have ordered := List.pairwise_mergeSort (List.zipIdxLE_trans Edit.precedes_trans)
    (List.zipIdxLE_total Edit.precedes_total) edits.zipIdx
  refine (ordered.and (ranked_places_differ edits)).imp fun {first second} both => ?_
  obtain ⟨ahead, differ⟩ := both
  unfold List.zipIdxLE at ahead
  split at ahead
  · rename_i front
    refine ⟨front, fun back => ?_⟩
    rw [if_pos back, decide_eq_true_eq] at ahead
    omega
  · cases ahead

theorem Placed.Before.outranks {first second : Placed} (ahead : first.Before second)
    (same : first.1.span = second.1.span) : first.Outranks second := by
  obtain ⟨front, tie⟩ := ahead
  rw [Edit.span_eq_iff] at same
  rw [Edit.precedes_iff] at front tie
  unfold Placed.Outranks
  omega

theorem Placed.Outranks.asymm {first second : Placed} (front : first.Outranks second) :
    ¬ second.Outranks first := by
  unfold Placed.Outranks at front ⊢
  omega

theorem Placed.Outranks.irrefl (entry : Placed) : ¬ entry.Outranks entry := by
  unfold Placed.Outranks
  omega

/-! ### Survival and the sweep -/

section Decision

variable (upright : ∀ edit ∈ edits, edit.start ≤ edit.stop)
  (parts : ranked edits = before ++ entry :: after)

include parts

theorem before_of_mem_front : ∀ other ∈ before, other.Before entry := by
  have ordered := ranked_before edits
  rw [parts] at ordered
  exact fun other member =>
    (List.pairwise_append.mp ordered).2.2 other member entry List.mem_cons_self

theorem before_of_mem_back : ∀ other ∈ after, entry.Before other := by
  have ordered := ranked_before edits
  rw [parts] at ordered
  exact (List.pairwise_cons.mp (List.pairwise_append.mp ordered).2.1).1

theorem sorted_eq_of_parts :
    Edit.sorted edits = before.map Prod.fst ++ entry.1 :: after.map Prod.fst := by
  rw [← map_fst_ranked, parts, List.map_append, List.map_cons]

theorem entry_mem : entry.1 ∈ edits :=
  fst_mem_of_mem_ranked (parts ▸ List.mem_append_right _ List.mem_cons_self)

include upright

/-- An edit that is clear of all edits ahead of it survives. -/
theorem survives_of_clear (clear : Plan.Clear (before.map Prod.fst) entry.1) :
    entry.Survives edits := by
  have clears : ∀ other ∈ before, other.1.isInsertion = false → other.1.stop ≤ entry.1.start :=
    fun other member => clear other.1 (List.mem_map_of_mem member)
  have back := before_of_mem_back parts
  have flat := upright entry.1 (entry_mem parts)
  have split : ∀ other ∈ ranked edits, other ∈ before ∨ other = entry ∨ other ∈ after := by
    intro other member
    rw [parts] at member
    simpa using member
  refine ⟨fun point outer member proper inside => ?_, fun point outer member proper inside => ?_,
    fun point other member same ranks => ?_⟩
  · obtain ⟨other, found, rfl⟩ := exists_mem_ranked member
    rcases split other found with front | rfl | behind
    · have := clears other front proper
      omega
    · rw [point] at proper
      cases proper
    · have := Edit.start_le_of_precedes (back other behind).1
      omega
  · rw [Edit.isInsertion_eq_false_iff] at point
    obtain ⟨other, found, rfl⟩ := exists_mem_ranked member
    obtain ⟨start, stop, differ⟩ := Edit.encloses_iff.mp inside
    rcases split other found with front | rfl | behind
    · have := clears other front proper
      omega
    · exact differ rfl
    · have ahead := (Edit.precedes_iff _ _).mp (back other behind).1
      exact differ (Edit.span_eq_iff.mpr (by omega))
  · rcases split _ (mem_ranked.mpr member) with front | rfl | behind
    · have proper : other.1.isInsertion = false := by
        rw [Edit.isInsertion, same]
        exact point
      have := clears other front proper
      rw [Edit.span_eq_iff] at same
      rw [Edit.isInsertion_eq_false_iff] at point
      omega
    · exact Placed.Outranks.irrefl _ ranks
    · exact ranks.asymm ((back other behind).outranks same.symm)

omit upright

/-- A survivor begins in no replacement kept ahead of it, if the sweep runs through. -/
theorem clear_of_survives {drops : List Drop} {kept : List Edit}
    (passes : Plan.Passes none (Edit.sorted edits) drops kept) (survives : entry.Survives edits) :
    Plan.Clear (before.map Prod.fst) entry.1 := by
  have ordered := Edit.sorted_ascending edits
  rw [sorted_eq_of_parts parts] at passes ordered
  obtain ⟨current, trails, fits⟩ := passes.split Plan.Trails.start ordered
  rw [List.nil_append] at trails
  rw [← trails.obstacle?_eq_none_iff (Plan.Ascending.start_le ordered)]
  cases met : Plan.obstacle? current entry.1 with
  | none => rfl
  | some outer =>
    exfalso
    obtain ⟨isLast, inside⟩ := Plan.obstacle?_eq_some_iff.mp met
    obtain ⟨known, proper⟩ := trails.member outer isLast
    obtain ⟨other, front, rfl⟩ := List.mem_map.mp known
    have registered : other ∈ ranked edits := parts ▸ List.mem_append_left _ front
    have member := fst_mem_of_mem_ranked registered
    have ahead := before_of_mem_front parts other front
    have precedes := (Edit.precedes_iff _ _).mp ahead.1
    have extent := (Edit.isInsertion_eq_false_iff _).mp proper
    cases point : entry.1.isInsertion with
    | true =>
      have flat := (Edit.isInsertion_iff _).mp point
      exact survives.insertion point other.1 member proper ⟨by omega, inside⟩
    | false =>
      have within : entry.1.stop ≤ other.1.stop :=
        (fits other.1 met).resolve_left (by simp [point])
      by_cases same : other.1.span = entry.1.span
      · exact survives.foremost point other (mem_ranked.mp registered) same (ahead.outranks same)
      · exact survives.widest point other.1 member proper
          (Edit.encloses_iff.mpr ⟨Edit.start_le_of_precedes ahead.1, within, same⟩)

end Decision

/-- Survivors stand in the sorted list as they are to be listed. -/
theorem Placed.Before.listed {first second : Placed} (ahead : first.Before second)
    (registered : first ∈ edits.zipIdx) (survives : second.Survives edits) :
    first.Listed second := by
  have precedes := (Edit.precedes_iff _ _).mp ahead.1
  unfold Placed.Listed
  by_cases start : first.1.start < second.1.start
  · exact Or.inl start
  · have same : first.1.start = second.1.start := by omega
    refine Or.inr ⟨same, ?_, fun point => ?_⟩
    · -- Of two replacements with one start, the second would be enclosed or outranked.
      by_contra proper
      rw [Bool.not_eq_true] at proper
      have extent := (Edit.isInsertion_eq_false_iff _).mp proper
      have point : second.1.isInsertion = false := by
        rw [Edit.isInsertion_eq_false_iff]
        omega
      by_cases equal : first.1.span = second.1.span
      · exact survives.foremost point first registered equal (ahead.outranks equal)
      · exact survives.widest point first.1 (List.fst_mem_of_mem_zipIdx registered) proper
          (Edit.encloses_iff.mpr ⟨by omega, by omega, equal⟩)
    · rw [Edit.isInsertion_iff] at point
      exact ahead.outranks (Edit.span_eq_iff.mpr (by omega))

/-- Each outermost range has exactly one survivor. -/
theorem exists_unique_survivor {edit : Edit} (outermost : Outermost edits edit) :
    ∃! entry : Placed, (entry ∈ edits.zipIdx ∧ entry.Survives edits) ∧ entry.1.span = edit.span := by
  have point : ∀ other : Placed, other.1.span = edit.span → other.1.isInsertion = false := by
    intro other same
    rw [Edit.isInsertion, same]
    exact outermost.replaces
  -- The first edit of the range in the sorted list is the one that nothing outranks.
  obtain ⟨sample, found, rfl⟩ := exists_mem_ranked outermost.registered
  cases first : (ranked edits).find? fun other => decide (other.1.span = sample.1.span) with
  | none =>
    rw [List.find?_eq_none] at first
    exact (first sample found (by simp)).elim
  | some entry =>
    obtain ⟨same, before, after, parts, others⟩ := List.find?_eq_some_iff_append.mp first
    rw [decide_eq_true_eq] at same
    have survives : entry.Survives edits := by
      refine ⟨fun flat => ?_, fun _ outer member proper => ?_, fun _ other member equal ranks => ?_⟩
      · rw [point entry same] at flat
        cases flat
      · rw [same]
        exact outermost.widest outer member proper
      · have anywhere := parts ▸ mem_ranked.mpr member
        rcases List.mem_append.mp anywhere with front | behind
        · simpa [equal, same] using others other front
        · rcases List.mem_cons.mp behind with rfl | behind
          · exact Placed.Outranks.irrefl _ ranks
          · exact ranks.asymm ((before_of_mem_back parts other behind).outranks equal.symm)
    have registered : entry ∈ edits.zipIdx :=
      mem_ranked.mp (parts ▸ List.mem_append_right _ List.mem_cons_self)
    refine ⟨entry, ⟨⟨registered, survives⟩, same⟩, fun other facts => ?_⟩
    obtain ⟨⟨registered', survives'⟩, same'⟩ := facts
    have front := survives.foremost (point entry same) other registered' (same'.trans same.symm)
    have back := survives'.foremost (point other same') entry registered (same.trans same'.symm)
    have places : other.2 = entry.2 := by
      unfold Placed.Outranks at front back
      omega
    rw [List.mem_zipIdx_iff_getElem?] at registered registered'
    rw [places, registered] at registered'
    exact Prod.ext (Option.some.inj registered').symm places

/-- **A plan that succeeds consists of the survivors**, each once, in the order in which they are
to be listed; and every outermost range has one. -/
theorem Plan.ok_eq_survivors {edits kept : List Edit}
    (upright : ∀ edit ∈ edits, edit.start ≤ edit.stop)
    (planned : (Plan.ofEdits edits).result = .ok kept) :
    ∃ placed : List Placed,
      kept = placed.map Prod.fst ∧
      placed.Nodup ∧
      placed.Pairwise Placed.Listed ∧
      (∀ entry, entry ∈ placed ↔ entry ∈ edits.zipIdx ∧ entry.Survives edits) ∧
      ∀ edit, Outermost edits edit → ∃! entry, entry ∈ placed ∧ entry.1.span = edit.span := by
  classical
  obtain ⟨drops, passes⟩ := Plan.sweep_ok_iff.mp planned
  have members : ∀ entry,
      entry ∈ (ranked edits).filter (fun entry => decide (entry.Survives edits)) ↔
        entry ∈ edits.zipIdx ∧ entry.Survives edits := by
    intro entry
    rw [List.mem_filter, mem_ranked, decide_eq_true_eq]
  have distinct : (ranked edits).Nodup := (ranked_places_differ edits).imp fun differ same =>
    differ (congrArg Prod.snd same)
  refine ⟨(ranked edits).filter fun entry => decide (entry.Survives edits), ?_,
    distinct.filter _, ?_, members, ?_⟩
  · have ordered := Edit.sorted_ascending edits
    have passes' := passes
    rw [← map_fst_ranked] at passes' ordered
    refine passes'.kept_eq_filter Plan.Trails.start ordered fun before entry after parts => ?_
    rw [List.nil_append, decide_eq_true_eq]
    exact ⟨clear_of_survives parts passes, survives_of_clear upright parts⟩
  · refine ((ranked_before edits).filter _).imp_of_mem fun {first second} front back ahead => ?_
    exact ahead.listed ((members first).mp front).1 ((members second).mp back).2
  · intro edit outermost
    simp only [members]
    exact exists_unique_survivor outermost

/-- A range registered twice around another one and an insertion, and two insertions at its end. -/
def crowdedEdits : List Edit :=
  [⟨⟨0, 4⟩, 2, .fixed "late"⟩, ⟨⟨1, 3⟩, 3, .fixed "in"⟩, ⟨⟨0, 4⟩, 1, .fixed "early"⟩,
    ⟨⟨2, 2⟩, 4, .fixed "!"⟩, ⟨⟨4, 4⟩, 6, .fixed "b"⟩, ⟨⟨4, 4⟩, 5, .fixed "a"⟩,
    ⟨⟨4, 6⟩, 7, .fixed "next"⟩]

/-- The edits of the crowd that take effect. -/
def crowdedKept : List Edit :=
  [⟨⟨0, 4⟩, 1, .fixed "early"⟩, ⟨⟨4, 4⟩, 5, .fixed "a"⟩, ⟨⟨4, 4⟩, 6, .fixed "b"⟩,
    ⟨⟨4, 6⟩, 7, .fixed "next"⟩]

theorem Plan.ok_eq_survivors_crowded :
    (∀ edit ∈ crowdedEdits, edit.start ≤ edit.stop) ∧
      (Plan.ofEdits crowdedEdits).result = .ok crowdedKept ∧
      ∃ placed : List Placed, crowdedKept = placed.map Prod.fst ∧
        ∀ entry ∈ placed, entry.Survives crowdedEdits := by
  have upright : ∀ edit ∈ crowdedEdits, edit.start ≤ edit.stop := by decide
  have planned : (Plan.ofEdits crowdedEdits).result = .ok crowdedKept := by cbv
  obtain ⟨placed, same, _, _, members, _⟩ := Plan.ok_eq_survivors upright planned
  exact ⟨upright, planned, placed, same, fun entry member => ((members entry).mp member).2⟩

end Splice
