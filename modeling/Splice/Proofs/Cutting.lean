/-
**Cutting a draft in two.**

A draft can be cut at an offset inside none of its replacements. The parts are drafts of their own,
`Draft.front` with the edits that end at or before the cut and `Draft.back` with the others, moved
to where they lie in its text. If replacements do not count, the parts do together what the draft
does:

* `Edit.sorted_cut`, `Plan.sweep_append`: the edits of the front are sorted and swept first, and
  what they leave behind is no obstacle to the edits of the back;
* `Plan.sweep_moved`: a plan does not depend on where its edits lie, only on how they lie;
* `weave_append`, `weave_moved`: texts are woven into the parts as they are into the whole.

`Draft.render_cut` joins them: a draft clashes exactly if one of its parts does, and otherwise is
emitted as the parts are, one behind the other.
-/

import Mathlib
import Splice.Proofs.Walk

namespace Splice

/-- Two lists one behind the other, or the first fault. -/
def inTurn {ε α : Type} (first second : Except ε (List α)) : Except ε (List α) := do
  let front ← first
  let back ← second
  return front ++ back

/-! ### Sweeps of two groups of edits -/

namespace Plan

variable {last : Option Edit}

/-- A replacement that ends before all edits begin does not matter to them. -/
theorem sweep_eq_sweep_none {edits : List Edit}
    (apart : ∀ outer ∈ last, ∀ edit ∈ edits, outer.stop ≤ edit.start) :
    sweep last edits = sweep none edits := by
  induction edits with
  | nil => rfl
  | cons edit rest ih =>
    have free : obstacle? last edit = none :=
      obstacle?_eq_none_iff.mpr fun outer isLast => apart outer isLast edit List.mem_cons_self
    have same : sweep (advance last edit) rest = sweep (advance none edit) rest := by
      unfold advance
      by_cases point : edit.isInsertion = true
      · rw [if_pos point, if_pos point]
        exact ih fun outer isLast other member =>
          apart outer isLast other (List.mem_cons_of_mem _ member)
      · rw [if_neg point, if_neg point]
    rw [sweep_cons_keep rest free, sweep_cons_keep rest rfl, same]

/-- **Edits that end before others begin are swept apart from them.** -/
theorem sweep_append {front back : List Edit}
    (behind : ∀ outer ∈ last, ∀ edit ∈ back, outer.stop ≤ edit.start)
    (apart : ∀ outer ∈ front, ∀ edit ∈ back, outer.stop ≤ edit.start) :
    (sweep last (front ++ back)).result =
      inTurn (sweep last front).result (sweep none back).result := by
  induction front generalizing last with
  | nil =>
    rw [List.nil_append, sweep_eq_sweep_none behind]
    cases (sweep none back).result <;> rfl
  | cons edit rest ih =>
    have others : ∀ outer ∈ rest, ∀ edit ∈ back, outer.stop ≤ edit.start :=
      fun outer member => apart outer (List.mem_cons_of_mem _ member)
    rw [List.cons_append]
    cases met : obstacle? last edit with
    | none =>
      have behind' : ∀ outer ∈ advance last edit, ∀ edit ∈ back, outer.stop ≤ edit.start := by
        unfold advance
        split
        · exact behind
        · intro outer isLast
          obtain rfl := Option.some.inj isLast
          exact apart edit List.mem_cons_self
      rw [sweep_cons_keep _ met, sweep_cons_keep _ met]
      simp only [keep, ih behind' others]
      cases (sweep (advance last edit) rest).result with
      | error clash => rfl
      | ok first => cases (sweep none back).result <;> rfl
    | some outer =>
      by_cases fits : Fits edit outer
      · rw [sweep_cons_drop _ met fits, sweep_cons_drop _ met fits]
        exact ih behind others
      · rw [sweep_cons_clash _ met fits, sweep_cons_clash _ met fits]
        rfl

end Plan

/-! ### Moving -/

theorem Edit.faithful_moved (distance : Int) : Faithful (moved distance) where
  isInsertion := isInsertion_moved distance
  start_lt_stop _ _ := Int.add_lt_add_iff_right distance
  stop_le_stop _ _ := Int.add_le_add_iff_right distance

/-- The drop moved by a distance. -/
def Drop.moved (distance : Int) (drop : Drop) : Drop :=
  ⟨drop.edit.moved distance, drop.outer.moved distance⟩

/-- The clash moved by a distance. -/
def Clash.moved (distance : Int) (clash : Clash) : Clash :=
  ⟨clash.first.moved distance, clash.second.moved distance⟩

namespace Plan

/-- The plan moved by a distance. -/
def moved (distance : Int) (plan : Plan) : Plan :=
  ⟨plan.drops.map (Drop.moved distance),
    (plan.result.map (List.map (Edit.moved distance))).mapError (Clash.moved distance)⟩

/-- **A plan moves along with its edits.** -/
theorem sweep_moved (distance : Int) (last : Option Edit) (edits : List Edit) :
    sweep (last.map (Edit.moved distance)) (edits.map (Edit.moved distance)) =
      (sweep last edits).moved distance :=
  sweep_map (Edit.faithful_moved distance) last edits

theorem ofEdits_moved (distance : Int) (edits : List Edit) :
    ofEdits (edits.map (Edit.moved distance)) = (ofEdits edits).moved distance := by
  unfold ofEdits
  rw [Edit.sorted_map_moved]
  exact sweep_moved distance none _

end Plan

/-! ### Answers of two groups of edits -/

/-- The text depends on the context alone, not on how often it has been asked for. -/
def Replacement.Steady (context : Context) (replacement : Replacement) : Prop :=
  ∀ first second, replacement.render context first = replacement.render context second

section Answers

variable {context : Context} {edits front back : List Edit}

/-- Steady edits answer each on its own. -/
theorem answers_of_steady (history : History)
    (steady : ∀ edit ∈ edits, edit.replacement.Steady context) :
    answers context history edits = edits.mapM fun edit => edit.replacement.ask context [] := by
  induction edits generalizing history with
  | nil => rfl
  | cons edit rest ih =>
    have here : edit.replacement.ask context history = edit.replacement.ask context [] :=
      steady edit List.mem_cons_self _ _
    have others : ∀ other ∈ rest, other.replacement.Steady context :=
      fun other member => steady other (List.mem_cons_of_mem _ member)
    rw [List.mapM_cons, answers, here, ih _ others]
    cases edit.replacement.ask context [] with
    | error fault => rfl
    | ok text => cases rest.mapM fun edit => edit.replacement.ask context [] <;> rfl

theorem answers_append (history first second : History)
    (steady : ∀ edit ∈ front, edit.replacement.Steady context)
    (steady' : ∀ edit ∈ back, edit.replacement.Steady context) :
    answers context history (front ++ back) =
      inTurn (answers context first front) (answers context second back) := by
  have both : ∀ edit ∈ front ++ back, edit.replacement.Steady context := by
    intro edit member
    rcases List.mem_append.mp member with member | member
    · exact steady edit member
    · exact steady' edit member
  rw [answers_of_steady _ both, answers_of_steady _ steady, answers_of_steady _ steady',
    List.mapM_append]
  rfl

end Answers

/-! ### Weaving into two parts of a text -/

section Weaving

variable {text : Text} {offset cut : Int}

namespace Text

variable {first middle stop : Int}

theorem length_slice_zero (text : Text) (nonneg : 0 ≤ cut) (inside : cut ≤ text.length) :
    ((text.slice 0 cut).length : Int) = cut := by
  rw [slice_zero nonneg inside, List.length_take]
  omega

theorem length_slice_length (text : Text) (nonneg : 0 ≤ cut) (inside : cut ≤ text.length) :
    ((text.slice cut text.length).length : Int) = text.length - cut := by
  rw [slice_length nonneg inside, List.length_drop]
  omega

theorem between_append (nonneg : 0 ≤ first) (front : first ≤ middle) (back : middle ≤ stop)
    (inside : stop ≤ text.length) :
    text.between first middle ++ text.between middle stop = text.between first stop := by
  rw [between_eq_slice nonneg front (by omega), between_eq_slice (by omega) back inside,
    between_eq_slice nonneg (by omega) inside, slice_append_slice nonneg front back inside]

theorem between_front (nonneg : 0 ≤ first) (ascending : first ≤ stop) (front : stop ≤ cut)
    (inside : cut ≤ text.length) :
    (text.slice 0 cut).between first stop = text.between first stop := by
  have size := length_slice_zero text (show 0 ≤ cut by omega) inside
  rw [between_eq_slice nonneg ascending (by omega), between_eq_slice nonneg ascending (by omega),
    slice_of_nonneg nonneg ascending (by omega), slice_of_nonneg nonneg ascending (by omega),
    slice_zero (by omega) inside, List.drop_take, List.take_take, Nat.min_eq_left (by omega)]

theorem between_back (nonneg : 0 ≤ cut) (back : cut ≤ first) (ascending : first ≤ stop)
    (inside : stop ≤ text.length) :
    (text.slice cut text.length).between (first - cut) (stop - cut) = text.between first stop := by
  have size := length_slice_length text nonneg (show cut ≤ text.length by omega)
  rw [between_eq_slice (by omega) (by omega) (by omega),
    between_eq_slice (by omega) ascending inside,
    slice_of_nonneg (by omega) (by omega) (by omega), slice_of_nonneg (by omega) ascending inside,
    slice_length nonneg (by omega), List.drop_drop,
    show cut.toNat + (first - cut).toNat = first.toNat by omega,
    show (stop - cut).toNat - (first - cut).toNat = stop.toNat - first.toNat by omega]

end Text

theorem weave_from {rendered : List (Edit × Text)} (nonneg : 0 ≤ offset) (front : offset ≤ cut)
    (laid : Laid text.length cut (rendered.map Prod.fst)) :
    weave text offset rendered = text.between offset cut ++ weave text cut rendered := by
  cases rendered with
  | nil =>
    have inside : cut ≤ text.length := laid
    rw [weave, weave, Text.between_append nonneg front inside (Int.le_refl _)]
  | cons pair rest =>
    obtain ⟨edit, inserted⟩ := pair
    obtain ⟨back, upright, others⟩ := laid_cons.mp laid
    have inside := others.le_size
    rw [weave, weave, ← Text.between_append nonneg front back (by omega), List.append_assoc]

/-- **Texts woven in front of a cut and behind it.** -/
theorem weave_append {front back : List (Edit × Text)} (nonneg : 0 ≤ offset)
    (laid : Laid cut offset (front.map Prod.fst))
    (laid' : Laid text.length cut (back.map Prod.fst)) :
    weave text offset (front ++ back) =
      weave (text.slice 0 cut) offset front ++ weave text cut back := by
  have inside := laid'.le_size
  induction front generalizing offset with
  | nil =>
    have ahead : offset ≤ cut := laid
    rw [List.nil_append, weave_from nonneg ahead laid', weave,
      Text.length_slice_zero text (by omega) inside,
      Text.between_front nonneg ahead (Int.le_refl _) inside]
  | cons pair rest ih =>
    obtain ⟨edit, inserted⟩ := pair
    obtain ⟨ahead, upright, others⟩ := laid_cons.mp laid
    have bound := others.le_size
    rw [List.cons_append, weave, weave, ih (by omega) others,
      Text.between_front nonneg ahead (by omega) inside]
    simp only [List.append_assoc]

/-- **Texts woven into the part behind a cut.** -/
theorem weave_moved {rendered : List (Edit × Text)} (nonneg : 0 ≤ cut) (behind : cut ≤ offset)
    (laid : Laid text.length offset (rendered.map Prod.fst)) :
    weave (text.slice cut text.length) (offset - cut)
        (rendered.map fun (edit, inserted) => (edit.moved (-cut), inserted)) =
      weave text offset rendered := by
  induction rendered generalizing offset with
  | nil =>
    have inside : offset ≤ text.length := laid
    have room : cut ≤ text.length := Int.le_trans behind inside
    rw [List.map_nil, weave, weave, Text.length_slice_length text nonneg room,
      Text.between_back nonneg behind inside (Int.le_refl _)]
  | cons pair rest ih =>
    obtain ⟨edit, inserted⟩ := pair
    obtain ⟨ahead, upright, others⟩ := laid_cons.mp laid
    have inside := others.le_size
    rw [List.map_cons, weave, weave, Edit.start_moved, Edit.stop_moved, Int.add_neg_eq_sub,
      Int.add_neg_eq_sub, Text.between_back nonneg behind ahead (by omega),
      ih (by omega) others]

/-- **Weaving into a cut text.** -/
theorem weave_cut {front back : List Edit} {texts texts' : List Text} (nonneg : 0 ≤ cut)
    (laid : Laid cut 0 front) (laid' : Laid text.length cut back)
    (size : texts.length = front.length) (size' : texts'.length = back.length) :
    weave text 0 ((front ++ back).zip (texts ++ texts')) =
      weave (text.slice 0 cut) 0 (front.zip texts) ++
        weave (text.slice cut text.length) 0 ((back.map (Edit.moved (-cut))).zip texts') := by
  rw [← List.map_fst_zip (Nat.le_of_eq size.symm)] at laid
  rw [← List.map_fst_zip (Nat.le_of_eq size'.symm)] at laid'
  have moved := weave_moved nonneg (Int.le_refl cut) laid'
  rw [Int.sub_self] at moved
  rw [List.zip_append size.symm, weave_append (Int.le_refl 0) laid laid', List.zip_map_left,
    ← moved]
  rfl

end Weaving

/-! ### Cut drafts -/

/-- **Cut edits are sorted apart**: those that end at or before the cut come first. -/
theorem Edit.sorted_cut {edits : List Edit} {cut : Int}
    (upright : ∀ edit ∈ edits, edit.start ≤ edit.stop)
    (uncut : ∀ edit ∈ edits, edit.isInsertion = false → ¬ (edit.start < cut ∧ cut < edit.stop)) :
    sorted edits = sorted (edits.filter fun edit => decide (edit.stop ≤ cut)) ++
      sorted (edits.filter fun edit => !decide (edit.stop ≤ cut)) := by
  refine sorted_eq_append _ edits fun first front second back ahead beyond => ?_
  rw [decide_eq_false_iff_not] at beyond ⊢
  have whole := uncut first front
  rw [isInsertion_eq_false_iff] at whole
  rw [precedes_iff] at ahead
  have := upright first front
  have := upright second back
  omega

namespace Draft

/-- The part of the draft in front of a cut. -/
def front (cut : Nat) (draft : Draft) : Draft :=
  ⟨draft.text.slice 0 cut, draft.edits.filter fun edit => decide (edit.stop ≤ cut)⟩

/-- The edits that do not end at or before a cut. -/
def editsBehind (cut : Nat) (draft : Draft) : List Edit :=
  draft.edits.filter fun edit => !decide (edit.stop ≤ cut)

/-- The part of the draft behind a cut. -/
def back (cut : Nat) (draft : Draft) : Draft :=
  ⟨draft.text.slice cut draft.text.length, (draft.editsBehind cut).map (Edit.moved (-cut))⟩

/-- The outcome of an emission is the report of a clash. -/
def Clashes (outcome : Except Failure Text) : Prop := ∃ clash, outcome = .error (.overlap clash)

variable {draft : Draft} {context : Context} {cut : Nat}

theorem mem_front_edits {edit : Edit} :
    edit ∈ (draft.front cut).edits ↔ edit ∈ draft.edits ∧ edit.stop ≤ cut := by
  simp [front]

theorem mem_editsBehind {edit : Edit} :
    edit ∈ draft.editsBehind cut ↔ edit ∈ draft.edits ∧ cut < edit.stop := by
  simp [editsBehind]

theorem clashes_render_iff (history : History) :
    Clashes (draft.render context history).result ↔ ∃ clash, draft.plan.result = .error clash := by
  rw [render_result]
  cases draft.plan.result with
  | error clash => exact ⟨fun _ => ⟨clash, rfl⟩, fun _ => ⟨clash, rfl⟩⟩
  | ok kept =>
    refine ⟨fun ⟨clash, same⟩ => ?_, fun ⟨_, same⟩ => nomatch same⟩
    cases answered : answers context history kept <;>
      simp [answered, Except.map, Except.mapError] at same

theorem plan_back : (draft.back cut).plan = (Plan.ofEdits (draft.editsBehind cut)).moved (-cut) :=
  Plan.ofEdits_moved _ _

section Parts

variable (within : ∀ edit ∈ draft.edits, edit.span.within draft.text.length = true)
  (uncut : ∀ edit ∈ draft.edits, edit.isInsertion = false → ¬ (edit.start < cut ∧ cut < edit.stop))

include within uncut

theorem start_of_mem_editsBehind : ∀ edit ∈ draft.editsBehind cut, (cut : Int) ≤ edit.start := by
  intro edit member
  obtain ⟨registered, beyond⟩ := mem_editsBehind.mp member
  have bounds := (Edit.within_iff _ _).mp (within edit registered)
  have whole := uncut edit registered
  rw [Edit.isInsertion_eq_false_iff] at whole
  omega

/-- **The plan of a cut draft.** -/
theorem plan_cut : draft.plan.result =
    inTurn (draft.front cut).plan.result (Plan.ofEdits (draft.editsBehind cut)).result := by
  have upright : ∀ edit ∈ draft.edits, edit.start ≤ edit.stop := fun edit member =>
    ((Edit.within_iff _ _).mp (within edit member)).2.1
  show (Plan.sweep none (Edit.sorted draft.edits)).result = _
  rw [Edit.sorted_cut upright uncut]
  refine Plan.sweep_append (fun _ isLast => nomatch isLast) fun outer member edit member' => ?_
  have ends := (mem_front_edits.mp (Edit.mem_sorted.mp member)).2
  exact Int.le_trans ends (start_of_mem_editsBehind within uncut edit (Edit.mem_sorted.mp member'))

/-- **The text of a cut draft**, if both of its parts have a plan. -/
theorem render_cut_of_ok {front back : List Edit} (inside : cut ≤ draft.text.length)
    (steady : ∀ edit ∈ draft.edits, edit.replacement.Steady context)
    (planned : (draft.front cut).plan.result = .ok front)
    (planned' : (Plan.ofEdits (draft.editsBehind cut)).result = .ok back)
    (history first second : History) :
    (draft.render context history).result =
      inTurn ((draft.front cut).render context first).result
        ((draft.back cut).render context second).result := by
  have known : ∀ edit ∈ front, edit ∈ draft.edits ∧ edit.stop ≤ cut := fun edit member =>
    mem_front_edits.mp (Plan.kept_mem planned edit member)
  have known' : ∀ edit ∈ back, edit ∈ draft.edits ∧ cut < edit.stop := fun edit member =>
    mem_editsBehind.mp (Plan.kept_mem planned' edit member)
  have laid : Laid cut 0 front := by
    refine Plan.laid_of_ok planned (Int.natCast_nonneg cut) fun edit member => ?_
    obtain ⟨registered, ends⟩ := mem_front_edits.mp member
    have bounds := (Edit.within_iff _ _).mp (within edit registered)
    exact ⟨bounds.1, bounds.2.1, ends⟩
  have laid' : Laid draft.text.length cut back := by
    refine Plan.laid_of_ok planned' (by omega) fun edit member => ?_
    have bounds := (Edit.within_iff _ _).mp (within edit (mem_editsBehind.mp member).1)
    exact ⟨start_of_mem_editsBehind within uncut edit member, bounds.2⟩
  have whole : draft.plan.result = .ok (front ++ back) := by
    rw [plan_cut within uncut, planned, planned']
    rfl
  have moved : (draft.back cut).plan.result = .ok (back.map (Edit.moved (-cut))) := by
    rw [plan_back, Plan.moved, planned']
    rfl
  rw [render_result, render_result, render_result, whole, planned, moved]
  simp only
  rw [answers_append history first second (fun edit member => steady edit (known edit member).1)
    fun edit member => steady edit (known' edit member).1,
    answers_map (Edit.replacement_moved _)]
  cases answered : answers context first front with
  | error fault => rfl
  | ok texts =>
    cases answered' : answers context second back with
    | error fault => rfl
    | ok texts' =>
      have woven := weave_cut (Int.natCast_nonneg cut) laid laid'
        (length_answers answered) (length_answers answered')
      simp only [inTurn, Except.map, Except.mapError, bind, Except.bind, pure, Except.pure]
      exact congrArg Except.ok woven

/-- Both parts are drafts whose edits lie in their texts. -/
theorem parts_within (inside : cut ≤ draft.text.length) :
    (∀ edit ∈ (draft.front cut).edits,
      edit.span.within (draft.front cut).text.length = true) ∧
    ∀ edit ∈ (draft.back cut).edits, edit.span.within (draft.back cut).text.length = true := by
  refine ⟨fun edit member => ?_, fun edit member => ?_⟩
  · obtain ⟨registered, ends⟩ := mem_front_edits.mp member
    have bounds := (Edit.within_iff _ _).mp (within edit registered)
    have size := Text.length_slice_zero draft.text (Int.natCast_nonneg cut) (by omega)
    rw [Edit.within_iff, front, size]
    exact ⟨bounds.1, bounds.2.1, ends⟩
  · obtain ⟨other, known, rfl⟩ := List.mem_map.mp member
    have start := start_of_mem_editsBehind within uncut other known
    have bounds := (Edit.within_iff _ _).mp (within other (mem_editsBehind.mp known).1)
    have size := Text.length_slice_length draft.text (Int.natCast_nonneg cut) (by omega)
    rw [Edit.within_iff, back, size]
    rw [Edit.start_moved, Edit.stop_moved]
    omega

/-- A draft has no plan exactly if one of its parts has none. -/
theorem plan_cut_error_iff : (∃ clash, draft.plan.result = .error clash) ↔
    (∃ clash, (draft.front cut).plan.result = .error clash) ∨
      ∃ clash, (draft.back cut).plan.result = .error clash := by
  rw [plan_cut within uncut, plan_back, Plan.moved]
  cases (draft.front cut).plan.result <;>
    cases (Plan.ofEdits (draft.editsBehind cut)).result <;>
    simp [inTurn, bind, Except.bind, pure, Except.pure, Except.map, Except.mapError]

end Parts

/-- **The cutting law.** A cut inside no replacement divides a draft into two drafts. The draft
clashes exactly if one of them does; otherwise its text is theirs, one behind the other. -/
theorem render_cut (within : ∀ edit ∈ draft.edits, edit.span.within draft.text.length = true)
    (steady : ∀ edit ∈ draft.edits, edit.replacement.Steady context)
    (inside : cut ≤ draft.text.length)
    (uncut : ∀ edit ∈ draft.edits, edit.isInsertion = false →
      ¬ (edit.start < cut ∧ cut < edit.stop))
    (history first second : History) :
    ((∀ edit ∈ (draft.front cut).edits,
        edit.span.within (draft.front cut).text.length = true) ∧
      ∀ edit ∈ (draft.back cut).edits, edit.span.within (draft.back cut).text.length = true) ∧
    (Clashes (draft.render context history).result ↔
      Clashes ((draft.front cut).render context first).result ∨
        Clashes ((draft.back cut).render context second).result) ∧
    (¬ Clashes (draft.render context history).result →
      (draft.render context history).result =
        inTurn ((draft.front cut).render context first).result
          ((draft.back cut).render context second).result) := by
  refine ⟨parts_within within uncut inside, ?_, fun free => ?_⟩
  · rw [clashes_render_iff, clashes_render_iff, clashes_render_iff]
    exact plan_cut_error_iff within uncut
  · rw [clashes_render_iff, plan_cut within uncut] at free
    cases planned : (draft.front cut).plan.result with
    | error clash =>
      rw [planned] at free
      exact (free ⟨clash, rfl⟩).elim
    | ok front =>
      cases planned' : (Plan.ofEdits (draft.editsBehind cut)).result with
      | error clash =>
        rw [planned, planned'] at free
        exact (free ⟨clash, rfl⟩).elim
      | ok back =>
        exact render_cut_of_ok within uncut inside steady planned planned' history first second

/-- A draft with replacements on both sides of an offset, and insertions there and behind it. -/
def seamDraft : Draft :=
  ⟨"abcdef", [⟨⟨3, 5⟩, 1, .fixed "Y"⟩, ⟨⟨1, 3⟩, 2, .fixed "X"⟩, ⟨⟨3, 3⟩, 3, .fixed ">"⟩,
    ⟨⟨5, 5⟩, 4, .fixed "!"⟩]⟩

theorem render_cut_seam :
    (∀ edit ∈ seamDraft.edits, edit.span.within seamDraft.text.length = true) ∧
      (∀ edit ∈ seamDraft.edits, edit.replacement.Steady none) ∧
      3 ≤ seamDraft.text.length ∧
      (∀ edit ∈ seamDraft.edits, edit.isInsertion = false →
        ¬ (edit.start < (3 : Nat) ∧ (3 : Nat) < edit.stop)) ∧
      ¬ Clashes (seamDraft.render none []).result ∧
      ((seamDraft.front 3).render none []).result = .ok "aX>" ∧
      ((seamDraft.back 3).render none []).result = .ok "Y!f" ∧
      (seamDraft.render none []).result = .ok "aX>Y!f" := by
  have within : ∀ edit ∈ seamDraft.edits, edit.span.within seamDraft.text.length = true := by decide
  have steady : ∀ edit ∈ seamDraft.edits, edit.replacement.Steady none := by
    simp [seamDraft, Replacement.Steady, Replacement.fixed]
  have uncut : ∀ edit ∈ seamDraft.edits, edit.isInsertion = false →
      ¬ (edit.start < (3 : Nat) ∧ (3 : Nat) < edit.stop) := by decide
  have front : ((seamDraft.front 3).render none []).result = .ok "aX>" := by cbv
  have back : ((seamDraft.back 3).render none []).result = .ok "Y!f" := by cbv
  obtain ⟨_, clashes, text⟩ := render_cut within steady (show 3 ≤ 6 by decide) uncut [] [] []
  rw [front, back] at clashes text
  have free : ¬ Clashes (seamDraft.render none []).result := by
    rw [clashes]
    simp [Clashes]
  exact ⟨within, steady, by decide, uncut, free, front, back, text free⟩

end Draft

end Splice
