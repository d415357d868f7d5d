/-
**The ways of emission agree.**

A draft can be emitted as one text, to a blocking sink, and to an asynchronous one. All of them follow
the course of the emission, so they ask the same edits and fail in the same way; the sinks take the
same chunks, which make the text together. Nothing is required of the ranges: where they do not lie
in the text, the parts of the text are what the offsets make of them (`Text.slice`).

* `Outlet.takes_of_accepting`: an outlet that refuses nothing takes all texts as they are;
* `Draft.render_eq_course`: one text in terms of the course;
* `Draft.emissions_agree`: the three ways side by side.
-/

import Mathlib
import Splice.Proofs.Stopping
import Splice.Standard.Runtime

namespace Splice

/-! ### Sinks that refuse nothing -/

namespace Outlet

/-- The outlet refuses no write and no drain. -/
structure Accepting (outlet : Outlet) : Prop where
  writes : ∀ writes, outlet.refusesWrite writes = none
  drains : ∀ refuses, outlet.refusesDrain = some refuses → ∀ writes, refuses writes = none

variable {outlet : Outlet}

theorem takes_of_accepting [Codecs] (accepting : outlet.Accepting) (writes : Nat) (texts : List Text) :
    outlet.Takes none writes texts (texts.map .text) := by
  induction texts generalizing writes with
  | nil => exact .nil writes
  | cons text rest ih =>
    refine .cons rfl (accepting.writes writes) ?_ (ih (writes + 1))
    cases drains : outlet.refusesDrain with
    | none => rfl
    | some refuses => exact accepting.drains refuses drains writes

theorem flatMap_marksOf (outlet : Outlet) (chunks : List Chunk) :
    chunks.flatMap outlet.marksOf =
      if outlet.refusesDrain.isSome then chunks.flatMap fun chunk => [.wrote chunk, .drained]
      else chunks.map Mark.wrote := by
  unfold marksOf
  by_cases drains : outlet.refusesDrain.isSome = true
  · simp only [drains, if_true]
  · simp only [drains, if_false, Bool.false_eq_true]
    exact List.flatMap_pure_eq_map Mark.wrote chunks

/-- Without the drains, the marks of chunks are their writes. -/
theorem marks_without_drains (outlet : Outlet) (chunks : List Chunk) :
    (chunks.flatMap outlet.marksOf).filter (· ≠ .drained) = chunks.map Mark.wrote := by
  induction chunks with
  | nil => rfl
  | cons chunk rest ih =>
    rw [List.flatMap_cons, List.filter_append, ih]
    unfold marksOf
    split
    · rfl
    · rfl

end Outlet

/-! ### Portions with text -/

/-- Between two offsets in a text there is text. -/
theorem slice_ne_nil {text : Text} {first stop : Int} (nonneg : 0 ≤ first) (room : first < stop)
    (inside : stop ≤ text.length) : text.slice first stop ≠ [] := by
  intro empty
  have size := congrArg List.length empty
  rw [Text.slice_of_nonneg nonneg (by omega) inside, List.length_take, List.length_drop,
    List.length_nil] at size
  omega

theorem cursor_nonneg {asked : List Edit} (upright : ∀ edit ∈ asked, 0 ≤ edit.stop) :
    0 ≤ cursor asked := by
  unfold cursor
  cases last : asked.getLast? with
  | none => exact Int.le_refl 0
  | some edit => exact upright edit (List.mem_of_getLast? last)

theorem limit_le_length {text : Text} {rest : List Edit}
    (inside : ∀ edit ∈ rest, edit.start ≤ text.length) : limit text rest ≤ text.length := by
  unfold limit
  cases first : rest.head? with
  | none => exact Int.le_refl _
  | some edit => exact inside edit (List.mem_of_head? first)

/-- **No portion is empty** if all ranges lie in the text. -/
theorem Portion.Stands.text_ne_nil {text : Text} {context : Context} {history : History}
    {kept : List Edit} {portion : Portion} (stands : portion.Stands text context history kept)
    (within : ∀ edit ∈ kept, edit.span.within text.length = true) : portion.text ≠ [] := by
  cases stands with
  | inserted parts answered proper => exact proper
  | @unchanged before after parts room =>
    have bounds : ∀ edit ∈ before ++ after,
        0 ≤ edit.start ∧ edit.start ≤ edit.stop ∧ edit.stop ≤ text.length :=
      fun edit member => (Edit.within_iff _ _).mp (within edit (parts ▸ member))
    refine slice_ne_nil (cursor_nonneg fun edit member => ?_) room
      (limit_le_length fun edit member => ?_)
    · have := bounds edit (List.mem_append_left _ member)
      omega
    · have := bounds edit (List.mem_append_right _ member)
      omega

/-! ### The three ways -/

namespace Draft

variable {draft : Draft} {context : Context} {history : History} {kept : List Edit}

theorem render_of_error {clash : Clash} (refused : draft.plan.result = .error clash) :
    draft.render context history = ⟨draft.plan.events, [], .error (.overlap clash)⟩ := by
  unfold render
  rw [walk_of_error refused]

/-- **One text** in terms of the course of the emission. -/
theorem render_eq_course (planned : draft.plan.result = .ok kept) :
    draft.render context history =
      ⟨draft.openingEvents kept, (draft.courseOver context history kept).asked,
        (draft.courseOver context history kept).outcome
          ((draft.courseOver context history kept).portions.flatMap Portion.text)⟩ := by
  obtain ⟨result, asked⟩ := gather_eq_course draft.text context history [] kept
  have from_start : historyAfter history [] = history := List.append_nil history
  rw [from_start] at result asked
  unfold render
  rw [walk_of_ok planned]
  exact congr (congrArg _ asked) result

/-- What an outlet takes that refuses nothing. -/
theorem deliverTo_of_accepting [Codecs] {outlet : Outlet} (accepting : outlet.Accepting)
    (planned : draft.plan.result = .ok kept) :
    draft.deliverTo context none outlet history =
      ⟨draft.openingEvents kept, (draft.courseOver context history kept).asked,
        (((draft.courseOver context history kept).portions.map Portion.text).map
          Chunk.text).flatMap outlet.marksOf,
        (draft.courseOver context history kept).outcome
          (draft.courseOver context history kept).portions.length⟩ :=
  deliverTo_of_takes planned (Outlet.takes_of_accepting accepting 0 _)

/-- The texts that come out of an emission, one after another. -/
def chunks (draft : Draft) (context : Context) (history : History) : List Text :=
  match draft.plan.result with
  | .error _ => []
  | .ok kept => (draft.courseOver context history kept).portions.map Portion.text

theorem chunks_ne_nil
    (within : ∀ edit ∈ draft.edits, edit.span.within draft.text.length = true) :
    [] ∉ draft.chunks context history := by
  unfold chunks
  split
  · exact List.not_mem_nil
  · rename_i kept planned
    intro member
    obtain ⟨portion, found, empty⟩ := List.mem_map.mp member
    have stands := (course_sound draft.text context history kept).stands portion found
    exact stands.text_ne_nil (fun edit keeps => within edit (Plan.kept_mem planned edit keeps)) empty

theorem render_eq_chunks (draft : Draft) (context : Context) (history : History) (text : Text)
    (emitted : (draft.render context history).result = .ok text) :
    text = (draft.chunks context history).flatten := by
  cases planned : draft.plan.result with
  | error clash =>
    rw [render_of_error planned] at emitted
    cases emitted
  | ok kept =>
    rw [render_eq_course planned, Course.outcome] at emitted
    simp only [chunks, planned, ← List.flatMap_def]
    split at emitted
    · exact (Except.ok.inj emitted).symm
    · cases emitted

/-- **An outlet that refuses nothing** gets the chunks, and all else is as it is for one text. -/
theorem deliverTo_eq_render [Codecs] {outlet : Outlet} (accepting : outlet.Accepting) (draft : Draft)
    (context : Context) (history : History) :
    draft.deliverTo context none outlet history =
      ⟨(draft.render context history).events, (draft.render context history).asked,
        ((draft.chunks context history).map Chunk.text).flatMap outlet.marksOf,
        (draft.render context history).result.map fun _ =>
          (draft.chunks context history).length⟩ := by
  cases planned : draft.plan.result with
  | error clash =>
    rw [deliverTo_of_error planned, render_of_error planned]
    simp only [chunks, planned]
    rfl
  | ok kept =>
    rw [deliverTo_of_accepting accepting planned, render_eq_course planned]
    simp only [chunks, planned, Course.map_outcome, List.length_map]

/-- **The ways of emission agree.** A blocking and an asynchronous sink that refuse nothing take the
same chunks, whether the second makes its writes at once or later. Where it drains, it does so behind
each write; without the drains its marks are those of the first. The chunks make up the one text, and
their number is what both ways return; where the one text fails, both fail in the same way. All three
ask the same edits and report the same events. No chunk is empty if all ranges lie in the text. -/
theorem emissions_agree [Codecs] (draft : Draft) (context : Context) (history : History) (sink : Sink)
    (asyncSink : AsyncSink) (accepting : (Outlet.blocking sink).Accepting)
    (accepting' : (Outlet.async asyncSink).Accepting) :
    let rendering := draft.render context history
    let delivery := draft.deliver context none sink history
    let delivery' := draft.deliverAsync context none asyncSink history
    ∃ chunks : List Text,
      delivery.marks = chunks.map (fun chunk => .wrote (.text chunk)) ∧
      delivery'.marks =
        (if asyncSink.refusesDrain.isSome then
          chunks.flatMap fun chunk => [.wrote (.text chunk), .drained]
        else chunks.map fun chunk => .wrote (.text chunk)) ∧
      delivery'.marks.filter (· ≠ .drained) = delivery.marks ∧
      (∀ text, rendering.result = .ok text → text = chunks.flatten) ∧
      delivery.result = rendering.result.map (fun _ => chunks.length) ∧
      delivery'.result = rendering.result.map (fun _ => chunks.length) ∧
      delivery.asked = rendering.asked ∧ delivery'.asked = rendering.asked ∧
      delivery.events = rendering.events ∧ delivery'.events = rendering.events ∧
      ((∀ edit ∈ draft.edits, edit.span.within draft.text.length = true) → [] ∉ chunks) := by
  have blocking := deliverTo_eq_render accepting draft context history
  have async := deliverTo_eq_render accepting' draft context history
  simp only [deliverTo] at blocking async
  rw [blocking, async]
  refine ⟨draft.chunks context history, ?_, ?_, ?_, render_eq_chunks draft context history,
    rfl, rfl, rfl, rfl, rfl, rfl, chunks_ne_nil⟩
  · rw [Outlet.flatMap_marksOf, List.map_map]
    rfl
  · rw [Outlet.flatMap_marksOf, List.flatMap_map, List.map_map]
    rfl
  · rw [Outlet.marks_without_drains, Outlet.flatMap_marksOf]
    rfl

/-- A draft that was built by hand: its edits overrun the text, and one ends before it starts. -/
def looseDraft : Draft :=
  ⟨"abcdef", [⟨⟨-4, -2⟩, 1, .fixed "X"⟩, ⟨⟨5, 3⟩, 2, .fixed ""⟩, ⟨⟨4, 9⟩, 3, .fixed "Y"⟩]⟩

/-- A sink that makes its writes when they are awaited, and drains. -/
def drainingSink : AsyncSink := ⟨.accepting, true, some fun _ => none⟩

theorem emissions_agree_loose :
    (Outlet.blocking .accepting).Accepting ∧ (Outlet.async drainingSink).Accepting ∧
      (looseDraft.render none []).result = .ok "XY" ∧
      (looseDraft.deliver none none .accepting []).marks =
        [.wrote (.text "X"), .wrote (.text ""), .wrote (.text "Y")] ∧
      (looseDraft.deliver none none .accepting []).result = .ok 3 ∧
      (looseDraft.deliverAsync none none drainingSink []).marks.filter (· ≠ .drained) =
        [.wrote (.text "X"), .wrote (.text ""), .wrote (.text "Y")] ∧
      (looseDraft.deliverAsync none none drainingSink []).result = .ok 3 := by
  have blocking : (Outlet.blocking .accepting).Accepting := ⟨fun _ => rfl, nofun⟩
  have async : (Outlet.async drainingSink).Accepting :=
    ⟨fun _ => rfl, fun refuses drains writes => by cases drains; rfl⟩
  have whole : (looseDraft.render none []).result = .ok "XY" := by cbv
  have wrote : (looseDraft.deliver none none .accepting []).marks =
      [.wrote (.text "X"), .wrote (.text ""), .wrote (.text "Y")] := by cbv
  obtain ⟨chunks, marks, -, erased, -, count, count', -⟩ :=
    emissions_agree looseDraft none [] .accepting drainingSink blocking async
  have three : chunks.length = 3 := by
    simpa using (congrArg List.length (marks.symm.trans wrote))
  rw [whole, three] at count count'
  exact ⟨blocking, async, whole, wrote, count, erased.trans wrote, count'⟩

end Draft

end Splice
