/-
**The course of an emission.**

An emission that no sink hinders takes a course of its own: portion after portion comes out, and each
comes out when certain edits have been asked. In front of an edit lies the part of the text behind
the edit asked before it, if there is one (`gap`); then the edit is asked, and its text is a portion
unless it is empty. The course ends behind the last part of the text, or with the first fault.

All emissions follow this course. One text is what its portions make together (`gather_eq_course`);
a delivery hands one portion after another to its sink, and when it stops at a portion, just the
edits have been asked that had to be (`deliverFrom_eq_feed`).

* `course`: the portions, the edits asked, and the fault, given the edits that take effect;
* `Portion.Stands`: where a portion is from, and which edits have been asked by then;
* `Course.Sound`: a course asks the edits in order, each once, and ends with them or at a fault.
-/

import Mathlib
import Splice.Proofs.Walk

namespace Splice

/-! ### Courses -/

/-- A part of an emission as it comes out, and the edits that have been asked by then. -/
structure Portion where
  text : Text
  asked : List Edit

/-- The portions of an emission up to its end or its first fault, all edits that are asked, and the
fault, if there is one. -/
structure Course where
  portions : List Portion
  asked : List Edit
  fault : Option RenderFault

/-- The course with more portions in front. -/
def Course.behind (portions : List Portion) (course : Course) : Course :=
  { course with portions := portions ++ course.portions }

/-- The end of the edit asked last, or the beginning of the text. -/
def cursor (asked : List Edit) : Int := (asked.getLast?.map Edit.stop).getD 0

/-- The start of the next edit, or the end of the text. -/
def limit (text : Text) (rest : List Edit) : Int := (rest.head?.map Edit.start).getD text.length

/-- The part of the text between the edit asked last and the next one, if there is one. -/
def gap (text : Text) (asked rest : List Edit) : List Portion :=
  if cursor asked < limit text rest then [⟨text.slice (cursor asked) (limit text rest), asked⟩]
  else []

/-- The text of the edit asked last, unless it is empty. -/
def own (inserted : Text) (asked : List Edit) : List Portion :=
  if inserted.isEmpty then [] else [⟨inserted, asked⟩]

/-- The record of questions after some edits have been asked. -/
def historyAfter (history : History) (asked : List Edit) : History :=
  history ++ asked.map (·.replacement.key)

/-- The course of an emission over the edits that are left, behind those asked before. -/
def course (text : Text) (context : Context) (history : History) (asked : List Edit) :
    List Edit → Course
  | [] => ⟨gap text asked [], asked, none⟩
  | edit :: rest =>
    match edit.replacement.ask context (historyAfter history asked) with
    | .error fault => ⟨gap text asked (edit :: rest), asked ++ [edit], some fault⟩
    | .ok inserted =>
      (course text context history (asked ++ [edit]) rest).behind
        (gap text asked (edit :: rest) ++ own inserted (asked ++ [edit]))

variable {text : Text} {context : Context} {history : History} {asked rest kept : List Edit}

theorem cursor_append (asked : List Edit) (edit : Edit) : cursor (asked ++ [edit]) = edit.stop := by
  unfold cursor
  rw [List.getLast?_concat]
  rfl

theorem historyAfter_append (history : History) (asked : List Edit) (edit : Edit) :
    historyAfter history (asked ++ [edit]) =
      historyAfter history asked ++ [edit.replacement.key] := by
  unfold historyAfter
  rw [List.map_append, List.append_assoc]
  rfl

/-! ### What a course is made of -/

/-- **Where a portion is from**: it is the text of the edit asked last, or the part of the text
between the edit asked last and the one to be asked next. -/
inductive Portion.Stands (text : Text) (context : Context) (history : History) (kept : List Edit) :
    Portion → Prop
  | inserted {before after : List Edit} {edit : Edit} {inserted : Text}
      (parts : kept = before ++ edit :: after)
      (answered : edit.replacement.ask context (historyAfter history before) = .ok inserted)
      (proper : inserted ≠ []) : Stands text context history kept ⟨inserted, before ++ [edit]⟩
  | unchanged {before after : List Edit} (parts : kept = before ++ after)
      (room : cursor before < limit text after) :
      Stands text context history kept ⟨text.slice (cursor before) (limit text after), before⟩

/-- **What a course is**: portions that stand where they belong, in the order of the edits. If it
comes to its end, all edits have been asked. If it comes to a fault, the edits in front of the one at
fault have been asked, and that one; the part of the text in front of it has come out as the last
portion, and nothing behind it. -/
structure Course.Sound (text : Text) (context : Context) (history : History) (kept : List Edit)
    (course : Course) : Prop where
  stands : ∀ portion ∈ course.portions, portion.Stands text context history kept
  ascending : course.portions.Pairwise fun first second => first.asked <+: second.asked
  complete : course.fault = none → course.asked = kept
  faulty : ∀ fault, course.fault = some fault →
    ∃ before edit after, kept = before ++ edit :: after ∧
      edit.replacement.ask context (historyAfter history before) = .error fault ∧
      course.asked = before ++ [edit] ∧
      gap text before (edit :: after) <:+ course.portions ∧
      ∀ portion ∈ course.portions, portion.asked <+: before

section Parts

variable {edit : Edit} {inserted : Text} {fault : RenderFault}

theorem course_cons_error (rest : List Edit)
    (failed : edit.replacement.ask context (historyAfter history asked) = .error fault) :
    course text context history asked (edit :: rest) =
      ⟨gap text asked (edit :: rest), asked ++ [edit], some fault⟩ := by
  rw [course, failed]

theorem course_cons_ok (rest : List Edit)
    (answered : edit.replacement.ask context (historyAfter history asked) = .ok inserted) :
    course text context history asked (edit :: rest) =
      (course text context history (asked ++ [edit]) rest).behind
        (gap text asked (edit :: rest) ++ own inserted (asked ++ [edit])) := by
  rw [course, answered]

/-- A portion is in front of the next edit, is its own, or comes later. -/
theorem mem_course_cons_iff (rest : List Edit)
    (answered : edit.replacement.ask context (historyAfter history asked) = .ok inserted)
    {portion : Portion} : portion ∈ (course text context history asked (edit :: rest)).portions ↔
      portion ∈ gap text asked (edit :: rest) ∨ portion ∈ own inserted (asked ++ [edit]) ∨
        portion ∈ (course text context history (asked ++ [edit]) rest).portions := by
  rw [course_cons_ok rest answered, Course.behind, List.mem_append, List.mem_append, or_assoc]

/-- There is at most one portion between two edits. -/
theorem mem_gap_iff {portion : Portion} : portion ∈ gap text asked rest ↔
    cursor asked < limit text rest ∧
      portion = ⟨text.slice (cursor asked) (limit text rest), asked⟩ := by
  unfold gap
  by_cases room : cursor asked < limit text rest
  · rw [if_pos room, List.mem_singleton, and_iff_right room]
  · rw [if_neg room]
    exact ⟨fun member => (List.not_mem_nil member).elim, fun both => (room both.1).elim⟩

theorem mem_own_iff {portion : Portion} :
    portion ∈ own inserted asked ↔ inserted ≠ [] ∧ portion = ⟨inserted, asked⟩ := by
  unfold own
  cases inserted with
  | nil => simp
  | cons point rest => simp

theorem asked_of_mem_gap : ∀ portion ∈ gap text asked rest, portion.asked = asked :=
  fun _ member => congrArg Portion.asked (mem_gap_iff.mp member).2

theorem asked_of_mem_own : ∀ portion ∈ own inserted asked, portion.asked = asked :=
  fun _ member => congrArg Portion.asked (mem_own_iff.mp member).2

theorem gap_ascending :
    (gap text asked rest).Pairwise fun first second => first.asked <+: second.asked := by
  unfold gap
  split
  · exact List.pairwise_singleton _ _
  · exact List.Pairwise.nil

theorem own_ascending :
    (own inserted asked).Pairwise fun first second => first.asked <+: second.asked := by
  unfold own
  split
  · exact List.Pairwise.nil
  · exact List.pairwise_singleton _ _

end Parts

theorem prefix_of_mem_course (text : Text) (context : Context) (history : History)
    (asked rest : List Edit) :
    ∀ portion ∈ (course text context history asked rest).portions, asked <+: portion.asked := by
  induction rest generalizing asked with
  | nil =>
    intro portion member
    rw [asked_of_mem_gap portion member]
  | cons edit rest ih =>
    intro portion member
    cases answer : edit.replacement.ask context (historyAfter history asked) with
    | error fault =>
      rw [course_cons_error rest answer] at member
      rw [asked_of_mem_gap portion member]
    | ok inserted =>
      rcases (mem_course_cons_iff rest answer).mp member with between | mine | later
      · rw [asked_of_mem_gap portion between]
      · rw [asked_of_mem_own portion mine]
        exact List.prefix_append _ _
      · exact (List.prefix_append _ _).trans (ih (asked ++ [edit]) portion later)

theorem course_stands (parts : kept = asked ++ rest) :
    ∀ portion ∈ (course text context history asked rest).portions,
      portion.Stands text context history kept := by
  induction rest generalizing asked with
  | nil =>
    intro portion member
    obtain ⟨room, rfl⟩ := mem_gap_iff.mp member
    exact .unchanged parts room
  | cons edit rest ih =>
    intro portion member
    cases answer : edit.replacement.ask context (historyAfter history asked) with
    | error fault =>
      rw [course_cons_error rest answer] at member
      obtain ⟨room, rfl⟩ := mem_gap_iff.mp member
      exact .unchanged parts room
    | ok inserted =>
      rcases (mem_course_cons_iff rest answer).mp member with between | mine | later
      · obtain ⟨room, rfl⟩ := mem_gap_iff.mp between
        exact .unchanged parts room
      · obtain ⟨proper, rfl⟩ := mem_own_iff.mp mine
        exact .inserted parts answer proper
      · refine ih ?_ portion later
        rw [parts, List.append_assoc, List.singleton_append]

theorem course_ascending (asked rest : List Edit) :
    (course text context history asked rest).portions.Pairwise fun first second =>
      first.asked <+: second.asked := by
  induction rest generalizing asked with
  | nil => exact gap_ascending
  | cons edit rest ih =>
    cases answer : edit.replacement.ask context (historyAfter history asked) with
    | error fault =>
      rw [course_cons_error rest answer]
      exact gap_ascending
    | ok inserted =>
      rw [course_cons_ok rest answer]
      have behind := prefix_of_mem_course text context history (asked ++ [edit]) rest
      have here : ∀ portion ∈ gap text asked (edit :: rest) ++ own inserted (asked ++ [edit]),
          portion.asked <+: asked ++ [edit] := by
        intro portion member
        rcases List.mem_append.mp member with between | mine
        · rw [asked_of_mem_gap portion between]
          exact List.prefix_append _ _
        · rw [asked_of_mem_own portion mine]
      refine List.pairwise_append.mpr ⟨?_, ih (asked ++ [edit]), fun first front second back =>
        (here first front).trans (behind second back)⟩
      refine List.pairwise_append.mpr
        ⟨gap_ascending, own_ascending, fun first front second mine => ?_⟩
      rw [asked_of_mem_own second mine]
      exact here first (List.mem_append_left _ front)

theorem course_complete (parts : kept = asked ++ rest)
    (complete : (course text context history asked rest).fault = none) :
    (course text context history asked rest).asked = kept := by
  induction rest generalizing asked with
  | nil =>
    rw [parts, List.append_nil]
    rfl
  | cons edit rest ih =>
    cases answer : edit.replacement.ask context (historyAfter history asked) with
    | error fault =>
      rw [course_cons_error rest answer] at complete
      cases complete
    | ok inserted =>
      rw [course_cons_ok rest answer] at complete ⊢
      refine ih ?_ complete
      rw [parts, List.append_assoc, List.singleton_append]

theorem course_faulty (parts : kept = asked ++ rest) {fault : RenderFault}
    (failed : (course text context history asked rest).fault = some fault) :
    ∃ before edit after, kept = before ++ edit :: after ∧
      edit.replacement.ask context (historyAfter history before) = .error fault ∧
      asked <+: before ∧
      (course text context history asked rest).asked = before ++ [edit] ∧
      gap text before (edit :: after) <:+ (course text context history asked rest).portions ∧
      ∀ portion ∈ (course text context history asked rest).portions, portion.asked <+: before := by
  induction rest generalizing asked with
  | nil => cases failed
  | cons edit rest ih =>
    cases answer : edit.replacement.ask context (historyAfter history asked) with
    | error other =>
      rw [course_cons_error rest answer] at failed ⊢
      obtain rfl := Option.some.inj failed
      refine ⟨asked, edit, rest, parts, answer, List.prefix_rfl, rfl, List.suffix_rfl, ?_⟩
      intro portion member
      rw [asked_of_mem_gap portion member]
    | ok inserted =>
      have parts' : kept = (asked ++ [edit]) ++ rest := by
        rw [parts, List.append_assoc, List.singleton_append]
      rw [course_cons_ok rest answer] at failed
      obtain ⟨before, faulty, after, whole, fails, ahead, all, last, none⟩ := ih parts' failed
      refine ⟨before, faulty, after, whole, fails, (List.prefix_append _ _).trans ahead, ?_, ?_,
        fun portion member => ?_⟩
      · rwa [course_cons_ok rest answer]
      · rw [course_cons_ok rest answer]
        exact last.trans (List.suffix_append _ _)
      · rcases (mem_course_cons_iff rest answer).mp member with between | mine | later
        · rw [asked_of_mem_gap portion between]
          exact (List.prefix_append _ _).trans ahead
        · rw [asked_of_mem_own portion mine]
          exact ahead
        · exact none portion later

/-- **Every course is sound.** -/
theorem course_sound (text : Text) (context : Context) (history : History) (kept : List Edit) :
    (course text context history [] kept).Sound text context history kept := by
  refine ⟨course_stands rfl, course_ascending [] kept, course_complete rfl, fun fault failed => ?_⟩
  obtain ⟨before, edit, after, whole, fails, _, rest⟩ := course_faulty rfl failed
  exact ⟨before, edit, after, whole, fails, rest⟩

/-! ### One text -/

namespace Course

/-- How a course ends: with a result, or with its fault. -/
def outcome {α : Type} (course : Course) (result : α) : Except Failure α :=
  match course.fault with
  | none => .ok result
  | some fault => .error (.render fault)

theorem map_outcome {α β : Type} (course : Course) (result : α) (change : α → β) :
    (course.outcome result).map change = course.outcome (change result) := by
  unfold outcome
  cases course.fault <;> rfl

end Course

theorem flatMap_gap (text : Text) (asked rest : List Edit) :
    (gap text asked rest).flatMap Portion.text =
      if cursor asked < limit text rest then text.slice (cursor asked) (limit text rest)
      else [] := by
  unfold gap
  split
  · rw [List.flatMap_singleton]
  · rfl

theorem flatMap_own (inserted : Text) (asked : List Edit) :
    (own inserted asked).flatMap Portion.text = inserted := by
  unfold own
  cases inserted with
  | nil => rfl
  | cons point rest => exact List.append_nil _

theorem gather_kept_if_asked (condition : Prop) [Decidable condition] (part : Text)
    (way : List Stretch) :
    (gather context history ((if condition then [.kept part] else []) ++ way)).asked =
      (gather context history way).asked := by
  split
  · rfl
  · rfl

/-- **One text** is what the portions make together, and asks what they ask. -/
theorem gather_eq_course (text : Text) (context : Context) (history : History)
    (asked rest : List Edit) :
    (gather context (historyAfter history asked) (stretches text (cursor asked) rest)).result =
      (course text context history asked rest).outcome
        ((course text context history asked rest).portions.flatMap Portion.text) ∧
    asked ++ (gather context (historyAfter history asked)
        (stretches text (cursor asked) rest)).asked =
      (course text context history asked rest).asked := by
  induction rest generalizing asked with
  | nil =>
    have tail := @gather_kept_if context (historyAfter history asked)
      (cursor asked < limit text []) _ (text.slice (cursor asked) (limit text [])) []
    have quiet := @gather_kept_if_asked context (historyAfter history asked)
      (cursor asked < limit text []) _ (text.slice (cursor asked) (limit text [])) []
    rw [List.append_nil] at tail quiet
    refine ⟨tail.trans ?_, ?_⟩
    · rw [course, flatMap_gap, gather, Except.map, List.append_nil]
      rfl
    · exact (congrArg (asked ++ ·) quiet).trans (List.append_nil asked)
  | cons edit rest ih =>
    rw [stretches, gather_kept_if, gather_kept_if_asked]
    have later := ih (asked ++ [edit])
    rw [cursor_append, historyAfter_append] at later
    cases answer : edit.replacement.ask context (historyAfter history asked) with
    | error fault =>
      rw [course_cons_error rest answer]
      refine ⟨?_, ?_⟩
      · simp only [gather, answer]
        rfl
      · simp only [gather, answer]
    | ok inserted =>
      rw [course_cons_ok rest answer]
      simp only [gather, answer, Rendering.asking, Rendering.withPart]
      refine ⟨?_, ?_⟩
      · rw [later.1, Course.map_outcome, Course.map_outcome, Course.behind, List.flatMap_append,
          List.flatMap_append, flatMap_gap, flatMap_own]
        simp only [List.append_assoc]
        rfl
      · rw [Course.behind, ← later.2, List.append_assoc, List.singleton_append]

/-! ### Deliveries -/

/-- The delivery of portions after a number of complete writes, and of what is behind them. -/
def feed (take : Nat → Text → Taking) (ending : Nat → Delivery) (writes : Nat) :
    List Portion → Delivery
  | [] => ending writes
  | portion :: rest =>
    match take writes portion.text with
    | ⟨marks, some failure⟩ => ⟨[], portion.asked, marks, .error failure⟩
    | ⟨marks, none⟩ => (feed take ending (writes + 1) rest).behind marks

/-- The delivery of a course whose portions have all been taken. -/
def Course.ending (course : Course) (writes : Nat) : Delivery :=
  ⟨[], course.asked, [], course.outcome writes⟩

/-- The delivery behind questions that were asked before. -/
def Delivery.afterAsking (asked : List Edit) (delivery : Delivery) : Delivery :=
  { delivery with asked := asked ++ delivery.asked }

theorem afterAsking_asking (asked : List Edit) (edit : Edit) (delivery : Delivery) :
    (delivery.asking edit).afterAsking asked = delivery.afterAsking (asked ++ [edit]) := by
  unfold Delivery.asking Delivery.afterAsking
  rw [List.append_assoc, List.singleton_append]

theorem afterAsking_failed (asked : List Edit) (marks : List Mark) (failure : Failure) :
    (Delivery.failed marks failure).afterAsking asked = ⟨[], asked, marks, .error failure⟩ := by
  unfold Delivery.failed Delivery.afterAsking
  rw [List.append_nil]

section Feeding

variable {take : Nat → Text → Taking} {ending : Nat → Delivery}

/-- A part of the text is handed on as the portion that it is. -/
theorem deliverFrom_kept_if (condition : Prop) [Decidable condition] (part : Text)
    {way : List Stretch} {portions : List Portion}
    (others : ∀ writes, (deliverFrom context take history writes way).afterAsking asked =
      feed take ending writes portions) (writes : Nat) :
    (deliverFrom context take history writes
        ((if condition then [.kept part] else []) ++ way)).afterAsking asked =
      feed take ending writes ((if condition then [⟨part, asked⟩] else []) ++ portions) := by
  split
  · rw [List.singleton_append, List.singleton_append, deliverFrom, feed]
    rcases take writes part with ⟨marks, failure | failure⟩
    · exact congrArg (Delivery.behind marks) (others (writes + 1))
    · exact afterAsking_failed asked marks failure
  · exact others writes

/-- An edit is asked, and its text is handed on as the portion that it is, unless it is empty. -/
theorem deliverFrom_replaced {edit : Edit} {inserted : Text} {way : List Stretch}
    {portions : List Portion} (answered : edit.replacement.ask context history = .ok inserted)
    (others : ∀ writes, (deliverFrom context take (history ++ [edit.replacement.key]) writes
      way).afterAsking (asked ++ [edit]) = feed take ending writes portions) (writes : Nat) :
    (deliverFrom context take history writes (.replaced edit :: way)).afterAsking asked =
      feed take ending writes (own inserted (asked ++ [edit]) ++ portions) := by
  simp only [deliverFrom, answered, own]
  split
  · rw [afterAsking_asking]
    exact others writes
  · rw [List.singleton_append, feed]
    rcases take writes inserted with ⟨marks, failure | failure⟩
    · rw [afterAsking_asking]
      exact congrArg (Delivery.behind marks) (others (writes + 1))
    · rw [afterAsking_asking]
      exact afterAsking_failed _ marks failure

/-- **A delivery feeds its sink with the portions of the course**, one after another. -/
theorem deliverFrom_eq_feed (text : Text) (context : Context) (take : Nat → Text → Taking)
    (history : History) (asked rest : List Edit) (writes : Nat) :
    (deliverFrom context take (historyAfter history asked) writes
        (stretches text (cursor asked) rest)).afterAsking asked =
      feed take (course text context history asked rest).ending writes
        (course text context history asked rest).portions := by
  induction rest generalizing asked writes with
  | nil =>
    have finish : ∀ writes,
        (deliverFrom context take (historyAfter history asked) writes []).afterAsking asked =
          feed take (course text context history asked []).ending writes [] := by
      intro writes
      simp [deliverFrom, feed, Delivery.afterAsking, Course.ending, course, Course.outcome]
    have tail := deliverFrom_kept_if (cursor asked < limit text [])
      (text.slice (cursor asked) (limit text [])) finish writes
    rwa [List.append_nil, List.append_nil] at tail
  | cons edit rest ih =>
    have later := ih (asked ++ [edit])
    rw [cursor_append, historyAfter_append] at later
    rw [stretches]
    cases answer : edit.replacement.ask context (historyAfter history asked) with
    | error fault =>
      rw [course_cons_error rest answer]
      have faulty : ∀ writes, (deliverFrom context take (historyAfter history asked) writes
          (.replaced edit :: stretches text edit.stop rest)).afterAsking asked =
          feed take (Course.ending ⟨gap text asked (edit :: rest), asked ++ [edit], some fault⟩)
            writes [] := by
        intro writes
        simp only [deliverFrom, answer]
        rw [afterAsking_asking]
        exact afterAsking_failed _ _ _
      have stops := deliverFrom_kept_if (cursor asked < edit.start)
        (text.slice (cursor asked) edit.start) faulty writes
      rwa [List.append_nil] at stops
    | ok inserted =>
      rw [course_cons_ok rest answer, Course.behind, List.append_assoc]
      exact deliverFrom_kept_if _ _ (deliverFrom_replaced answer later) writes

end Feeding

end Splice
