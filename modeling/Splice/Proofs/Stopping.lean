/-
**Where a delivery stops.**

A delivery may be stopped by a clash of its edits, by a replacement that has no text, by a text that
cannot be encoded, and by its sink, which may refuse a write or the drain behind it. In each case the
sink has taken what came out before, and no edit has been asked that need not have been.

An `Outlet` is a sink together with the way in which it is served, blocking or asynchronous; what it
does for one text is the same in all cases (`Outlet.take_eq`), whether its writes are made at once or
when they are awaited.

* `Outlet.Takes`: the outlet takes texts one after another, as certain chunks;
* `feed_of_takes`: a delivery goes on behind the portions that its outlet takes;
* `Draft.deliverTo_stops`: what has been written and who has been asked, wherever a delivery stops.
-/

import Mathlib
import Splice.Proofs.Course

namespace Splice

/-! ### Outlets -/

/-- A sink and the way in which it is served. -/
inductive Outlet where
  | blocking (sink : Sink)
  | async (sink : AsyncSink)

namespace Outlet

/-- What is done for one text. -/
def take [Codecs] (outlet : Outlet) (encoding : Option Text) : Nat → Text → Taking :=
  match outlet with
  | .blocking sink => sink.take encoding
  | .async sink => sink.take encoding

/-- Why the write behind a number of complete ones is refused, if it is. -/
def refusesWrite : Outlet → Nat → Option Text
  | .blocking sink => sink.refusesWrite
  | .async sink => sink.refusesWrite

/-- Why a drain is refused, if the outlet drains at all. -/
def refusesDrain : Outlet → Option (Nat → Option Text)
  | .blocking _ => none
  | .async sink => sink.refusesDrain

/-- What a chunk that is taken leaves behind: its write, and the drain behind it. -/
def marksOf (outlet : Outlet) (chunk : Chunk) : List Mark :=
  if outlet.refusesDrain.isSome then [.wrote chunk, .drained] else [.wrote chunk]

theorem followedBy_nothing (taking : Taking) : taking.followedBy .nothing = taking := by
  obtain ⟨marks, failure⟩ := taking
  cases failure with
  | none => exact congrArg (Taking.mk · none) (List.append_nil marks)
  | some failure => rfl

theorem nothing_followedBy (taking : Taking) : Taking.nothing.followedBy taking = taking := rfl

/-- A write is made at once or when it is awaited, with nothing in between. -/
theorem ask_followedBy (sink : AsyncSink) (writes : Nat) (chunk : Chunk) :
    (sink.ask writes chunk).atOnce.followedBy ((sink.ask writes chunk).awaited.getD .nothing) =
      sink.write writes chunk := by
  unfold AsyncSink.ask
  split
  · exact nothing_followedBy _
  · exact followedBy_nothing _

variable [Codecs] {outlet : Outlet} {encoding : Option Text} {writes : Nat} {text : Text}
  {chunk : Chunk}

/-- **What is done for one text**: it is encoded, then written, then drained; each of the three may
be the end. -/
theorem take_eq (outlet : Outlet) (encoding : Option Text) (writes : Nat) (text : Text) :
    outlet.take encoding writes text =
      match chunkOf encoding text with
      | .error failure => ⟨[], some failure⟩
      | .ok chunk =>
        match outlet.refusesWrite writes with
        | some message => ⟨[], some (.sink message)⟩
        | none =>
          match outlet.refusesDrain.bind (· writes) with
          | some message => ⟨[.wrote chunk], some (.sink message)⟩
          | none => ⟨outlet.marksOf chunk, none⟩ := by
  cases outlet with
  | blocking sink => rfl
  | async sink =>
    simp only [take, AsyncSink.take, ask_followedBy]
    cases chunkOf encoding text with
    | error failure => rfl
    | ok chunk =>
      obtain ⟨⟨refusesWrite⟩, defers, refusesDrain⟩ := sink
      simp only [Sink.write, AsyncSink.drain, Outlet.refusesWrite, Outlet.refusesDrain, marksOf]
      cases refusesWrite writes with
      | some message => rfl
      | none =>
        cases refusesDrain with
        | none => rfl
        | some refuses =>
          simp only [Option.bind_some]
          cases refuses writes <;> rfl

theorem take_of_unencodable {failure : Failure}
    (unencodable : chunkOf encoding text = .error failure) :
    outlet.take encoding writes text = ⟨[], some failure⟩ := by
  rw [take_eq, unencodable]

theorem take_of_refused {message : Text} (encoded : chunkOf encoding text = .ok chunk)
    (refused : outlet.refusesWrite writes = some message) :
    outlet.take encoding writes text = ⟨[], some (.sink message)⟩ := by
  rw [take_eq, encoded]
  dsimp only
  rw [refused]

theorem take_of_undrained {message : Text} (encoded : chunkOf encoding text = .ok chunk)
    (written : outlet.refusesWrite writes = none)
    (undrained : outlet.refusesDrain.bind (· writes) = some message) :
    outlet.take encoding writes text = ⟨[.wrote chunk], some (.sink message)⟩ := by
  rw [take_eq, encoded]
  dsimp only
  rw [written]
  dsimp only
  rw [undrained]

theorem take_of_complete (encoded : chunkOf encoding text = .ok chunk)
    (written : outlet.refusesWrite writes = none)
    (drained : outlet.refusesDrain.bind (· writes) = none) :
    outlet.take encoding writes text = ⟨outlet.marksOf chunk, none⟩ := by
  rw [take_eq, encoded]
  dsimp only
  rw [written]
  dsimp only
  rw [drained]

/-- An outlet that does not fail encodes, writes and drains. -/
theorem complete_of_take (complete : (outlet.take encoding writes text).failure = none) :
    ∃ chunk, chunkOf encoding text = .ok chunk ∧ outlet.refusesWrite writes = none ∧
      outlet.refusesDrain.bind (· writes) = none := by
  rw [take_eq] at complete
  split at complete
  · cases complete
  · rename_i chunk encoded
    split at complete
    · cases complete
    · rename_i written
      split at complete
      · cases complete
      · rename_i drained
        exact ⟨chunk, encoded, written, drained⟩

/-- **The outlet takes texts**, one after another from a number of complete writes on, as the chunks
given: each is encoded, written and, if the outlet drains, drained. -/
inductive Takes (outlet : Outlet) (encoding : Option Text) : Nat → List Text → List Chunk → Prop
  | nil (writes : Nat) : Takes outlet encoding writes [] []
  | cons {writes : Nat} {text : Text} {chunk : Chunk} {texts : List Text} {chunks : List Chunk}
      (encoded : chunkOf encoding text = .ok chunk) (written : outlet.refusesWrite writes = none)
      (drained : outlet.refusesDrain.bind (· writes) = none)
      (others : Takes outlet encoding (writes + 1) texts chunks) :
      Takes outlet encoding writes (text :: texts) (chunk :: chunks)

/-- An outlet takes all texts, or all in front of one that it fails at. -/
theorem takes_or_fails (outlet : Outlet) (encoding : Option Text) (writes : Nat)
    (portions : List Portion) :
    (∃ chunks, outlet.Takes encoding writes (portions.map Portion.text) chunks) ∨
      ∃ front portion back chunks, portions = front ++ portion :: back ∧
        outlet.Takes encoding writes (front.map Portion.text) chunks ∧
        (outlet.take encoding (writes + front.length) portion.text).failure ≠ none := by
  induction portions generalizing writes with
  | nil => exact Or.inl ⟨[], .nil writes⟩
  | cons portion rest ih =>
    by_cases failed : (outlet.take encoding writes portion.text).failure = none
    · obtain ⟨chunk, encoded, written, drained⟩ := complete_of_take failed
      rcases ih (writes + 1) with ⟨chunks, takes⟩ | ⟨front, next, back, chunks, parts, takes, fails⟩
      · exact Or.inl ⟨chunk :: chunks, .cons encoded written drained takes⟩
      · refine Or.inr ⟨portion :: front, next, back, chunk :: chunks, by rw [parts]; rfl,
          .cons encoded written drained takes, ?_⟩
        rwa [List.length_cons, Nat.add_comm front.length, ← Nat.add_assoc]
    · exact Or.inr ⟨[], portion, rest, [], rfl, .nil writes, failed⟩

end Outlet

/-! ### Deliveries -/

section Feeding

variable [Codecs] {outlet : Outlet} {encoding : Option Text} {ending : Nat → Delivery}

/-- **A delivery goes on** behind the portions that its outlet takes. -/
theorem feed_of_takes {front : List Portion} {chunks : List Chunk} {writes : Nat}
    (takes : outlet.Takes encoding writes (front.map Portion.text) chunks)
    (back : List Portion) :
    feed (outlet.take encoding) ending writes (front ++ back) =
      (feed (outlet.take encoding) ending (writes + front.length) back).behind
        (chunks.flatMap outlet.marksOf) := by
  induction front generalizing writes chunks with
  | nil =>
    cases takes
    rfl
  | cons portion front ih =>
    cases takes with
    | cons encoded written drained others =>
      rw [List.cons_append, feed, Outlet.take_of_complete encoded written drained]
      dsimp only
      rw [ih others, List.length_cons, Nat.add_assoc, Nat.add_comm 1, List.flatMap_cons]
      unfold Delivery.behind
      rw [List.append_assoc]

/-- Where the outlet fails, the delivery stops with what was taken until then. -/
theorem feed_of_failed {front back : List Portion} {portion : Portion} {chunks : List Chunk}
    {marks : List Mark} {failure : Failure}
    (takes : outlet.Takes encoding 0 (front.map Portion.text) chunks)
    (failed : outlet.take encoding front.length portion.text = ⟨marks, some failure⟩) :
    feed (outlet.take encoding) ending 0 (front ++ portion :: back) =
      ⟨[], portion.asked, chunks.flatMap outlet.marksOf ++ marks, .error failure⟩ := by
  rw [feed_of_takes takes, feed, Nat.zero_add, failed]
  rfl

end Feeding

namespace Draft

/-- The delivery of the text to an outlet. -/
def deliverTo [Codecs] (draft : Draft) (context : Context) (encoding : Option Text) (outlet : Outlet)
    (history : History) : Delivery :=
  match outlet with
  | .blocking sink => draft.deliver context encoding sink history
  | .async sink => draft.deliverAsync context encoding sink history

/-- The events of an emission whose edits do not clash. -/
def openingEvents (draft : Draft) (kept : List Edit) : List Event :=
  draft.plan.events ++ [.emitting draft.edits.length kept.length]

/-- The course of an emission of the draft over the edits that take effect. -/
def courseOver (draft : Draft) (context : Context) (history : History) (kept : List Edit) : Course :=
  course draft.text context history [] kept

variable {draft : Draft} {context : Context} {encoding : Option Text} {outlet : Outlet}
  {history : History} {kept : List Edit}

theorem deliverBy_of_error {take : Nat → Text → Taking} {clash : Clash}
    (refused : draft.plan.result = .error clash) :
    draft.deliverBy context take history =
      ⟨draft.plan.events, [], [], .error (.overlap clash)⟩ := by
  unfold deliverBy
  rw [walk_of_error refused]

/-- A delivery feeds the course of the emission. -/
theorem deliverBy_of_ok {take : Nat → Text → Taking} (planned : draft.plan.result = .ok kept) :
    draft.deliverBy context take history =
      { feed take (draft.courseOver context history kept).ending 0
          (draft.courseOver context history kept).portions with
        events := draft.openingEvents kept } := by
  have fed := deliverFrom_eq_feed draft.text context take history [] kept 0
  have from_start : historyAfter history [] = history := List.append_nil history
  unfold deliverBy
  rw [walk_of_ok planned, courseOver, ← fed, from_start]
  rfl

section Outlets

variable [Codecs]

theorem deliverTo_eq (draft : Draft) (context : Context) (encoding : Option Text) (outlet : Outlet)
    (history : History) : draft.deliverTo context encoding outlet history =
      draft.deliverBy context (outlet.take encoding) history := by
  cases outlet <;> rfl

theorem deliverTo_of_error {clash : Clash} (refused : draft.plan.result = .error clash) :
    draft.deliverTo context encoding outlet history =
      ⟨draft.plan.events, [], [], .error (.overlap clash)⟩ := by
  rw [deliverTo_eq, deliverBy_of_error refused]

section Planned

variable {chunks : List Chunk} (planned : draft.plan.result = .ok kept)

include planned

/-- **A delivery stops** at the portion that its outlet fails at. -/
theorem deliverTo_of_failed {front back : List Portion} {portion : Portion} {marks : List Mark}
    {failure : Failure}
    (parts : (draft.courseOver context history kept).portions = front ++ portion :: back)
    (takes : outlet.Takes encoding 0 (front.map Portion.text) chunks)
    (failed : outlet.take encoding front.length portion.text = ⟨marks, some failure⟩) :
    draft.deliverTo context encoding outlet history =
      ⟨draft.openingEvents kept, portion.asked, chunks.flatMap outlet.marksOf ++ marks,
        .error failure⟩ := by
  rw [deliverTo_eq, deliverBy_of_ok planned, parts, feed_of_failed takes failed]

/-- **A delivery ends** as its course does if its outlet takes all portions. -/
theorem deliverTo_of_takes
    (takes : outlet.Takes encoding 0
      ((draft.courseOver context history kept).portions.map Portion.text) chunks) :
    draft.deliverTo context encoding outlet history =
      ⟨draft.openingEvents kept, (draft.courseOver context history kept).asked,
        chunks.flatMap outlet.marksOf, (draft.courseOver context history kept).outcome
          (draft.courseOver context history kept).portions.length⟩ := by
  have fed := @feed_of_takes _ _ _ (draft.courseOver context history kept).ending _ _ _ takes []
  rw [List.append_nil, Nat.zero_add] at fed
  rw [deliverTo_eq, deliverBy_of_ok planned, fed]
  unfold feed Course.ending Delivery.behind
  rw [List.append_nil]

end Planned

/-- **Where a delivery stops.** If the edits clash, nothing is asked or written. Otherwise the
emission has a sound course, and its portions are written one after another, with a drain behind each
if the outlet drains, until

* a portion cannot be encoded, or its write is refused: then nothing more is written; or its drain is
  refused: then nothing more than the portion itself. That failure comes out, and just the edits have
  been asked that had to be for that portion;
* all of them have been taken: then the fault of the course comes out, if there is one, and otherwise
  the number of writes, and all edits of the course have been asked. -/
theorem deliverTo_stops (draft : Draft) (context : Context) (encoding : Option Text)
    (outlet : Outlet) (history : History) :
    (∀ clash, draft.plan.result = .error clash →
      draft.deliverTo context encoding outlet history =
        ⟨draft.plan.events, [], [], .error (.overlap clash)⟩) ∧
    ∀ kept, draft.plan.result = .ok kept →
      let whole := draft.courseOver context history kept
      whole.Sound draft.text context history kept ∧
      kept.Pairwise (fun first second => first.stop ≤ second.start) ∧
      ((∃ chunks, outlet.Takes encoding 0 (whole.portions.map Portion.text) chunks) ∨
        ∃ (front : List Portion) (portion : Portion) (back : List Portion) (chunks : List Chunk),
          whole.portions = front ++ portion :: back ∧
          outlet.Takes encoding 0 (front.map Portion.text) chunks ∧
          (outlet.take encoding front.length portion.text).failure ≠ none) ∧
      (∀ (front : List Portion) (portion : Portion) (back : List Portion) (chunks : List Chunk),
        whole.portions = front ++ portion :: back →
        outlet.Takes encoding 0 (front.map Portion.text) chunks →
        (∀ failure : Failure, chunkOf encoding portion.text = .error failure →
          draft.deliverTo context encoding outlet history =
            ⟨draft.openingEvents kept, portion.asked, chunks.flatMap outlet.marksOf,
              .error failure⟩) ∧
        ∀ chunk : Chunk, chunkOf encoding portion.text = .ok chunk →
          (∀ message : Text, outlet.refusesWrite front.length = some message →
            draft.deliverTo context encoding outlet history =
              ⟨draft.openingEvents kept, portion.asked, chunks.flatMap outlet.marksOf,
                .error (.sink message)⟩) ∧
          (outlet.refusesWrite front.length = none →
            ∀ refuses : Nat → Option Text, outlet.refusesDrain = some refuses →
            ∀ message : Text, refuses front.length = some message →
            draft.deliverTo context encoding outlet history =
              ⟨draft.openingEvents kept, portion.asked,
                chunks.flatMap outlet.marksOf ++ [.wrote chunk], .error (.sink message)⟩)) ∧
      ∀ chunks : List Chunk, outlet.Takes encoding 0 (whole.portions.map Portion.text) chunks →
        draft.deliverTo context encoding outlet history =
          ⟨draft.openingEvents kept, whole.asked, chunks.flatMap outlet.marksOf,
            whole.outcome whole.portions.length⟩ := by
  refine ⟨fun clash refused => deliverTo_of_error refused, fun kept planned => ?_⟩
  have cases := outlet.takes_or_fails encoding 0 (draft.courseOver context history kept).portions
  simp only [Nat.zero_add] at cases
  refine ⟨course_sound _ _ _ _, Plan.kept_disjoint planned, cases, ?_, fun chunks takes =>
    deliverTo_of_takes planned takes⟩
  intro front portion back chunks parts takes
  refine ⟨fun failure unencodable => ?_, fun chunk encoded =>
    ⟨fun message refused => ?_, fun written refuses drains message undrained => ?_⟩⟩
  · rw [deliverTo_of_failed planned parts takes (Outlet.take_of_unencodable unencodable),
      List.append_nil]
  · rw [deliverTo_of_failed planned parts takes (Outlet.take_of_refused encoded refused),
      List.append_nil]
  · have drain : outlet.refusesDrain.bind (· front.length) = some message := by
      rw [drains]
      exact undrained
    rw [deliverTo_of_failed planned parts takes (Outlet.take_of_undrained encoded written drain)]

end Outlets

/-- A draft with an insertion of nothing between two parts of the text, and a replacement. -/
def pausedDraft : Draft := ⟨"abcdef", [⟨⟨3, 4⟩, 1, .fixed "X"⟩, ⟨⟨2, 2⟩, 2, .fixed ""⟩]⟩

/-- A sink that makes its writes when they are awaited, and refuses its second drain. -/
def cloggedSink : AsyncSink :=
  ⟨⟨fun _ => none⟩, true, some fun writes => if writes = 1 then some "clogged" else none⟩

example [Codecs] : (pausedDraft.deliverTo none none (.async cloggedSink) []).marks =
    [.wrote (.text "ab"), .drained, .wrote (.text "c")] := by cbv

end Draft

end Splice
