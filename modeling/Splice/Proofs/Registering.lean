/-
**Registering one edit.**

Six calls register an edit: with a replacement of any kind, with a text, or for a removal, and each at
an offset with a signed length or at a location, whose end may lie before its start. They all come down
to one registration, and it goes through just when its range lies in the text. One edit is appended
then, and nothing else changes; otherwise nothing changes at all, so that a session is none the wiser
for any calls that it has rejected.

* `Call.registration?`: what a call asks to be registered;
* `Session.registerSpan_spec`: one registration, its result, and the session behind it;
* `Desk.answer?`: what a call that registers something answers;
* `Desk.run_rejected`: any number of calls that are rejected;
* `Desk.answer_registers`: such a call, its answer, and what it leaves behind.
-/

import Splice.Proofs.Reordering

namespace Splice

/-- What a call asks to be registered, if it registers a single edit. A location stands for its first
offset and the signed way from there to its last one. -/
def Call.registration? : Call → Option Registration
  | .register start length replacement => some ⟨start, length, replacement⟩
  | .replace start length text => some ⟨start, length, .fixed text⟩
  | .delete start length => some ⟨start, length, .fixed []⟩
  | .registerAt location replacement =>
    some ⟨location.first.offset, location.last.offset - location.first.offset, replacement⟩
  | .replaceAt location text =>
    some ⟨location.first.offset, location.last.offset - location.first.offset, .fixed text⟩
  | .deleteAt location =>
    some ⟨location.first.offset, location.last.offset - location.first.offset, .fixed []⟩
  | .load _ | .read _ _ | .readAt _ | .render _ | .deliver _ _ _ | .deliverAsync _ _ _ | .save
  | .restore _ | .adopt _ => none

/-- The call asks for a registration whose range does not lie in a text of the size. -/
def Call.RejectedAt (size : Nat) (call : Call) : Prop :=
  ∃ registration, call.registration? = some registration ∧ registration.span.within size = false

/-- **One registration**: it goes through just when the range lies in the text, and appends one edit then;
otherwise it reports the range, and leaves the session as it was. -/
theorem Session.registerSpan_spec (session : Session) (span : Span) (replacement : Replacement) :
    let edit : Edit := ⟨span, session.lastOrder + 1, replacement⟩
    let reply := session.registerSpan span replacement
    ((∃ made, reply.result = .ok made) ↔ span.within session.draft.text.length = true) ∧
      (∀ made, reply.result = .ok made →
        made = edit ∧ reply.session = ⟨session.draft.append edit, session.lastOrder + 1⟩) ∧
      ∀ failure, reply.result = .error failure →
        failure = .outside span session.draft.text.length ∧ reply.session = session := by
  intro edit reply
  have registered : reply = _ := registerSpan_eq session span replacement
  by_cases within : span.within session.draft.text.length = true
  · rw [registered, if_pos within]
    exact ⟨⟨fun _ => within, fun _ => ⟨edit, rfl⟩⟩,
      fun made result => ⟨(Except.ok.inj result).symm, rfl⟩, nofun⟩
  · rw [registered, if_neg within]
    exact ⟨⟨nofun, fun inside => (within inside).elim⟩, nofun,
      fun failure result => ⟨(Except.error.inj result).symm, rfl⟩⟩

namespace Desk

/-- What a call answers that registers a single edit. -/
def answer? (desk : Desk) : Call → Option (Reply Edit)
  | .register start length replacement => some (desk.session.register start length replacement)
  | .replace start length text => some (desk.session.replace start length text)
  | .delete start length => some (desk.session.delete start length)
  | .registerAt location replacement => some (desk.session.registerAt location replacement)
  | .replaceAt location text => some (desk.session.replaceAt location text)
  | .deleteAt location => some (desk.session.deleteAt location)
  | .load _ | .read _ _ | .readAt _ | .render _ | .deliver _ _ _ | .deliverAsync _ _ _ | .save
  | .restore _ | .adopt _ => none

variable {desk : Desk} {call : Call} {registration : Registration}

/-- **Six calls, one registration.** -/
theorem answer?_eq (registers : call.registration? = some registration) :
    desk.answer? call =
      some (desk.session.registerSpan registration.span registration.replacement) := by
  cases call <;> cases registers <;> rfl

section Calls

variable [Objects] [Limits] [Codecs]

theorem call_eq (registers : call.registration? = some registration) :
    desk.call call =
      desk.following (desk.session.registerSpan registration.span registration.replacement) := by
  cases call <;> cases registers <;> rfl

/-- A call that is rejected leaves everything as it was. -/
theorem call_rejected (rejected : call.RejectedAt desk.session.draft.text.length) :
    desk.call call = desk := by
  obtain ⟨registration, registers, outside⟩ := rejected
  rw [call_eq registers, Session.registerSpan_eq, if_neg (Bool.not_eq_true _ ▸ outside)]
  rfl

/-- **Any number of calls that are rejected** leave everything as it was. -/
theorem run_rejected {calls : List Call}
    (rejected : ∀ call ∈ calls, call.RejectedAt desk.session.draft.text.length) :
    desk.run calls = desk := by
  induction calls with
  | nil => rfl
  | cons call rest ih =>
    obtain ⟨here, others⟩ := List.forall_mem_cons.mp rejected
    show (desk.call call).run rest = desk
    rw [call_rejected here]
    exact ih others

/-- **Registering an edit** is exact and leaves no trace if it fails. Whatever state a client has come
to, a call that registers a single edit

* goes through just when the range between the offset and the one that lies the signed length away is
  in the text;
* has then appended that one range under the order behind the one given out last, and has changed
  neither the text, the edits before, the drafts put aside, nor the record of questions;
* reports the range and the size of the text otherwise, as long as the offsets have no more digits than
  can be written, and has changed nothing;
* answers as it would have answered in front of any calls that were rejected, so that the next edit gets
  the order that a rejected one would have got. -/
theorem answer_registers (registers : call.registration? = some registration) :
    let first := min registration.start (registration.start + registration.length)
    let stop := max registration.start (registration.start + registration.length)
    let size := desk.session.draft.text.length
    let edit : Edit := ⟨⟨first, stop⟩, desk.session.lastOrder + 1, registration.replacement⟩
    ∃ answer : Reply Edit, desk.answer? call = some answer ∧
      ((∃ made, answer.result = .ok made) ↔ 0 ≤ first ∧ stop ≤ size) ∧
      (∀ made, answer.result = .ok made → made = edit ∧
        desk.call call =
          ⟨⟨⟨desk.session.draft.text, desk.session.draft.edits ++ [edit]⟩,
            desk.session.lastOrder + 1⟩, desk.saved, desk.history⟩) ∧
      (∀ failure, answer.result = .error failure →
        failure = (if writable first && writable stop then .range ⟨first, stop⟩ size
          else .tooManyDigits) ∧
        desk.call call = desk) ∧
      ∀ calls : List Call, (∀ other ∈ calls, other.RejectedAt size) →
        (desk.run calls).answer? call = some answer := by
  intro first stop size edit
  have span : registration.span = ⟨first, stop⟩ := rfl
  have upright : first ≤ stop := by omega
  have inside : registration.span.within size = true ↔ 0 ≤ first ∧ stop ≤ size := by
    rw [span, Span.within_iff]
    exact ⟨fun bounds => ⟨bounds.1, bounds.2.2⟩, fun bounds => ⟨bounds.1, upright, bounds.2⟩⟩
  have answered : desk.answer? call =
      some (desk.session.registerSpan registration.span registration.replacement) :=
    answer?_eq registers
  have left : desk.call call =
      desk.following (desk.session.registerSpan registration.span registration.replacement) :=
    call_eq registers
  obtain ⟨through, accepted, refused⟩ :=
    desk.session.registerSpan_spec registration.span registration.replacement
  refine ⟨_, answered, through.trans inside, fun made result => ?_, fun failure result => ?_,
    fun calls rejected => ?_⟩
  · obtain ⟨same, after⟩ := accepted made result
    exact ⟨same, by rw [left, following, after]; rfl⟩
  · obtain ⟨same, after⟩ := refused failure result
    exact ⟨same, by rw [left, following, after]⟩
  · rw [run_rejected rejected, answered]

end Calls

/-- A session that has registered an edit, with a draft put aside. -/
def busyDesk : Desk := (start "abcdef").run [.replace 1 2 "X", .save]

/-- A location that ends before it starts. -/
def backwards : Location := ⟨⟨6, 1, 6⟩, ⟨4, 1, 4⟩⟩

/-- Calls that ask for ranges before the text, behind it and across its end. -/
def strayCalls : List Call := [.delete 0 (-1), .replace 7 0 "Y", .deleteAt ⟨⟨7, 1, 7⟩, ⟨5, 1, 5⟩⟩]

theorem answer_registers_backwards :
    (Call.replaceAt backwards "Z").registration? = some ⟨6, -2, .fixed "Z"⟩ ∧
      (∀ call ∈ strayCalls, call.RejectedAt 6) ∧
      ∃ answer : Reply Edit,
        (busyDesk.run strayCalls).answer? (.replaceAt backwards "Z") = some answer ∧
        answer.result = .ok ⟨⟨4, 6⟩, 2, .fixed "Z"⟩ ∧
        (busyDesk.call (.replaceAt backwards "Z")).session.draft.edits =
          [⟨⟨1, 3⟩, 1, .fixed "X"⟩, ⟨⟨4, 6⟩, 2, .fixed "Z"⟩] := by
  have registers : (Call.replaceAt backwards "Z").registration? = some ⟨6, -2, .fixed "Z"⟩ := rfl
  have rejected : ∀ call ∈ strayCalls, call.RejectedAt 6 := by
    intro call member
    simp only [strayCalls, List.mem_cons, List.not_mem_nil, or_false] at member
    rcases member with rfl | rfl | rfl
    · exact ⟨_, rfl, by decide⟩
    · exact ⟨_, rfl, by decide⟩
    · exact ⟨_, rfl, by decide⟩
  obtain ⟨answer, -, through, made, -, unmoved⟩ := @answer_registers busyDesk _ _ _ _ _ registers
  obtain ⟨edit, result⟩ := through.mpr (by decide)
  obtain ⟨rfl, left⟩ := made edit result
  exact ⟨registers, rejected, answer, unmoved strayCalls rejected, result, by rw [left]; rfl⟩

end Desk

end Splice
