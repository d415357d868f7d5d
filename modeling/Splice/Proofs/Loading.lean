/-
**Scripts loaded into a session.**

Loading a script registers one edit for each entry, in the order of the script, as long as the ranges
of the entries lie in the text. A template takes the text of its range with it; that this part can be
read is no further condition, because it is the range itself.

* `Entry.registration`: what an entry asks for over a text;
* `Session.loadEntry_eq`: an entry loaded is that registration, under the next order;
* `Script.draftOver`: a text with the edits of a script;
* `Session.load_ofText_of_within`, `Session.load_ok_iff`: a script is loaded just when all its ranges
  lie in the text.
-/

import Mathlib
import Splice.Proofs.Reordering

namespace Splice

variable [Objects] [Limits]

namespace Entry

/-- The range of an entry: from its start to the offset that lies its signed length away. -/
def span (entry : Entry) : Span := .directed entry.start entry.reach

/-- What an entry asks for over a text. -/
def registration (text : Text) (entry : Entry) : Registration :=
  ⟨entry.start, entry.reach,
    if entry.isTemplate then .template entry.text (text.slice entry.span.start entry.span.stop)
    else .fixed entry.text⟩

end Entry

/-- A text with the edits of a script, numbered from one on. -/
def Script.draftOver (script : Script) (text : Text) : Draft :=
  ⟨text, Registration.edits 1 (script.map (Entry.registration text))⟩

theorem Script.length_draftOver (script : Script) (text : Text) :
    (script.draftOver text).edits.length = script.length := by
  unfold draftOver
  rw [Registration.length_edits, List.length_map]

/-- The ranges of the edits of a script are those of its entries. -/
theorem Script.within_draftOver {script : Script} {text : Text}
    (within : ∀ entry ∈ script, entry.span.within text.length = true) :
    ∀ edit ∈ (script.draftOver text).edits, edit.span.within text.length = true := by
  intro edit member
  obtain ⟨registration, listed, order, rfl⟩ := Registration.exists_of_mem_edits member
  obtain ⟨entry, known, rfl⟩ := List.mem_map.mp listed
  exact within entry known

namespace Draft

omit [Objects] [Limits] in
/-- The part of a text that a directed range covers can be read just when the range lies in it. -/
theorem read_directed (draft : Draft) (start length : Int) :
    draft.read (min start (start + length)) length.natAbs =
      if (Span.directed start length).within draft.text.length then
        .ok (draft.text.slice (Span.directed start length).start (Span.directed start length).stop)
      else .error (.outside (.directed start length) draft.text.length) := by
  have stop : min start (start + length) + (length.natAbs : Int) = max start (start + length) := by
    omega
  have inside : (Span.directed start length).within draft.text.length = true ↔
      ¬ (min start (start + length) < 0 ∨ (length.natAbs : Int) < 0 ∨
        (draft.text.length : Int) < max start (start + length)) := by
    rw [Span.within_iff]
    show 0 ≤ min start (start + length) ∧ min start (start + length) ≤ max start (start + length) ∧
      max start (start + length) ≤ (draft.text.length : Int) ↔ _
    omega
  unfold read
  simp only [stop]
  by_cases within : (Span.directed start length).within draft.text.length = true
  · rw [if_pos within, if_neg (inside.mp within)]
    rfl
  · rw [if_neg within, if_pos (not_not.mp fun free => within (inside.mpr free))]
    rfl

end Draft

namespace Session

variable {session : Session}

/-- **An entry loaded** is its registration, under the next order. -/
theorem loadEntry_eq (session : Session) (entry : Entry) :
    session.loadEntry entry =
      session.registerSpan entry.span (entry.registration session.draft.text).replacement := by
  -- a template reads its range first, which fails just where the registration would
  have reading : session.read (min entry.start (entry.start + entry.reach)) entry.reach.natAbs =
      if entry.span.within session.draft.text.length then
        .ok (session.draft.text.slice entry.span.start entry.span.stop)
      else .error (.outside entry.span session.draft.text.length) :=
    session.draft.read_directed entry.start entry.reach
  unfold loadEntry Entry.registration
  dsimp only
  split
  · by_cases within : entry.span.within session.draft.text.length = true
    · rw [reading, if_pos within]
      rfl
    · rw [reading, if_neg within, registerSpan_eq, if_neg within]
  · rfl

/-- **Entries in the text are all registered**, one after another. -/
theorem loadEntries_of_within {script : Script}
    (within : ∀ entry ∈ script, entry.span.within session.draft.text.length = true) :
    let made := Registration.edits (session.lastOrder + 1)
      (script.map (Entry.registration session.draft.text))
    session.loadEntries script =
      ⟨⟨⟨session.draft.text, session.draft.edits ++ made⟩, session.lastOrder + script.length⟩,
        made.map .registered, .ok ()⟩ := by
  induction script generalizing session with
  | nil => simp [loadEntries, Registration.edits]
  | cons entry rest ih =>
    obtain ⟨here, others⟩ := List.forall_mem_cons.mp within
    let first := (entry.registration session.draft.text).edit (session.lastOrder + 1)
    let after : Session := ⟨session.draft.append first, first.order⟩
    have step : session.loadEntry entry = ⟨after, [.registered first], .ok first⟩ := by
      rw [loadEntry_eq, registerSpan_eq, if_pos here]
      rfl
    have later := @ih after others
    have count : session.lastOrder + (entry :: rest).length = after.lastOrder + rest.length := by
      show _ = session.lastOrder + 1 + (rest.length : Int)
      rw [List.length_cons]
      omega
    intro made
    unfold loadEntries
    rw [step, count]
    simp only [later]
    show (⟨⟨⟨session.draft.text, (session.draft.edits ++ [first]) ++ _⟩, _⟩, _, _⟩ : Reply Unit) = _
    rw [List.append_assoc]
    rfl

/-- Entries are registered up to the first whose range does not lie in the text. -/
theorem within_of_loadEntries {script : Script}
    (loaded : (session.loadEntries script).result = .ok ()) :
    ∀ entry ∈ script, entry.span.within session.draft.text.length = true := by
  induction script generalizing session with
  | nil => exact fun _ member => (List.not_mem_nil member).elim
  | cons entry rest ih =>
    unfold loadEntries at loaded
    rw [loadEntry_eq, registerSpan_eq] at loaded
    by_cases here : entry.span.within session.draft.text.length = true
    · rw [if_pos here] at loaded
      have others := @ih ⟨session.draft.append _, _⟩ loaded
      exact List.forall_mem_cons.mpr ⟨here, others⟩
    · rw [if_neg here] at loaded
      cases loaded

/-- **A script in the text is loaded**, entry after entry. -/
theorem load_of_within {script : Script}
    (within : ∀ entry ∈ script, entry.span.within session.draft.text.length = true) :
    let made := Registration.edits (session.lastOrder + 1)
      (script.map (Entry.registration session.draft.text))
    session.load script =
      ⟨⟨⟨session.draft.text, session.draft.edits ++ made⟩, session.lastOrder + script.length⟩,
        made.map .registered ++ [.loaded script.length], .ok script.length⟩ := by
  intro made
  unfold load
  simp only [loadEntries_of_within within]
  rfl

theorem load_result_of_within {text : Text} {script : Script}
    (within : ∀ entry ∈ script, entry.span.within text.length = true) :
    ((ofText text).load script).result = .ok script.length :=
  congrArg Reply.result (@load_of_within _ _ (ofText text) script within)

/-- **A script is loaded** just when all its ranges lie in the text. -/
theorem load_ok_iff (text : Text) (script : Script) :
    (∃ count, ((ofText text).load script).result = .ok count) ↔
      ∀ entry ∈ script, entry.span.within text.length = true := by
  constructor
  · rintro ⟨count, loaded⟩
    unfold load at loaded
    dsimp only at loaded
    split at loaded
    · cases loaded
    · rename_i complete
      exact within_of_loadEntries complete
  · exact fun within => ⟨_, load_result_of_within within⟩

/-- The draft of a script that has been loaded over a text. -/
theorem load_ofText_of_within {text : Text} {script : Script}
    (within : ∀ entry ∈ script, entry.span.within text.length = true) :
    ((ofText text).load script).session.draft = script.draftOver text := by
  rw [@load_of_within _ _ (ofText text) script within]
  rfl

end Session

end Splice
