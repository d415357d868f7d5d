/-
**What a session keeps.**

A client calls a session again and again, successfully or not, puts drafts aside and goes back to
them, and may start over with an edit from elsewhere. All that the calls can do to the edits comes
down to appending one of them (`Session.registerSpan_eq`), so a property of drafts that appending
keeps (`Draft.Grows`) holds of every draft at hand after any calls (`Desk.Keeps.run`).

* `Draft.Upon`: the draft has the text of the session, and all of its ranges lie in it;
* `Draft.Numbered`: the edits are numbered one after another, from one on;
* `Desk.run_invariant`: both hold of the session and of all drafts put aside, the second as long as
  no edit came from elsewhere; and the number given out last stays one behind the next order.
-/

import Mathlib
import Splice.Session
import Splice.Standard.Runtime

namespace Splice

/-! ### Orders -/

namespace Draft

variable {draft : Draft} {edit : Edit}

/-- The draft with an edit behind all others. -/
def append (draft : Draft) (edit : Edit) : Draft := { draft with edits := draft.edits ++ [edit] }

theorem add_eq (draft : Draft) (edit : Edit) : draft.add edit =
    if edit.span.within draft.text.length then .ok (draft.append edit)
    else .error (.outside edit.span draft.text.length) := rfl

theorem nextOrder_of_nil (empty : draft.edits = []) : draft.nextOrder = 1 := by
  unfold nextOrder
  rw [empty]
  rfl

/-- The next order is one behind the greatest. -/
theorem nextOrder_of_greatest (member : edit ∈ draft.edits)
    (greatest : ∀ other ∈ draft.edits, other.order ≤ edit.order) :
    draft.nextOrder = edit.order + 1 := by
  have found : (draft.edits.map Edit.order).max? = some edit.order := by
    refine List.max?_eq_some_iff.mpr ⟨List.mem_map_of_mem member, fun order mapped => ?_⟩
    obtain ⟨other, registered, rfl⟩ := List.mem_map.mp mapped
    exact greatest other registered
  unfold nextOrder
  rw [found]
  rfl

/-- Every order is below the next one. -/
theorem order_lt_nextOrder (member : edit ∈ draft.edits) : edit.order < draft.nextOrder := by
  have mapped : edit.order ∈ draft.edits.map Edit.order := List.mem_map_of_mem member
  cases found : (draft.edits.map Edit.order).max? with
  | none =>
    rw [List.max?_eq_none_iff.mp found] at mapped
    exact (List.not_mem_nil mapped).elim
  | some greatest =>
    have bound := (List.max?_eq_some_iff.mp found).2 edit.order mapped
    unfold nextOrder
    rw [found, Option.getD_some]
    omega

theorem nextOrder_append (next : edit.order = draft.nextOrder) :
    (draft.append edit).nextOrder = edit.order + 1 := by
  refine nextOrder_of_greatest (List.mem_append_right _ List.mem_cons_self) fun other member => ?_
  rcases List.mem_append.mp member with known | new
  · have := order_lt_nextOrder known
    omega
  · obtain rfl := List.mem_singleton.mp new
    exact Int.le_refl _

/-! ### Properties of drafts that grow -/

/-- The draft has the text, and all of its ranges lie in it. -/
structure Upon (text : Text) (draft : Draft) : Prop where
  same : draft.text = text
  within : ∀ edit ∈ draft.edits, edit.span.within text.length = true

/-- The edits are numbered one after another, from one on. -/
def Numbered (draft : Draft) : Prop :=
  ∀ (place : Nat) (edit : Edit), draft.edits[place]? = some edit → edit.order = place + 1

/-- The property is kept where an edit is appended under the next order. -/
def Grows (good : Draft → Prop) : Prop :=
  ∀ draft edit, good draft → edit.span.within draft.text.length = true →
    edit.order = draft.nextOrder → good (draft.append edit)

theorem Upon.append {text : Text} (upon : draft.Upon text)
    (inside : edit.span.within draft.text.length = true) : (draft.append edit).Upon text := by
  refine ⟨upon.same, fun other member => ?_⟩
  rcases List.mem_append.mp member with known | new
  · exact upon.within other known
  · obtain rfl := List.mem_singleton.mp new
    rwa [upon.same] at inside

theorem grows_upon (text : Text) : Grows (Upon text) := fun _ _ upon inside _ => upon.append inside

theorem Numbered.nextOrder (numbered : draft.Numbered) :
    draft.nextOrder = (draft.edits.length : Int) + 1 := by
  cases size : draft.edits.length with
  | zero => exact nextOrder_of_nil (List.length_eq_zero_iff.mp size)
  | succ count =>
    have bound : count < draft.edits.length := by omega
    have last := numbered count draft.edits[count] (List.getElem?_eq_getElem bound)
    rw [nextOrder_of_greatest (List.getElem_mem bound), last]
    · rfl
    · intro other member
      obtain ⟨place, inside, rfl⟩ := List.mem_iff_getElem.mp member
      have := numbered place draft.edits[place] (List.getElem?_eq_getElem inside)
      omega

theorem grows_numbered : Grows Numbered := by
  intro draft edit numbered _ next place other found
  rw [append, List.getElem?_append] at found
  split at found
  · exact numbered place other found
  · rename_i beyond
    obtain ⟨here, new⟩ := List.getElem?_eq_some_iff.mp found
    rw [List.length_singleton] at here
    rw [List.getElem_singleton] at new
    rw [← new, next, numbered.nextOrder]
    omega

end Draft

/-! ### One registration -/

namespace Session

variable {session : Session} {good : Draft → Prop}

/-- **Registering** appends an edit with the next order if its range lies in the text, and otherwise
does nothing but report the range. -/
theorem registerSpan_eq (session : Session) (span : Span) (replacement : Replacement) :
    session.registerSpan span replacement =
      if span.within session.draft.text.length then
        ⟨⟨session.draft.append ⟨span, session.lastOrder + 1, replacement⟩, session.lastOrder + 1⟩,
          [.registered ⟨span, session.lastOrder + 1, replacement⟩],
          .ok ⟨span, session.lastOrder + 1, replacement⟩⟩
      else ⟨session, [], .error (.outside span session.draft.text.length)⟩ := by
  unfold registerSpan
  simp only [Draft.add_eq]
  by_cases inside : span.within session.draft.text.length = true
  · simp only [if_pos inside]
  · simp only [if_neg inside]

/-- The order given out last is one behind the next one, and the draft has a property. -/
structure Keeps (good : Draft → Prop) (session : Session) : Prop where
  counter : session.lastOrder + 1 = session.draft.nextOrder
  good : good session.draft

theorem Keeps.ofDraft {draft : Draft} (holds : good draft) : (Session.ofDraft draft).Keeps good :=
  ⟨Int.sub_add_cancel _ _, holds⟩

theorem Keeps.register_ok_iff (keeps : session.Keeps good) (start length : Int)
    (replacement : Replacement) (edit : Edit) :
    (session.register start length replacement).result = .ok edit ↔
      (Span.directed start length).within session.draft.text.length = true ∧
        edit = ⟨.directed start length, session.draft.nextOrder, replacement⟩ := by
  rw [register, registerSpan_eq, keeps.counter]
  by_cases inside : (Span.directed start length).within session.draft.text.length = true
  · rw [if_pos inside, Except.ok.injEq, and_iff_right inside]
    exact eq_comm
  · rw [if_neg inside]
    exact ⟨nofun, fun both => (inside both.1).elim⟩

section Calls

variable (grows : Draft.Grows good)

include grows

theorem Keeps.registerSpan (keeps : session.Keeps good) (span : Span) (replacement : Replacement) :
    (session.registerSpan span replacement).session.Keeps good := by
  rw [registerSpan_eq]
  by_cases inside : span.within session.draft.text.length = true
  · have next : (⟨span, session.lastOrder + 1, replacement⟩ : Edit).order =
        session.draft.nextOrder := keeps.counter
    rw [if_pos inside]
    exact ⟨(Draft.nextOrder_append next).symm, grows _ _ keeps.good inside next⟩
  · rwa [if_neg inside]

theorem Keeps.loadEntry [Objects] [Limits] (keeps : session.Keeps good) (entry : Entry) :
    (session.loadEntry entry).session.Keeps good := by
  unfold Session.loadEntry
  dsimp only
  split
  · split
    · exact keeps
    · exact keeps.registerSpan grows _ _
  · exact keeps.registerSpan grows _ _

theorem Keeps.loadEntries [Objects] [Limits] (keeps : session.Keeps good) (script : Script) :
    (session.loadEntries script).session.Keeps good := by
  induction script generalizing session with
  | nil => exact keeps
  | cons entry rest ih =>
    have first := keeps.loadEntry grows entry
    unfold Session.loadEntries
    dsimp only
    split
    · exact first
    · exact ih first

theorem Keeps.load [Objects] [Limits] (keeps : session.Keeps good) (script : Script) :
    (session.load script).session.Keeps good := by
  have loaded := keeps.loadEntries grows script
  unfold Session.load
  dsimp only
  split
  · exact loaded
  · exact loaded

end Calls

end Session

/-! ### Any number of calls -/

/-- Something that a client does with a session. -/
inductive Call where
  | register (start length : Int) (replacement : Replacement)
  | replace (start length : Int) (text : Text)
  | delete (start length : Int)
  | registerAt (location : Location) (replacement : Replacement)
  | replaceAt (location : Location) (text : Text)
  | deleteAt (location : Location)
  | load (script : Script)
  | read (start length : Int)
  | readAt (location : Location)
  | render (context : Context)
  | deliver (context : Context) (encoding : Option Text) (sink : Sink)
  | deliverAsync (context : Context) (encoding : Option Text) (sink : AsyncSink)
  | save
  | restore (place : Nat)
  | adopt (edit : Edit)

/-- The call brings in an edit from elsewhere, with an order of its own. -/
def Call.isForeign : Call → Bool
  | .adopt _ => true
  | _ => false

/-- A session, the drafts that the client has put aside, and the questions asked so far. -/
structure Desk where
  session : Session
  saved : List Draft
  history : History

namespace Desk

/-- A new session over a text. -/
def start (text : Text) : Desk := ⟨.ofText text, [], []⟩

/-- The desk with the session that a reply leaves behind. -/
def following {α : Type} (desk : Desk) (reply : Reply α) : Desk :=
  { desk with session := reply.session }

/-- The desk after the replacements of some edits have been asked. -/
def afterAsking (desk : Desk) (asked : List Edit) : Desk :=
  { desk with history := desk.history ++ asked.map (·.replacement.key) }

section Calls

variable [Objects] [Limits] [Codecs]

/-- The desk after a call. -/
def call (desk : Desk) : Call → Desk
  | .register start length replacement =>
    desk.following (desk.session.register start length replacement)
  | .replace start length text => desk.following (desk.session.replace start length text)
  | .delete start length => desk.following (desk.session.delete start length)
  | .registerAt location replacement =>
    desk.following (desk.session.registerAt location replacement)
  | .replaceAt location text => desk.following (desk.session.replaceAt location text)
  | .deleteAt location => desk.following (desk.session.deleteAt location)
  | .load script => desk.following (desk.session.load script)
  | .read _ _ | .readAt _ => desk
  | .render context => desk.afterAsking (desk.session.draft.render context desk.history).asked
  | .deliver context encoding sink =>
    desk.afterAsking (desk.session.draft.deliver context encoding sink desk.history).asked
  | .deliverAsync context encoding sink =>
    desk.afterAsking (desk.session.draft.deliverAsync context encoding sink desk.history).asked
  | .save => { desk with saved := desk.saved ++ [desk.session.draft] }
  | .restore place =>
    match desk.saved[place]? with
    | none => desk
    | some draft => { desk with session := .ofDraft draft }
  | .adopt edit =>
    match desk.session.draft.add edit with
    | .error _ => desk
    | .ok draft => { desk with session := .ofDraft draft }

/-- The desk after calls, one after another. -/
def run (desk : Desk) (calls : List Call) : Desk := calls.foldl call desk

end Calls

/-- The sessions at hand: the current one, and one over each draft that has been put aside. -/
def sessions (desk : Desk) : List Session := desk.session :: desk.saved.map .ofDraft

/-- The current session and every draft put aside have a property. -/
structure Keeps (good : Draft → Prop) (desk : Desk) : Prop where
  session : desk.session.Keeps good
  saved : ∀ draft ∈ desk.saved, good draft

variable {desk : Desk} {good : Draft → Prop}

theorem Keeps.start {text : Text} (holds : good (.ofText text)) : (Desk.start text).Keeps good :=
  ⟨.ofDraft holds, fun _ member => (List.not_mem_nil member).elim⟩

theorem Keeps.sessions (keeps : desk.Keeps good) :
    ∀ session ∈ desk.sessions, session.Keeps good := by
  intro session member
  rcases List.mem_cons.mp member with rfl | aside
  · exact keeps.session
  · obtain ⟨draft, saved, rfl⟩ := List.mem_map.mp aside
    exact .ofDraft (keeps.saved draft saved)

section Runs

variable [Objects] [Limits] [Codecs]

/-- **One call** keeps what appending keeps. An edit from elsewhere is appended under its own
order, so the property must bear that as well if the call brings one in. -/
theorem Keeps.call (grows : Draft.Grows good) (keeps : desk.Keeps good) (call : Call)
    (adopts : call.isForeign = true → ∀ draft edit, good draft →
      edit.span.within draft.text.length = true → good (draft.append edit)) :
    (desk.call call).Keeps good := by
  obtain ⟨current, saved⟩ := keeps
  cases call with
  | register start length replacement => exact ⟨current.registerSpan grows _ _, saved⟩
  | replace start length text => exact ⟨current.registerSpan grows _ _, saved⟩
  | delete start length => exact ⟨current.registerSpan grows _ _, saved⟩
  | registerAt location replacement => exact ⟨current.registerSpan grows _ _, saved⟩
  | replaceAt location text => exact ⟨current.registerSpan grows _ _, saved⟩
  | deleteAt location => exact ⟨current.registerSpan grows _ _, saved⟩
  | load script => exact ⟨current.load grows script, saved⟩
  | read start length => exact ⟨current, saved⟩
  | readAt location => exact ⟨current, saved⟩
  | render context => exact ⟨current, saved⟩
  | deliver context encoding sink => exact ⟨current, saved⟩
  | deliverAsync context encoding sink => exact ⟨current, saved⟩
  | save =>
    refine ⟨current, fun draft member => ?_⟩
    rcases List.mem_append.mp member with known | new
    · exact saved draft known
    · obtain rfl := List.mem_singleton.mp new
      exact current.good
  | restore place =>
    unfold Desk.call
    dsimp only
    split
    · exact ⟨current, saved⟩
    · rename_i draft found
      exact ⟨.ofDraft (saved draft (List.mem_of_getElem? found)), saved⟩
  | adopt edit =>
    unfold Desk.call
    dsimp only
    rw [Draft.add_eq]
    by_cases inside : edit.span.within desk.session.draft.text.length = true
    · rw [if_pos inside]
      exact ⟨.ofDraft (adopts rfl _ edit current.good inside), saved⟩
    · rw [if_neg inside]
      exact ⟨current, saved⟩

/-- **Any number of calls** keep what appending keeps. -/
theorem Keeps.run (grows : Draft.Grows good) (keeps : desk.Keeps good) (calls : List Call)
    (adopts : ∀ call ∈ calls, call.isForeign = true → ∀ draft edit, good draft →
      edit.span.within draft.text.length = true → good (draft.append edit)) :
    (desk.run calls).Keeps good := by
  induction calls generalizing desk with
  | nil => exact keeps
  | cons call rest ih =>
    exact ih (keeps.call grows call (adopts call List.mem_cons_self)) fun other member =>
      adopts other (List.mem_cons_of_mem _ member)

/-- **The invariant of a session.** After any calls, of the current session and of one over any draft
that has been put aside:

* the text is the one at the beginning, all ranges lie in it, and reading depends on nothing else;
* the next edit to be registered gets the next order of the draft, which is greater than every order
  in it, and one where there is none;
* the edits have the orders one, two, three and so on, unless an edit has come from elsewhere. -/
theorem run_invariant (text : Text) (calls : List Call) :
    ∀ session ∈ ((start text).run calls).sessions,
      session.draft.text = text ∧
      (∀ edit ∈ session.draft.edits, edit.span.within text.length = true) ∧
      (∀ start length, session.read start length = (Session.ofText text).read start length) ∧
      (∀ start length replacement edit,
        (session.register start length replacement).result = .ok edit ↔
          (Span.directed start length).within text.length = true ∧
            edit = ⟨.directed start length, session.draft.nextOrder, replacement⟩) ∧
      (∀ edit ∈ session.draft.edits, edit.order < session.draft.nextOrder) ∧
      (session.draft.edits = [] → session.draft.nextOrder = 1) ∧
      ((∀ call ∈ calls, call.isForeign = false) →
        ∀ (place : Nat) (edit : Edit),
          session.draft.edits[place]? = some edit → edit.order = place + 1) := by
  intro session member
  have upon : (Draft.ofText text).Upon text := ⟨rfl, fun _ found => (List.not_mem_nil found).elim⟩
  have keeps := (Keeps.start upon).run (Draft.grows_upon text) calls fun _ _ _ _ _ upon inside =>
    upon.append inside
  have current := keeps.sessions session member
  have same := current.good.same
  refine ⟨same, current.good.within, fun start length => ?_, fun start length replacement edit => ?_,
    fun edit => Draft.order_lt_nextOrder, Draft.nextOrder_of_nil, fun own => ?_⟩
  · unfold Session.read Draft.read
    rw [same]
    rfl
  · rw [← same]
    exact current.register_ok_iff start length replacement edit
  · have blank : (Draft.ofText text).Numbered := fun _ _ found => by cases found
    have numbered := (Keeps.start blank).run Draft.grows_numbered calls fun call found foreign => by
      rw [own call found] at foreign
      cases foreign
    exact (numbered.sessions session member).good

end Runs

/-- Calls that put a draft aside, register more, once in vain, and go back to it to go on there. -/
def returningCalls : List Call :=
  [.replace 1 2 "X", .save, .replace 5 9 "Y", .delete 4 (-1), .restore 0, .replace 0 0 "!",
    .render none]

/-- The session that they leave behind. -/
def returned : Session := ((start "abcdef").run returningCalls).session

theorem run_invariant_returning :
    returned ∈ ((start "abcdef").run returningCalls).sessions ∧
      returned.draft.edits = [⟨⟨1, 3⟩, 1, .fixed "X"⟩, ⟨⟨0, 0⟩, 2, .fixed "!"⟩] ∧
      (∀ edit ∈ returned.draft.edits, edit.span.within 6 = true) ∧
      returned.read 1 2 = .ok "bc" ∧
      (returned.register 6 (-2) (.fixed "Z")).result = .ok ⟨⟨4, 6⟩, 3, .fixed "Z"⟩ ∧
      (∀ call ∈ returningCalls, call.isForeign = false) ∧
      ∀ (place : Nat) (edit : Edit),
        returned.draft.edits[place]? = some edit → edit.order = place + 1 := by
  have here : returned ∈ ((start "abcdef").run returningCalls).sessions := List.mem_cons_self
  have own : ∀ call ∈ returningCalls, call.isForeign = false := by decide
  obtain ⟨-, within, reading, registering, -, -, numbered⟩ :=
    run_invariant "abcdef" returningCalls returned here
  have inside : (Span.directed 6 (-2)).within 6 = true := by decide
  refine ⟨here, rfl, within, ?_, ?_, own, numbered own⟩
  · rw [reading]
    rfl
  · exact (registering 6 (-2) (.fixed "Z") _).mpr ⟨inside, rfl⟩

end Desk

end Splice
