/-
**The order of registration.**

The order in which edits are registered shows in their numbers. Precedence falls back on the numbers
only where two ranges are the same, so without such ties they decide nothing: edits registered in
another order are sorted in the same way, and everything that an emission does after that looks at
ranges and replacements alone.

* `Session.registerAll_eq`: registrations in the text all succeed, and number their edits in turn;
* `Edit.sorted_unnumbered_eq`: without ties, sorted edits are the same up to their numbers;
* `SameOutcome`: one text, one fault, or clashes of the same two ranges;
* `Session.render_perm`: registrations in two orders come to the same outcome.
-/

import Mathlib
import Splice.Proofs.Cutting
import Splice.Proofs.Sessions

namespace Splice

/-! ### Edits without numbers -/

namespace Edit

/-- The edit without its number. -/
def unnumbered (edit : Edit) : Edit := { edit with order := 0 }

@[simp] theorem start_unnumbered (edit : Edit) : edit.unnumbered.start = edit.start := rfl

@[simp] theorem stop_unnumbered (edit : Edit) : edit.unnumbered.stop = edit.stop := rfl

@[simp] theorem order_unnumbered (edit : Edit) : edit.unnumbered.order = 0 := rfl

@[simp] theorem span_unnumbered (edit : Edit) : edit.unnumbered.span = edit.span := rfl

@[simp] theorem replacement_unnumbered (edit : Edit) :
    edit.unnumbered.replacement = edit.replacement := rfl

theorem faithful_unnumbered : Faithful unnumbered :=
  ⟨fun _ => rfl, fun _ _ => Iff.rfl, fun _ _ => Iff.rfl⟩

variable {first second : Edit} {edits others : List Edit}

theorem precedes_unnumbered (ahead : first.precedes second = true) :
    first.unnumbered.precedes second.unnumbered = true := by
  rw [precedes_iff] at ahead ⊢
  simp only [start_unnumbered, stop_unnumbered, order_unnumbered]
  omega

/-- Only edits of one range precede each other. -/
theorem span_eq_of_precedes (ahead : first.precedes second = true)
    (behind : second.precedes first = true) : first.span = second.span := by
  rw [precedes_iff] at ahead behind
  rw [span_eq_iff]
  omega

/-- **Sorting without ties** comes to the same whatever the numbers are. -/
theorem sorted_unnumbered_eq (same : (edits.map unnumbered).Perm (others.map unnumbered))
    (untied : (edits.map span).Nodup) :
    (sorted edits).map unnumbered = (sorted others).map unnumbered := by
  have perm : ((sorted edits).map unnumbered).Perm (edits.map unnumbered) :=
    (List.mergeSort_perm edits _).map _
  have perm' : ((sorted others).map unnumbered).Perm (edits.map unnumbered) :=
    ((List.mergeSort_perm others _).map _).trans same.symm
  have ordered (edits : List Edit) : ((sorted edits).map unnumbered).Pairwise
      fun first second => first.precedes second = true :=
    (sorted_pairwise edits).map unnumbered fun _ _ => precedes_unnumbered
  refine (perm.trans perm'.symm).eq_of_pairwise ?_ (ordered edits) (ordered others)
  intro first second front back ahead behind
  obtain ⟨edit, known, rfl⟩ := List.mem_map.mp (perm.mem_iff.mp front)
  obtain ⟨other, known', rfl⟩ := List.mem_map.mp (perm'.mem_iff.mp back)
  have oneSpan : edit.unnumbered.span = other.unnumbered.span := span_eq_of_precedes ahead behind
  rw [List.inj_on_of_nodup_map untied known known' oneSpan]

end Edit

/-- **Plans without ties** are the same up to the numbers. -/
theorem Plan.ofEdits_unnumbered_eq {edits others : List Edit}
    (same : (edits.map Edit.unnumbered).Perm (others.map Edit.unnumbered))
    (untied : (edits.map Edit.span).Nodup) :
    (ofEdits edits).map Edit.unnumbered = (ofEdits others).map Edit.unnumbered := by
  have swept (edits : List Edit) : (ofEdits edits).map Edit.unnumbered =
      sweep none ((Edit.sorted edits).map Edit.unnumbered) :=
    (sweep_map Edit.faithful_unnumbered none _).symm
  rw [swept, swept, Edit.sorted_unnumbered_eq same untied]

/-! ### Outcomes -/

/-- Two emissions come to the same text, to the same fault, or to clashes of the same ranges. -/
inductive SameOutcome : Except Failure Text → Except Failure Text → Prop
  | text (text : Text) : SameOutcome (.ok text) (.ok text)
  | fault (fault : RenderFault) : SameOutcome (.error (.render fault)) (.error (.render fault))
  | clash {clash clash' : Clash} (first : clash.first.span = clash'.first.span)
      (second : clash.second.span = clash'.second.span) :
      SameOutcome (.error (.overlap clash)) (.error (.overlap clash'))

theorem SameOutcome.of_answers (outcome : Except RenderFault Text) :
    SameOutcome (outcome.mapError Failure.render) (outcome.mapError Failure.render) := by
  cases outcome with
  | error fault => exact .fault fault
  | ok text => exact .text text

theorem exists_fault_of_answers {context : Context} {history : History} {edits : List Edit}
    {fault : RenderFault} (failed : answers context history edits = .error fault) :
    ∃ edit ∈ edits, ∃ history', edit.replacement.ask context history' = .error fault := by
  induction edits generalizing history with
  | nil => cases failed
  | cons edit rest ih =>
    unfold answers at failed
    cases asked : edit.replacement.ask context history with
    | error other =>
      rw [asked] at failed
      cases failed
      exact ⟨edit, List.mem_cons_self, history, asked⟩
    | ok text =>
      simp only [asked] at failed
      cases others : answers context (history ++ [edit.replacement.key]) rest with
      | ok texts =>
        rw [others] at failed
        cases failed
      | error other =>
        rw [others] at failed
        cases failed
        obtain ⟨later, member, found⟩ := ih others
        exact ⟨later, List.mem_cons_of_mem _ member, found⟩

namespace Draft

variable {draft : Draft} {context : Context}

/-- Steady edits that differ only in their numbers give the same texts in the same places. -/
theorem woven_unnumbered {kept kept' : List Edit}
    (same : kept.map Edit.unnumbered = kept'.map Edit.unnumbered)
    (steady : ∀ edit ∈ kept, edit.replacement.Steady context)
    (steady' : ∀ edit ∈ kept', edit.replacement.Steady context) (text : Text)
    (history history' : History) :
    (answers context history kept).map (fun texts => weave text 0 (kept.zip texts)) =
      (answers context history' kept').map fun texts => weave text 0 (kept'.zip texts) := by
  have unseen (kept : List Edit) :
      answers context [] (kept.map Edit.unnumbered) = answers context [] kept :=
    answers_map Edit.replacement_unnumbered [] kept
  have unseen' (kept : List Edit) (texts : List Text) :
      weave text 0 ((kept.map Edit.unnumbered).zip texts) = weave text 0 (kept.zip texts) :=
    weave_map Edit.span_unnumbered text 0 kept texts
  have answered : answers context history kept = answers context history' kept' := by
    rw [answers_of_steady history steady, ← answers_of_steady [] steady, ← unseen, same, unseen,
      answers_of_steady [] steady', ← answers_of_steady history' steady']
  have woven (texts : List Text) :
      weave text 0 (kept.zip texts) = weave text 0 (kept'.zip texts) := by
    rw [← unseen', same, unseen']
  rw [answered, funext woven]

/-- **Edits that differ only in their numbers** come to the same outcome if there are no ties. -/
theorem render_unnumbered (text : Text) {edits others : List Edit}
    (same : (edits.map Edit.unnumbered).Perm (others.map Edit.unnumbered))
    (untied : (edits.map Edit.span).Nodup)
    (steady : ∀ edit ∈ edits, edit.replacement.Steady context)
    (steady' : ∀ edit ∈ others, edit.replacement.Steady context) (history history' : History) :
    SameOutcome (render ⟨text, edits⟩ context history).result
      (render ⟨text, others⟩ context history').result := by
  rw [render_result, render_result]
  simp only [plan]
  rcases Plan.results_of_map_eq (Plan.ofEdits_unnumbered_eq same untied) with
    ⟨kept, kept', planned, planned', sameKept⟩ | ⟨clash, clash', refused, refused', sameClash⟩
  · have known := Plan.kept_mem planned
    have known' := Plan.kept_mem planned'
    rw [planned, planned']
    simp only
    rw [woven_unnumbered sameKept (fun edit member => steady edit (known edit member))
      (fun edit member => steady' edit (known' edit member)) text history history']
    exact .of_answers _
  · rw [refused, refused']
    have first := congrArg (fun clash : Clash => clash.first.span) sameClash
    have second := congrArg (fun clash : Clash => clash.second.span) sameClash
    exact .clash first second

/-- A fault of an emission is the fault of one of its edits. -/
theorem exists_fault_of_render {history : History} {fault : RenderFault}
    (failed : (draft.render context history).result = .error (.render fault)) :
    ∃ edit ∈ draft.edits, ∃ history', edit.replacement.ask context history' = .error fault := by
  rw [render_result] at failed
  cases planned : draft.plan.result with
  | error clash =>
    rw [planned] at failed
    cases failed
  | ok kept =>
    simp only [planned] at failed
    cases answered : answers context history kept with
    | ok texts =>
      rw [answered] at failed
      cases failed
    | error other =>
      rw [answered] at failed
      cases failed
      obtain ⟨edit, member, history', asked⟩ := exists_fault_of_answers answered
      exact ⟨edit, Plan.kept_mem planned edit member, history', asked⟩

end Draft

/-! ### Registrations -/

/-- What a registration asks for. -/
structure Registration where
  start : Int
  length : Int
  replacement : Replacement

namespace Registration

/-- The range between the offset and the one that lies the signed length away. -/
def span (registration : Registration) : Span := .directed registration.start registration.length

/-- The edit that is registered under an order. -/
def edit (registration : Registration) (order : Int) : Edit :=
  ⟨registration.span, order, registration.replacement⟩

/-- The edits of registrations, numbered one after another. -/
def edits (order : Int) : List Registration → List Edit
  | [] => []
  | registration :: rest => registration.edit order :: edits (order + 1) rest

theorem map_unnumbered_edits (order : Int) (registrations : List Registration) :
    (edits order registrations).map Edit.unnumbered =
      registrations.map fun registration => registration.edit 0 := by
  induction registrations generalizing order with
  | nil => rfl
  | cons registration rest ih => exact congrArg _ (ih (order + 1))

theorem map_span_edits (order : Int) (registrations : List Registration) :
    (edits order registrations).map Edit.span = registrations.map span := by
  induction registrations generalizing order with
  | nil => rfl
  | cons registration rest ih => exact congrArg _ (ih (order + 1))

theorem length_edits (order : Int) (registrations : List Registration) :
    (edits order registrations).length = registrations.length := by
  induction registrations generalizing order with
  | nil => rfl
  | cons registration rest ih => exact congrArg (· + 1) (ih (order + 1))

theorem exists_of_mem_edits {order : Int} {registrations : List Registration} {edit : Edit}
    (member : edit ∈ edits order registrations) :
    ∃ registration ∈ registrations, ∃ given, edit = registration.edit given := by
  induction registrations generalizing order with
  | nil => exact (List.not_mem_nil member).elim
  | cons registration rest ih =>
    rcases List.mem_cons.mp member with rfl | later
    · exact ⟨registration, List.mem_cons_self, order, rfl⟩
    · obtain ⟨other, known, given, same⟩ := ih later
      exact ⟨other, List.mem_cons_of_mem _ known, given, same⟩

end Registration

namespace Session

/-- Registers one after another, up to the first that fails. -/
def registerAll (session : Session) : List Registration → Except Failure Session
  | [] => .ok session
  | registration :: rest =>
    let reply := session.register registration.start registration.length registration.replacement
    match reply.result with
    | .error failure => .error failure
    | .ok _ => reply.session.registerAll rest

/-- **Registrations in the text all succeed**, and number their edits one after another. -/
theorem registerAll_eq {session : Session} {registrations : List Registration}
    (within : ∀ registration ∈ registrations,
      registration.span.within session.draft.text.length = true) :
    session.registerAll registrations =
      .ok ⟨⟨session.draft.text,
          session.draft.edits ++ Registration.edits (session.lastOrder + 1) registrations⟩,
        session.lastOrder + registrations.length⟩ := by
  induction registrations generalizing session with
  | nil => simp [registerAll, Registration.edits]
  | cons registration rest ih =>
    have inside := within registration List.mem_cons_self
    let first := registration.edit (session.lastOrder + 1)
    let after : Session := ⟨session.draft.append first, first.order⟩
    have step : session.register registration.start registration.length registration.replacement =
        ⟨after, [.registered first], .ok first⟩ := by
      show session.registerSpan registration.span registration.replacement = _
      rw [registerSpan_eq, if_pos inside]
      rfl
    have others : after.registerAll rest =
        .ok ⟨⟨session.draft.text,
            session.draft.edits ++ [first] ++ Registration.edits (first.order + 1) rest⟩,
          first.order + rest.length⟩ :=
      ih fun other member => within other (List.mem_cons_of_mem _ member)
    have count : first.order + rest.length =
        session.lastOrder + (registration :: rest).length := by
      show session.lastOrder + 1 + (rest.length : Int) = _
      rw [List.length_cons]
      omega
    unfold registerAll
    rw [step]
    simp only [others, count, List.append_assoc]
    rfl

section Orders

variable {text : Text} {context : Context} {first second : List Registration}
  (steady : ∀ registration ∈ first, registration.replacement.Steady context)

include steady

theorem steady_of_mem_edits (order : Int) (known : ∀ registration ∈ second, registration ∈ first) :
    ∀ edit ∈ Registration.edits order second, edit.replacement.Steady context := by
  intro edit member
  obtain ⟨registration, listed, _, rfl⟩ := Registration.exists_of_mem_edits member
  exact steady registration (known registration listed)

/-- The drafts that two orders of registration lead to. -/
theorem render_edits_perm (reordered : first.Perm second)
    (untied : (first.map Registration.span).Nodup) (order order' : Int)
    (history history' : History) :
    SameOutcome (Draft.render ⟨text, Registration.edits order first⟩ context history).result
      (Draft.render ⟨text, Registration.edits order' second⟩ context history').result := by
  have steady₁ := steady_of_mem_edits steady order fun _ listed => listed
  have steady₂ := steady_of_mem_edits steady order' fun _ listed => reordered.mem_iff.mpr listed
  have same : ((Registration.edits order first).map Edit.unnumbered).Perm
      ((Registration.edits order' second).map Edit.unnumbered) := by
    rw [Registration.map_unnumbered_edits, Registration.map_unnumbered_edits]
    exact reordered.map _
  rw [← Registration.map_span_edits order] at untied
  exact Draft.render_unnumbered text same untied steady₁ steady₂ history history'

/-- A draft of replacements that all have a text fails at none of them. -/
theorem render_edits_ne_fault (order : Int) (history : History)
    (answering : ∀ registration ∈ first, ∀ fault,
      registration.replacement.ask context [] ≠ .error fault) (fault : RenderFault) :
    (Draft.render ⟨text, Registration.edits order first⟩ context history).result ≠
      .error (.render fault) := by
  intro failed
  obtain ⟨edit, member, history', asked⟩ := Draft.exists_fault_of_render failed
  obtain ⟨registration, listed, _, rfl⟩ := Registration.exists_of_mem_edits member
  refine answering registration listed fault ?_
  rw [← asked]
  exact steady registration listed _ _

end Orders

/-- **The order of registration does not matter without ties.** Take registrations in a text no two
of which have one range, so that no two insertions share an offset, with replacements whose texts
depend on the context alone. A fresh session registers them all, in whichever order, and emissions
of the two drafts come to the same text, or to clashes of the same two ranges; only a replacement
that fails can make them fail in another way, and then they fail alike. -/
theorem render_perm {text : Text} {context : Context} {first second : List Registration}
    (reordered : first.Perm second)
    (within : ∀ registration ∈ first, registration.span.within text.length = true)
    (untied : (first.map Registration.span).Nodup)
    (steady : ∀ registration ∈ first, registration.replacement.Steady context)
    (history history' : History) :
    ∃ session session' : Session,
      (ofText text).registerAll first = .ok session ∧
      (ofText text).registerAll second = .ok session' ∧
      SameOutcome (session.draft.render context history).result
        (session'.draft.render context history').result ∧
      ((∀ registration ∈ first, ∀ fault, registration.replacement.ask context [] ≠ .error fault) →
        ∀ fault, (session.draft.render context history).result ≠ .error (.render fault)) := by
  have within' : ∀ registration ∈ second, registration.span.within text.length = true :=
    fun registration listed => within registration (reordered.mem_iff.mpr listed)
  refine ⟨_, _, registerAll_eq within, registerAll_eq within', ?_, ?_⟩
  · exact render_edits_perm steady reordered untied _ _ history history'
  · exact render_edits_ne_fault steady _ history

/-- Two registrations that cross, one of them read backwards, and an insertion in front. -/
def crossingRegistrations : List Registration :=
  [⟨1, 3, .fixed "X"⟩, ⟨5, -3, .fixed "Y"⟩, ⟨0, 0, .fixed "!"⟩]

theorem render_perm_crossing :
    crossingRegistrations.Perm crossingRegistrations.reverse ∧
      (∀ registration ∈ crossingRegistrations, registration.span.within 6 = true) ∧
      (crossingRegistrations.map Registration.span).Nodup ∧
      (∀ registration ∈ crossingRegistrations, registration.replacement.Steady none) ∧
      ∃ (session session' : Session) (clash clash' : Clash),
        (ofText "abcdef").registerAll crossingRegistrations = .ok session ∧
        (ofText "abcdef").registerAll crossingRegistrations.reverse = .ok session' ∧
        (session.draft.render none []).result = .error (.overlap clash) ∧
        (session'.draft.render none []).result = .error (.overlap clash') ∧
        clash.first.span = clash'.first.span ∧ clash.second.span = clash'.second.span ∧
        clash.first.order ≠ clash'.first.order := by
  have reordered : crossingRegistrations.Perm crossingRegistrations.reverse :=
    (List.reverse_perm _).symm
  have within : ∀ registration ∈ crossingRegistrations, registration.span.within 6 = true := by
    decide
  have untied : (crossingRegistrations.map Registration.span).Nodup := by decide
  have steady : ∀ registration ∈ crossingRegistrations, registration.replacement.Steady none := by
    simp [crossingRegistrations, Replacement.Steady, Replacement.fixed]
  obtain ⟨session, session', done, done', same, -⟩ :=
    @render_perm "abcdef" none _ _ reordered within untied steady [] []
  have refused : (session.draft.render none []).result =
      .error (.overlap ⟨⟨⟨1, 4⟩, 1, .fixed "X"⟩, ⟨⟨2, 5⟩, 2, .fixed "Y"⟩⟩) := by
    cases done
    cbv
  have refused' : (session'.draft.render none []).result =
      .error (.overlap ⟨⟨⟨1, 4⟩, 3, .fixed "X"⟩, ⟨⟨2, 5⟩, 2, .fixed "Y"⟩⟩) := by
    cases done'
    cbv
  rw [refused, refused'] at same
  cases same with
  | clash first second =>
    exact ⟨reordered, within, untied, steady, session, session', _, _, done, done', refused,
      refused', first, second, by decide⟩

end Session

end Splice
