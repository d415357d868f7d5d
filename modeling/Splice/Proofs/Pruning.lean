/-
**Pruning a script by its plan.**

A plan lists the edits that take effect, one in a line, and a line begins with the number of its edit.
The edits of a script are numbered by the places of its entries, so a plan tells which entries take
effect, and the others can be left out of the script. The entries that are left keep their order but are
numbered anew; what they replace is read from the text, in which nothing has changed. So they come to
the same plan, and to the same emissions.

* `Edit.summary_startsWith_iff`: the number that a line begins with;
* `Script.listedIn`: the entries of a script whose places are in some lines;
* `Plan.ofEdits_filter_kept`: a plan of the edits whose numbers are kept;
* `Script.load_listedIn`: a script that is pruned by its plan.
-/

import Splice.Proofs.Loading
import Splice.Proofs.Omission
import Splice.Proofs.Renumbering

namespace Splice

/-! ### Numbers in lines -/

namespace Text

theorem isDigit_of_mem_digits {number : Nat} {char : Char}
    (member : CodePoint.scalar char ∈ digits 10 number) : char.isDigit = true := by
  obtain ⟨digit, inside, same⟩ := List.mem_map.mp member
  obtain rfl := CodePoint.scalar.inj same
  exact Nat.isDigit_of_mem_toDigits (by decide) (by decide) inside

theorem digits_injective {first second : Nat} (same : digits 10 first = digits 10 second) :
    first = second := by
  have chars : Nat.toDigits 10 first = Nat.toDigits 10 second :=
    List.map_injective_iff.mpr (fun _ _ => CodePoint.scalar.inj) same
  rw [← Nat.ofDigitChars_ten_toDigits (n := first), chars, Nat.ofDigitChars_ten_toDigits]

theorem colon_not_mem_decimal (number : Int) : CodePoint.scalar ':' ∉ decimal number := by
  intro member
  unfold decimal at member
  split_ifs at member
  · rcases List.mem_cons.mp member with minus | digit
    · cases minus
    · cases isDigit_of_mem_digits digit
  · cases isDigit_of_mem_digits member

/-- **A number is known by its digits.** -/
theorem decimal_injective {first second : Int} (same : decimal first = decimal second) :
    first = second := by
  unfold decimal at same
  split_ifs at same
  · have := digits_injective (List.cons.inj same).2
    omega
  · have minus : CodePoint.scalar '-' ∈ digits 10 second.natAbs := by
      rw [← same]
      exact List.mem_cons_self
    cases isDigit_of_mem_digits minus
  · have minus : CodePoint.scalar '-' ∈ digits 10 first.natAbs := by
      rw [same]
      exact List.mem_cons_self
    cases isDigit_of_mem_digits minus
  · have := digits_injective same
    omega

end Text

namespace Edit

/-- How a line of a plan begins for an edit of a number. -/
def label (number : Int) : Text := Text.concat [Text.decimal number, ": "]

/-- **A line of a plan** begins with the number of its edit, and with no other. -/
theorem summary_startsWith_iff (edit : Edit) (number : Int) :
    edit.summary.startsWith (label number) = true ↔ edit.order = number := by
  let back : Text := Text.concat [" ", Text.decimal edit.start, " ", Text.decimal edit.stop]
  have line : edit.summary = Text.decimal edit.order ++ .scalar ':' :: back := rfl
  have front (number : Int) : label number = Text.decimal number ++ [.scalar ':', .scalar ' '] := rfl
  have single : CodePoint.scalar ':' ∉ back := by
    simp [back, Text.concat, Text.ofString, Text.colon_not_mem_decimal]
  rw [Text.startsWith, List.isPrefixOf_iff_prefix, line, front]
  constructor
  · rintro ⟨rest, same⟩
    rw [List.append_assoc] at same
    -- there is but one colon in the line, so both numbers end at it
    have numbers := (List.append_cons_inj_of_notMem
      (Text.colon_not_mem_decimal edit.order) single).mp same.symm
    exact Text.decimal_injective numbers.1
  · rintro rfl
    exact ⟨back.tail, by rw [List.append_assoc]; rfl⟩

/-- The numbers of some edits. -/
theorem any_startsWith_iff {kept : List Edit} {number : Int} :
    (kept.map summary).any (·.startsWith (label number)) = true ↔ number ∈ kept.map order := by
  simp only [List.any_map, List.any_eq_true, Function.comp_apply, summary_startsWith_iff,
    List.mem_map]

end Edit

/-- The entries of a script, in their order, whose places, counted from one, are numbers that some of
the lines begin with. -/
def Script.listedIn (lines : List Text) (script : Script) : Script :=
  ((script.zipIdx 1).filter fun (_, place) => lines.any (·.startsWith (Edit.label place))).map Prod.fst

/-! ### Numbers and places -/

namespace Registration

/-- **Numbers are places.** -/
theorem edits_eq_map_zipIdx (place : Nat) (registrations : List Registration) :
    edits place registrations =
      (registrations.zipIdx place).map fun (registration, place) => registration.edit place := by
  induction registrations generalizing place with
  | nil => rfl
  | cons registration rest ih =>
    rw [List.zipIdx_cons, List.map_cons, ← ih (place + 1)]
    rfl

theorem edits_ascending (order : Int) (registrations : List Registration) :
    (∀ edit ∈ edits order registrations, order ≤ edit.order) ∧
      (edits order registrations).Pairwise fun first second => first.order < second.order := by
  induction registrations generalizing order with
  | nil => exact ⟨fun _ member => (List.not_mem_nil member).elim, List.Pairwise.nil⟩
  | cons registration rest ih =>
    obtain ⟨least, ascending⟩ := ih (order + 1)
    refine ⟨fun edit member => ?_, List.pairwise_cons.mpr ⟨fun edit later => ?_, ascending⟩⟩
    · rcases List.mem_cons.mp member with rfl | later
      · exact Int.le_refl order
      · have := least edit later
        omega
    · have := least edit later
      exact Int.lt_of_lt_of_le (Int.lt_succ order) this

theorem edits_numbered (order : Int) (registrations : List Registration) :
    Edit.Numbered (edits order registrations) :=
  (edits_ascending order registrations).2.imp Int.le_of_lt

theorem edits_orders_nodup (order : Int) (registrations : List Registration) :
    ((edits order registrations).map Edit.order).Nodup :=
  List.pairwise_map.mpr ((edits_ascending order registrations).2.imp Int.ne_of_lt)

end Registration

/-! ### Edits that are kept -/

/-- A part of a list is found again by its keys, if no two items share one. -/
theorem filter_keys_of_sublist {α β : Type} [DecidableEq β] {key : α → β} {part whole : List α}
    (inside : part.Sublist whole) (distinct : (whole.map key).Nodup) :
    whole.filter (fun item => decide (key item ∈ part.map key)) = part := by
  induction inside with
  | slnil => rfl
  | @cons part whole item inside ih =>
    obtain ⟨fresh, distinct⟩ := List.nodup_cons.mp distinct
    have absent : key item ∉ part.map key := fun member => fresh ((inside.map key).subset member)
    rw [List.filter_cons_of_neg (by simpa using absent), ih distinct]
  | @cons_cons part whole item inside ih =>
    obtain ⟨fresh, distinct⟩ := List.nodup_cons.mp distinct
    have same : ∀ other ∈ whole, decide (key other ∈ (item :: part).map key) =
        decide (key other ∈ part.map key) := by
      intro other member
      have apart : key other ≠ key item := fun same =>
        fresh (same ▸ List.mem_map_of_mem member)
      simp [apart]
    rw [List.filter_cons_of_pos (by simp), List.filter_congr same, ih distinct]

/-- **A plan of the edits whose numbers are kept** keeps them all. -/
theorem Plan.ofEdits_filter_kept {edits kept : List Edit}
    (distinct : (edits.map Edit.order).Nodup) (planned : (ofEdits edits).result = .ok kept) :
    ofEdits (edits.filter fun edit => decide (edit.order ∈ kept.map Edit.order)) = ⟨[], .ok kept⟩ := by
  obtain ⟨drops, passes⟩ := sweep_ok_iff.mp planned
  have distinct' : ((Edit.sorted edits).map Edit.order).Nodup :=
    ((List.mergeSort_perm edits _).map Edit.order).nodup_iff.mpr distinct
  rw [ofEdits, ← Edit.sorted_filter, filter_keys_of_sublist passes.kept_sublist distinct']
  exact passes.over_kept.sweep_eq

/-! ### Scripts -/

namespace Script

variable {text : Text} {script : Script} {kept : List Edit}

theorem listedIn_sublist (lines : List Text) (script : Script) :
    (script.listedIn lines).Sublist script := by
  have parts := (List.filter_sublist (p := fun entry : Entry × Nat =>
    lines.any (·.startsWith (Edit.label entry.2))) (l := script.zipIdx 1)).map Prod.fst
  rwa [List.zipIdx_map_fst] at parts

section Pruned

variable [Objects] [Limits]

/-- **A pruned script** has the edits whose numbers are kept, but for the numbers. -/
theorem map_unnumbered_listedIn (text : Text) (script : Script) (kept : List Edit) :
    ((script.listedIn (kept.map Edit.summary)).draftOver text).edits.map Edit.unnumbered =
      ((script.draftOver text).edits.filter fun edit =>
        decide (edit.order ∈ kept.map Edit.order)).map Edit.unnumbered := by
  have places : (script.draftOver text).edits = (script.zipIdx 1).map fun (entry, place) =>
      (entry.registration text).edit place := by
    unfold draftOver
    refine (Registration.edits_eq_map_zipIdx 1 _).trans ?_
    rw [List.zipIdx_map, List.map_map]
    rfl
  have chosen : ∀ entry ∈ script.zipIdx 1,
      (kept.map Edit.summary).any (·.startsWith (Edit.label entry.2)) =
        decide ((entry.2 : Int) ∈ kept.map Edit.order) := by
    intro entry _
    rw [Bool.eq_iff_iff, Edit.any_startsWith_iff, decide_eq_true_iff]
  rw [places, List.filter_map, List.map_map]
  unfold draftOver listedIn
  rw [Registration.map_unnumbered_edits, List.map_map, List.map_map, List.filter_congr chosen]
  rfl

/-- **The plan of a pruned script**, seen without numbers, is the plan of the edits kept. -/
theorem map_unnumbered_plan (planned : (script.draftOver text).plan.result = .ok kept) :
    ((script.listedIn (kept.map Edit.summary)).draftOver text).plan.map Edit.unnumbered =
      (⟨[], .ok kept⟩ : Plan).map Edit.unnumbered := by
  let chosen (edit : Edit) : Bool := decide (edit.order ∈ kept.map Edit.order)
  have numbered : Edit.Numbered ((script.draftOver text).edits.filter chosen) :=
    (Registration.edits_numbered 1 _).filter chosen
  have whole : Plan.ofEdits ((script.draftOver text).edits.filter chosen) = ⟨[], .ok kept⟩ :=
    Plan.ofEdits_filter_kept (Registration.edits_orders_nodup 1 _) planned
  calc ((script.listedIn (kept.map Edit.summary)).draftOver text).plan.map Edit.unnumbered
      = Plan.ofEdits (((script.listedIn (kept.map Edit.summary)).draftOver text).edits.map
          Edit.unnumbered) := Plan.ofEdits_map_unnumbered (Registration.edits_numbered 1 _)
    _ = Plan.ofEdits (((script.draftOver text).edits.filter chosen).map Edit.unnumbered) := by
        rw [map_unnumbered_listedIn]
    _ = (Plan.ofEdits ((script.draftOver text).edits.filter chosen)).map Edit.unnumbered :=
        (Plan.ofEdits_map_unnumbered numbered).symm
    _ = (⟨[], .ok kept⟩ : Plan).map Edit.unnumbered := by rw [whole]

/-- **Pruning a script by its plan.** Let a script be loaded over a text and have a plan, and leave in
it just the entries whose places the lines of the plan begin with. Then

* there is one entry for each line, and they stand as they stood in the script;
* the pruned script is loaded as well, and its plan drops nothing and keeps the same ranges in the same
  order;
* emissions of the pruned script are like those of the whole one: for every context, the same text or
  the same failure, and the same chunks to every outlet.

As everywhere, a value has the same attributes and an object gives the same answers whenever a template
asks for them (`Objects`), be it in this emission or in that. -/
theorem load_listedIn [Codecs] {count : Nat}
    (loaded : ((Session.ofText text).load script).result = .ok count)
    (planned : ((Session.ofText text).load script).session.draft.plan.result = .ok kept) :
    let whole := ((Session.ofText text).load script).session.draft
    let pruned := script.listedIn (kept.map Edit.summary)
    let reply := (Session.ofText text).load pruned
    pruned.length = kept.length ∧ pruned.Sublist script ∧
      reply.result = .ok pruned.length ∧
      (∃ kept', reply.session.draft.plan = ⟨[], .ok kept'⟩ ∧
        kept'.map Edit.span = kept.map Edit.span) ∧
      reply.session.draft.EmitsAlike whole := by
  intro whole pruned reply
  have within := (Session.load_ok_iff text script).mp ⟨count, loaded⟩
  have inside : pruned.Sublist script := script.listedIn_sublist _
  have within' : ∀ entry ∈ pruned, entry.span.within text.length = true :=
    fun entry member => within entry (inside.subset member)
  have wholeDraft : whole = script.draftOver text := Session.load_ofText_of_within within
  have prunedDraft : reply.session.draft = pruned.draftOver text :=
    Session.load_ofText_of_within within'
  have planned' : (script.draftOver text).plan.result = .ok kept := wholeDraft ▸ planned
  have same := map_unnumbered_plan planned'
  obtain ⟨kept', prunedPlan, sameKept⟩ := Plan.of_map_unnumbered same
  have spans : kept'.map Edit.span = kept.map Edit.span := by
    have seen := congrArg (List.map Edit.span) sameKept
    rwa [List.map_map, List.map_map] at seen
  have asMany : pruned.length = kept.length := by
    have all : kept'.length + (Plan.ofEdits (pruned.draftOver text).edits).drops.length =
        (pruned.draftOver text).edits.length := Plan.length_add (congrArg Plan.result prunedPlan)
    have noDrops : (Plan.ofEdits (pruned.draftOver text).edits).drops = [] :=
      congrArg Plan.drops prunedPlan
    rw [noDrops, length_draftOver] at all
    rw [← all, ← List.length_map Edit.span, spans, List.length_map]
    rfl
  refine ⟨asMany, inside, Session.load_result_of_within within', ⟨kept', ?_, spans⟩, ?_⟩
  · rw [prunedDraft, prunedPlan]
  · rw [wholeDraft, prunedDraft]
    exact .of_plan rfl (congrArg Plan.result prunedPlan) planned' sameKept

end Pruned

/-- Insertions at one offset, a template, and three entries that take no effect: the removal of the
range of the template, an insertion in it, and the removal of a part of it. -/
def crowdedScript : Script :=
  [⟨2, some 0, none, "X", false⟩, ⟨4, none, some 2, "<\x7boriginal\x7d>", true⟩,
    ⟨2, some 2, none, "", false⟩, ⟨3, none, none, "Y", false⟩, ⟨2, none, none, "Z", false⟩,
    ⟨3, some 1, none, "", false⟩, ⟨6, some (-1), none, "!", false⟩]

/-- The edits of the script that take effect. -/
def crowdedKept : List Edit :=
  [⟨⟨2, 2⟩, 1, .fixed "X"⟩, ⟨⟨2, 2⟩, 5, .fixed "Z"⟩,
    ⟨⟨2, 4⟩, 2, .template "<\x7boriginal\x7d>" "cd"⟩, ⟨⟨5, 6⟩, 7, .fixed "!"⟩]

theorem load_listedIn_crowded :
    crowdedKept.map Edit.summary = ["1: 2 2", "5: 2 2", "2: 2 4", "7: 5 6"] ∧
      crowdedScript.listedIn (crowdedKept.map Edit.summary) =
        [⟨2, some 0, none, "X", false⟩, ⟨4, none, some 2, "<\x7boriginal\x7d>", true⟩,
          ⟨2, none, none, "Z", false⟩, ⟨6, some (-1), none, "!", false⟩] ∧
      let draft := ((Session.ofText "abcdef").load
        (crowdedScript.listedIn (crowdedKept.map Edit.summary))).session.draft
      (∃ kept, draft.plan = ⟨[], .ok kept⟩ ∧
        kept.map Edit.span = [⟨2, 2⟩, ⟨2, 2⟩, ⟨2, 4⟩, ⟨5, 6⟩]) ∧
      ∀ context, (draft.render context []).result =
        (((Session.ofText "abcdef").load crowdedScript).session.draft.render context []).result := by
  have loaded : ((Session.ofText "abcdef").load crowdedScript).result = .ok 7 := by cbv
  have planned : ((Session.ofText "abcdef").load crowdedScript).session.draft.plan.result =
      .ok crowdedKept := by cbv
  obtain ⟨-, -, -, ⟨kept, plan, spans⟩, alike⟩ := load_listedIn loaded planned
  exact ⟨by decide +kernel, by decide +kernel, ⟨kept, plan, spans.trans (by decide)⟩,
    fun context => (alike.rendered context []).2⟩

end Script

end Splice
