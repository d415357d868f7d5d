/-
**Edits that restore the text.**

The template that names nothing but the text it replaces gives just that text: the name is looked up
among the values of the context with the replaced text put in, and there it counts whatever the context
has under the same name. So an edit with this template puts a part of the text back where it is, and an
emission of such edits puts the text together again from the parts replaced and the parts between them.

* `Template.expand_restoring`: the template of one field that names the replaced text;
* `Edit.Restores`, `weave_slices`: edits that restore their ranges, and their texts woven in;
* `Draft.render_restores`: an emission of edits that restore their ranges;
* `Script.load_restores`: a script of such templates, on every way of emission.
-/

import Splice.Proofs.Encoded
import Splice.Proofs.Loading

namespace Splice

/-! ### The template -/

theorem Record.find?_put_self (record : Record) (name : Text) (value : Value) :
    (record.put name value).find? name = some value := by
  induction record with
  | nil => simp [put, find?]
  | cons field rest ih =>
    obtain ⟨other, old⟩ := field
    rw [put]
    split
    · simp [find?]
    · rename_i distinct
      have apart : (name == other) = false := by simpa using Ne.symm distinct
      simpa [find?, List.lookup, apart] using ih

/-- The template that names the text it replaces, and nothing else. -/
def Replacement.restoring : Text := "\x7boriginal\x7d"

namespace Template

theorem read_restoring : Markup.read Replacement.restoring =
    ⟨[.field ⟨Replacement.replacedName, none, [], false⟩], none⟩ := by
  decide +kernel

/-- The name of the replaced text is a head that is no number, with no path behind it. -/
theorem find_replacedName [Objects] {values : Record} {value : Value}
    (found : values.find? Replacement.replacedName = some value) :
    Field.find ⟨Replacement.replacedName, none, [], false⟩ values = .ok value := by
  have head : Field.head ⟨Replacement.replacedName, none, [], false⟩ = Replacement.replacedName := by
    decide +kernel
  have tail : Path.read (Field.tail ⟨Replacement.replacedName, none, [], false⟩) = ⟨[], none⟩ := by
    decide +kernel
  have noNumber : index? Replacement.replacedName = .ok none := by
    decide +kernel
  have named : Replacement.replacedName.isEmpty = false := rfl
  unfold Field.find
  rw [head, tail, noNumber]
  simp [named, found, Path.follow]
  rfl

/-- **The template of the replaced text** gives the text under its name. -/
theorem expand_restoring [Objects] [Limits] {values : Record} {text : Text}
    (found : values.find? Replacement.replacedName = some (.text text)) :
    expand Replacement.restoring values = .ok text := by
  have field : Field.expand ⟨Replacement.replacedName, none, [], false⟩ values (expandTo values 1) =
      .ok text := by
    unfold Field.expand
    rw [find_replacedName found]
    rfl
  unfold expand expandTo
  simp only [read_restoring, expandPieces, field, bind, Except.bind, pure, Except.pure,
    List.append_nil]

end Template

/-- Whatever the context holds, the template gives the text that it replaces. -/
theorem Replacement.expanded_restoring [Objects] [Limits] (replaced : Text) (context : Context) :
    expanded restoring replaced context = .ok replaced := by
  unfold expanded scope
  rw [Template.expand_restoring (Record.find?_put_self _ _ _)]

/-! ### Edits that restore their ranges -/

/-- The edit always has the text that it replaces. -/
def Edit.Restores (text : Text) (edit : Edit) : Prop :=
  ∀ context history,
    edit.replacement.ask context history = .ok (text.slice edit.start edit.stop)

theorem answers_of_restores {text : Text} {context : Context} {edits : List Edit} (history : History)
    (restores : ∀ edit ∈ edits, edit.Restores text) :
    answers context history edits = .ok (edits.map fun edit => text.slice edit.start edit.stop) := by
  induction edits generalizing history with
  | nil => rfl
  | cons edit rest ih =>
    obtain ⟨here, others⟩ := List.forall_mem_cons.mp restores
    rw [answers, here context history]
    simp only [ih _ others]
    rfl

/-- **Parts of a text woven in at their places** give the text again. -/
theorem weave_slices {text : Text} {offset : Int} {edits : List Edit}
    (laid : Laid text.length offset edits) (nonneg : 0 ≤ offset) :
    weave text offset (edits.zip (edits.map fun edit => text.slice edit.start edit.stop)) =
      text.slice offset text.length := by
  induction edits generalizing offset with
  | nil => exact Text.between_eq_slice nonneg laid (Int.le_refl _)
  | cons edit rest ih =>
    obtain ⟨front, upright, others⟩ := laid
    have inside := others.le_size
    rw [List.map_cons, List.zip_cons_cons, weave, ih others (by omega),
      Text.between_eq_slice nonneg front (by omega),
      Text.slice_append_slice (by omega) upright inside (Int.le_refl _),
      Text.slice_append_slice nonneg front (by omega) (Int.le_refl _)]

/-- **An emission of edits that restore their ranges** restores the text. -/
theorem Draft.render_restores {draft : Draft} {kept : List Edit}
    (within : ∀ edit ∈ draft.edits, edit.span.within draft.text.length = true)
    (restores : ∀ edit ∈ draft.edits, edit.Restores draft.text)
    (planned : draft.plan.result = .ok kept) (context : Context) (history : History) :
    (draft.render context history).result = .ok draft.text := by
  have laid : Laid draft.text.length 0 kept :=
    Plan.laid_of_ok planned (Int.natCast_nonneg _) fun edit member =>
      (Edit.within_iff edit _).mp (within edit member)
  have answered := @answers_of_restores draft.text context kept history
    fun edit member => restores edit (Plan.kept_mem planned edit member)
  rw [render_result, planned]
  simp only [answered, Except.map, Except.mapError, weave_slices laid (Int.le_refl 0)]
  rw [Text.slice_length (Int.le_refl 0) (Int.natCast_nonneg _)]
  rfl

/-! ### Scripts that restore the text -/

/-- The entry is the template of the text that it replaces. -/
def Entry.Restores (entry : Entry) : Prop :=
  entry.isTemplate = true ∧ entry.text = Replacement.restoring

theorem Script.restores_draftOver [Objects] [Limits] {script : Script} {text : Text}
    (restores : ∀ entry ∈ script, entry.Restores) :
    ∀ edit ∈ (script.draftOver text).edits, edit.Restores text := by
  intro edit member context history
  obtain ⟨registration, listed, order, rfl⟩ := Registration.exists_of_mem_edits member
  obtain ⟨entry, known, rfl⟩ := List.mem_map.mp listed
  obtain ⟨isTemplate, source⟩ := restores entry known
  unfold Registration.edit Entry.registration
  simp only [isTemplate, if_true, source]
  exact Replacement.expanded_restoring _ context

/-- **Entries that restore what they replace** restore the text. Let all entries of a script be such
templates, with ranges of any length and direction in the text, nested or not. The script is loaded; and
if its edits have a plan, then for every context, whatever it has under the name of the replaced text,

* the one text is the text itself;
* the chunks make up the text, and none is empty; an outlet that refuses nothing takes them one after
  another, as they are or in an encoding that covers the text, and their number is reported. -/
theorem Script.load_restores [Objects] [Limits] [Codecs] {text : Text} {script : Script}
    {kept : List Edit}
    (restores : ∀ entry ∈ script, entry.Restores)
    (within : ∀ entry ∈ script, entry.span.within text.length = true)
    (planned : ((Session.ofText text).load script).session.draft.plan.result = .ok kept) :
    let draft := ((Session.ofText text).load script).session.draft
    ((Session.ofText text).load script).result = .ok script.length ∧
      ∀ (context : Context) (history : History),
        (draft.render context history).result = .ok text ∧
        ∃ chunks : List Text, chunks.flatten = text ∧ [] ∉ chunks ∧
          ∀ outlet : Outlet, outlet.Accepting →
            let plain := draft.deliverTo context none outlet history
            plain.marks = (chunks.map Chunk.text).flatMap outlet.marksOf ∧
              plain.result = .ok chunks.length ∧
              ∀ (name : Text) (charset : Charset), Charset.named name = .ok (.charset charset) →
                charset.Covers text →
                let encoded := draft.deliverTo context (some name) outlet history
                encoded.marks = (chunks.map charset.chunk).flatMap outlet.marksOf ∧
                  encoded.result = .ok chunks.length := by
  intro draft
  have same : draft = script.draftOver text := Session.load_ofText_of_within within
  have within' : ∀ edit ∈ draft.edits, edit.span.within draft.text.length = true := by
    rw [same]
    exact Script.within_draftOver within
  refine ⟨Session.load_result_of_within within, fun context history => ?_⟩
  have rendered : (draft.render context history).result = .ok text := by
    change draft.plan.result = .ok kept at planned
    rw [same] at planned within' ⊢
    exact Draft.render_restores within' (Script.restores_draftOver restores) planned context history
  have whole : (draft.chunks context history).flatten = text :=
    (Draft.render_eq_chunks draft context history text rendered).symm
  refine ⟨rendered, draft.chunks context history, whole, Draft.chunks_ne_nil within',
    fun outlet accepting => ?_⟩
  have plain := Draft.deliverTo_eq_render accepting draft context history
  rw [rendered] at plain
  refine ⟨congrArg Delivery.marks plain, congrArg Delivery.result plain,
    fun name charset found covered => ?_⟩
  rw [← whole] at covered
  have encoded := Draft.deliverTo_of_covers accepting found (Charset.covers_flatten.mp covered)
  rw [rendered] at encoded
  exact ⟨congrArg Delivery.marks encoded, congrArg Delivery.result encoded⟩

/-- Templates located by length, by end, by both and by neither, read in both directions, one within
another, and at the end of the text. -/
def restoringScript : Script :=
  [⟨5, some (-4), none, Replacement.restoring, true⟩, ⟨2, none, some 4, Replacement.restoring, true⟩,
    ⟨6, some 0, some 6, Replacement.restoring, true⟩, ⟨0, none, none, Replacement.restoring, true⟩]

/-- A context that has a text of its own under the name of the replaced text. -/
def rivalContext : Context := some [("a", .whole 1), ("original", .text "stray")]

/-- The edits of the script that take effect. -/
def restoringKept : List Edit :=
  [⟨⟨0, 0⟩, 4, .template Replacement.restoring ""⟩, ⟨⟨1, 5⟩, 1, .template Replacement.restoring "bcde"⟩,
    ⟨⟨6, 6⟩, 3, .template Replacement.restoring ""⟩]

theorem Script.load_restores_rival :
    (∀ entry ∈ restoringScript, entry.Restores) ∧
      (∀ entry ∈ restoringScript, entry.span.within 6 = true) ∧
      let draft := ((Session.ofText "abcdef").load restoringScript).session.draft
      draft.plan.result = .ok restoringKept ∧
      (draft.render rivalContext []).result = .ok "abcdef" ∧
      ∃ chunks : List Text, chunks.flatten = "abcdef" ∧
        (draft.deliver rivalContext (some "utf-8") .accepting []).marks =
          chunks.map fun chunk => .wrote (Charset.utf8.chunk chunk) := by
  have restores : ∀ entry ∈ restoringScript, entry.Restores := by
    unfold Entry.Restores
    decide +kernel
  have within : ∀ entry ∈ restoringScript, entry.span.within 6 = true := by decide +kernel
  have planned : ((Session.ofText "abcdef").load restoringScript).session.draft.plan.result =
      .ok restoringKept := by cbv
  have accepting : (Outlet.blocking .accepting).Accepting :=
    ⟨fun _ => rfl, fun refuses drains => by cases drains⟩
  obtain ⟨-, restored⟩ := @load_restores _ _ _ "abcdef" _ _ restores within planned
  obtain ⟨rendered, chunks, whole, -, taken⟩ := restored rivalContext []
  obtain ⟨-, -, encoded⟩ := taken (.blocking .accepting) accepting
  obtain ⟨marks, -⟩ := encoded "utf-8" .utf8 rfl (by decide)
  rw [Outlet.flatMap_marksOf, List.map_map] at marks
  exact ⟨restores, within, planned, rendered, chunks, whole, marks⟩

end Splice
