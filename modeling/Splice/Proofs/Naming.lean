/-
**What templates see of a context.**

A template looks values up under the heads of its fields, those in formats included, and nowhere else; the
text that it replaces stands under its own name, whatever the context has there. So contexts that agree on
the names that the templates taking effect name lead to the same emission: it asks the same edits, gives the
same chunks to every outlet, and ends in the same way, with a text or with the same failure. What edits
that are dropped would have named does not matter.

* `Template.heads`: the names at the heads of the fields of a template;
* `Template.expandTo_congr`: values that agree on them expand a template alike;
* `Draft.Indifferent`: two contexts that make no difference to the emissions of a draft;
* `Script.Names`: the names in the templates of a script that take effect;
* `Script.load_sees_named`: the emissions of a script see nothing but these names.
-/

import Splice.Proofs.Batches
import Splice.Proofs.Restoring

namespace Splice

/-! ### Look-ups -/

theorem Record.find?_put_of_ne (record : Record) {name other : Text} (value : Value)
    (distinct : other ≠ name) : (record.put name value).find? other = record.find? other := by
  have apart : (other == name) = false := by simpa using distinct
  induction record with
  | nil => simp [put, find?, List.lookup, apart]
  | cons field rest ih =>
    obtain ⟨first, old⟩ := field
    rw [put]
    split
    · rename_i same
      simp [find?, List.lookup, same, apart]
    · unfold find? at ih ⊢
      rw [List.lookup_cons, List.lookup_cons, ih]

/-- The value that a context has under a name; no context has none. -/
def Context.value? (context : Context) (name : Text) : Option Value := (context.getD []).find? name

theorem Context.value?_put (context : Context) {name other : Text} (value : Value)
    (distinct : other ≠ name) :
    Context.value? (some ((context.getD []).put name value)) other = context.value? other :=
  Record.find?_put_of_ne _ value distinct

/-! ### Templates -/

namespace Template

/-- The name at the head of a field, and those in its format, if it holds fields. -/
def Piece.heads (inFormat : Text → List Text) : Piece → List Text
  | .literal _ => []
  | .field hole => hole.head :: if hole.nested then inFormat hole.format else []

/-- The names at the heads of the fields of a template that may hold fields to a depth, and of the fields
in their formats. Fields behind a flaw of the markup are not met. -/
def headsTo : Nat → Text → List Text
  | 0, _ => []
  | depth + 1, template => (Markup.read template).pieces.flatMap (Piece.heads (headsTo depth))

/-- The names at the heads of the fields of a template. -/
def heads (template : Text) : List Text := headsTo 2 template

theorem mem_headsTo_of_head {depth : Nat} {template : Text} {field : Field}
    (member : .field field ∈ (Markup.read template).pieces) :
    field.head ∈ headsTo (depth + 1) template :=
  List.mem_flatMap.mpr ⟨_, member, List.mem_cons_self⟩

theorem mem_headsTo_of_nested {depth : Nat} {template name : Text} {field : Field}
    (member : .field field ∈ (Markup.read template).pieces) (nested : field.nested = true)
    (named : name ∈ headsTo depth field.format) : name ∈ headsTo (depth + 1) template := by
  refine List.mem_flatMap.mpr ⟨.field field, member, List.mem_cons_of_mem _ ?_⟩
  rwa [if_pos nested]

theorem expandTo_succ [Objects] [Limits] (values : Record) (depth : Nat) (template : Text) :
    expandTo values (depth + 1) template =
      (expandPieces values (expandTo values depth) (Markup.read template).pieces >>= fun text =>
        match (Markup.read template).flaw with
        | some fault => .error fault
        | none => .ok text) := rfl

section Values

variable [Objects] {values others : Record} {expandFormat expandFormat' : Text → Except Fault Text}

theorem Field.find_congr {field : Field} (same : values.find? field.head = others.find? field.head) :
    field.find values = field.find others := by
  unfold Field.find
  rw [same]

variable [Limits]

theorem Field.expand_congr {field : Field} (same : values.find? field.head = others.find? field.head)
    (formats : field.nested = true → expandFormat field.format = expandFormat' field.format) :
    field.expand values expandFormat = field.expand others expandFormat' := by
  unfold Field.expand
  rw [find_congr same]
  cases nested : field.nested with
  | true => rw [formats nested]
  | false => rfl

theorem expandPieces_congr {pieces : List Piece}
    (fields : ∀ field, .field field ∈ pieces →
      field.expand values expandFormat = field.expand others expandFormat') :
    expandPieces values expandFormat pieces = expandPieces others expandFormat' pieces := by
  induction pieces with
  | nil => rfl
  | cons piece rest ih =>
    have later := ih fun field member => fields field (List.mem_cons_of_mem _ member)
    cases piece with
    | literal point => rw [expandPieces, expandPieces, later]
    | field field => rw [expandPieces, expandPieces, later, fields field List.mem_cons_self]

/-- **Values that agree on the names of a template** expand it alike. -/
theorem expandTo_congr {depth : Nat} {template : Text}
    (agree : ∀ name ∈ headsTo depth template, values.find? name = others.find? name) :
    expandTo values depth template = expandTo others depth template := by
  induction depth generalizing template with
  | zero => rfl
  | succ depth ih =>
    have fields : ∀ field, .field field ∈ (Markup.read template).pieces →
        field.expand values (expandTo values depth) = field.expand others (expandTo others depth) := by
      intro field member
      exact Field.expand_congr (agree _ (mem_headsTo_of_head member)) fun nested =>
        ih fun name named => agree name (mem_headsTo_of_nested member nested named)
    rw [expandTo_succ, expandTo_succ, expandPieces_congr fields]

end Values

end Template

/-- **Contexts that agree on the names of a template**, but for the name of the text that it replaces, give
it the same text or the same fault. -/
theorem Replacement.expanded_congr [Objects] [Limits] {source : Text} (replaced : Text)
    {first second : Context} (agree : ∀ name ∈ Template.heads source, name ≠ replacedName →
      first.value? name = second.value? name) :
    expanded source replaced first = expanded source replaced second := by
  have same : Template.expand source (scope replaced first) =
      Template.expand source (scope replaced second) := by
    refine Template.expandTo_congr fun name named => ?_
    unfold scope
    by_cases own : name = replacedName
    · rw [own, Record.find?_put_self, Record.find?_put_self]
    · rw [Record.find?_put_of_ne _ _ own, Record.find?_put_of_ne _ _ own]
      exact agree name named own
  unfold expanded
  rw [same]

/-! ### Emissions -/

/-- Two contexts make no difference to the emissions of a draft: the same chunks come out, and the one text
and what every outlet takes are the same, with all that is asked and reported, and any failure. -/
structure Draft.Indifferent [Codecs] (draft : Draft) (first second : Context) : Prop where
  chunks : ∀ history, draft.chunks first history = draft.chunks second history
  rendered : ∀ history, draft.render first history = draft.render second history
  delivered : ∀ encoding outlet history,
    draft.deliverTo first encoding outlet history = draft.deliverTo second encoding outlet history

theorem course_congr {first second : Context} (text : Text) (history : History) (asked : List Edit)
    {rest : List Edit}
    (same : ∀ edit ∈ rest, ∀ history,
      edit.replacement.ask first history = edit.replacement.ask second history) :
    course text first history asked rest = course text second history asked rest := by
  induction rest generalizing asked with
  | nil => rfl
  | cons edit rest ih =>
    obtain ⟨here, others⟩ := List.forall_mem_cons.mp same
    rw [course, course, here]
    split
    · rfl
    · rw [ih _ others]

/-- **A draft is indifferent to contexts** under which the edits that take effect answer alike. -/
theorem Draft.Indifferent.of_asks [Codecs] {draft : Draft} {first second : Context}
    (same : ∀ kept, draft.plan.result = .ok kept → ∀ edit ∈ kept, ∀ history,
      edit.replacement.ask first history = edit.replacement.ask second history) :
    draft.Indifferent first second := by
  cases planned : draft.plan.result with
  | error clash =>
    refine ⟨fun history => ?_, fun history => ?_, fun encoding outlet history => ?_⟩
    · unfold Draft.chunks
      simp only [planned]
    · rw [render_of_error planned, render_of_error planned]
    · rw [deliverTo_of_error planned, deliverTo_of_error planned]
  | ok kept =>
    have sameCourse (history : History) :
        draft.courseOver first history kept = draft.courseOver second history kept :=
      course_congr draft.text history [] (same kept planned)
    refine ⟨fun history => ?_, fun history => ?_, fun encoding outlet history => ?_⟩
    · unfold Draft.chunks
      simp only [planned, sameCourse]
    · rw [render_eq_course planned, render_eq_course planned, sameCourse]
    · rw [deliverTo_eq, deliverTo_eq, deliverBy_of_ok planned, deliverBy_of_ok planned, sameCourse]

/-! ### Scripts -/

namespace Script

section Scripts

variable [Objects] [Limits]

/-- A template of the script that takes effect over the text names a name. -/
def Names (script : Script) (text name : Text) : Prop :=
  ∃ kept, ((Session.ofText text).load script).session.draft.plan.result = .ok kept ∧
    ∃ edit ∈ kept, ∃ source, script.templateOf? edit = some source ∧ name ∈ Template.heads source

theorem indifferent_of_agree [Codecs] {script : Script} {text : Text} {first second : Context}
    (agree : ∀ name, script.Names text name → name ≠ Replacement.replacedName →
      first.value? name = second.value? name) :
    ((Session.ofText text).load script).session.draft.Indifferent first second := by
  refine .of_asks fun kept planned edit member history => ?_
  have registered := Plan.kept_mem planned edit member
  cases origin : script.templateOf? edit with
  | some source =>
    rw [ask_of_template registered origin, ask_of_template registered origin]
    exact Replacement.expanded_congr _ fun name named =>
      agree name ⟨kept, planned, edit, member, source, origin, named⟩
  | none =>
    obtain ⟨literal, answers⟩ := ask_of_no_template registered origin
    rw [answers, answers]

/-- **Templates see only what they name.** Let a script of fixed texts and templates be loaded over a text,
as far as its ranges lie in the text, and let two contexts, of which either may be none at all, have the
same values, or no values, under all names in the templates that take effect, other than the name of the
replaced text. Then the contexts make no difference to the emissions. In particular

* for every context, it makes no difference what is put under the name of the replaced text, or under a
  name that no template taking effect has, though others may;
* every template is expanded with the text of its own range under that name, and with the context, and with
  nothing that comes from other edits.

The values may be objects and may have attributes. What these are, and what objects answer, is the same
for the same value whenever a template asks (`Objects`). -/
theorem load_sees_named [Codecs] {script : Script} {text : Text} {first second : Context}
    (agree : ∀ name, script.Names text name → name ≠ Replacement.replacedName →
      first.value? name = second.value? name) :
    let draft := ((Session.ofText text).load script).session.draft
    draft.Indifferent first second ∧
      (∀ (context : Context) (name : Text) (value : Value),
        name = Replacement.replacedName ∨ ¬ script.Names text name →
          draft.Indifferent context (some ((context.getD []).put name value))) ∧
      ∀ edit ∈ draft.edits, ∀ source, script.templateOf? edit = some source →
        ∀ context history, edit.replacement.ask context history =
          Replacement.expanded source (text.slice edit.start edit.stop) context := by
  refine ⟨indifferent_of_agree agree, fun context name value unseen => ?_,
    fun edit member source origin => ask_of_template member origin⟩
  refine indifferent_of_agree fun other named notOwn => (Context.value?_put context value ?_).symm
  rintro rfl
  exact unseen.elim notOwn fun unnamed => unnamed named

end Scripts

/-- A template with a field in a format, a template within its range, and a template at the end of it. -/
def namingScript : Script :=
  [⟨0, some 3, none, "\x7ba:\x7bw\x7d\x7d<\x7boriginal\x7d>", true⟩, ⟨1, some 1, none, "\x7bx\x7d", true⟩,
    ⟨3, none, none, "\x7ba\x7d", true⟩, ⟨6, some (-1), none, "\x7bx\x7d", false⟩]

/-- A context with a text under the name of the replaced text. -/
def namingContext : Context :=
  some [("a", .text "A"), ("w", .text ">3"), ("original", .text "stray")]

/-- A context with the same values in another order, and a value for the template that is dropped. -/
def otherContext : Context := some [("x", .nothing), ("w", .text ">3"), ("a", .text "A")]

/-- The edits of the script that take effect. -/
def namingKept : List Edit :=
  [⟨⟨0, 3⟩, 1, .template "\x7ba:\x7bw\x7d\x7d<\x7boriginal\x7d>" "abc"⟩,
    ⟨⟨3, 3⟩, 3, .template "\x7ba\x7d" ""⟩, ⟨⟨5, 6⟩, 4, .fixed "\x7bx\x7d"⟩]

theorem load_sees_named_nested :
    (∀ name, namingScript.Names "abcdef" name → name ≠ Replacement.replacedName →
      namingContext.value? name = otherContext.value? name) ∧
      let draft := ((Session.ofText "abcdef").load namingScript).session.draft
      draft.plan.result = .ok namingKept ∧
        (draft.render namingContext []).result.toOption = some (Text.ofString "  A<abc>Ade\x7bx\x7d") ∧
        (draft.render otherContext []).result.toOption = some (Text.ofString "  A<abc>Ade\x7bx\x7d") ∧
        draft.chunks namingContext [] = draft.chunks otherContext [] := by
  have planned : ((Session.ofText "abcdef").load namingScript).session.draft.plan.result =
      .ok namingKept := by cbv
  have named : ∀ edit ∈ namingKept, ∀ source ∈ namingScript.templateOf? edit,
      ∀ name ∈ Template.heads source, name ∈ (["a", "w", "original"] : List Text) := by
    decide +kernel
  have agree : ∀ name, namingScript.Names "abcdef" name → name ≠ Replacement.replacedName →
      namingContext.value? name = otherContext.value? name := by
    rintro name ⟨kept, planned', edit, member, source, origin, inside⟩ notOwn
    obtain rfl := Except.ok.inj (planned.symm.trans planned')
    have known := named edit member source origin name inside
    simp only [List.mem_cons, List.not_mem_nil, or_false] at known
    rcases known with rfl | rfl | rfl
    · rfl
    · rfl
    · exact (notOwn rfl).elim
  have rendered : (((Session.ofText "abcdef").load namingScript).session.draft.render
      namingContext []).result.toOption = some (Text.ofString "  A<abc>Ade\x7bx\x7d") := by
    rw [Draft.render_eq_course planned]
    decide +kernel
  obtain ⟨indifferent, -, -⟩ := load_sees_named agree
  refine ⟨agree, planned, rendered, ?_, indifferent.chunks []⟩
  rw [← indifferent.rendered []]
  exact rendered

end Script

end Splice
