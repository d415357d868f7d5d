/-
**What expanding a template can fail with.**

Whatever is wrong with a template is reported as a fault of it: a flaw of its markup, a name that nothing
has, a path that leads nowhere, a format that does not suit its value. Only one thing is not: a field that
does not fit, because an object refuses what the path asks it for, the value cannot be converted to a text,
or it does not fit the format. Fields may stand anywhere, in formats as well, so that an expansion is followed
to the place where it fails.

* `Template.Field.Unfit`: a field does not fit;
* `Template.Reaches`: an expansion comes to a field;
* `Template.expandTo_unfit_iff`: expansions fail without a report just where they come to a field that does
  not fit;
* `Replacement.Answer`, `Replacement.expanded_answer`: what a template can answer;
* `Draft.render_failed`, `Draft.deliverTo_failed`: a replacement that fails is the failure of an emission;
* `Script.load_template_answers`: the templates of a script, on all ways out.
-/

import Splice.Proofs.Layouts
import Splice.Proofs.Naming

namespace Splice

namespace Template

/-! ### Markup and look-ups -/

/-- The flaw, if there is one, is reported. -/
def ReportedFlaw (flaw : Option Fault) : Prop := ∀ fault ∈ flaw, Reported fault

theorem reportedFlaw_none : ReportedFlaw none := nofun

theorem reportedFlaw_some {fault : Fault} (reported : Reported fault) : ReportedFlaw (some fault) := by
  rintro _ ⟨⟩
  exact reported

theorem Markup.reported_readFrom (place : Place) (source : Text) :
    ReportedFlaw (readFrom place source).flaw := by
  -- A place is the end, a flaw, or followed by what is read from the next place on.
  fun_induction readFrom place source <;>
    first | assumption | exact reportedFlaw_none | exact reportedFlaw_some rfl

theorem raises_index? (name : Text) : Raises Reported (index? name) := by
  unfold index?
  dsimp only
  split
  · exact raises_error rfl
  · split
    · exact raises_ok _
    · exact raises_ok _

theorem Path.reported_consItem (name : Text) {path : Path} (reported : ReportedFlaw path.flaw) :
    ReportedFlaw (consItem name path).flaw := by
  unfold consItem
  split
  · rename_i fault number
    exact reportedFlaw_some (raises_index? name fault number)
  · exact reported
  · split
    · exact reportedFlaw_some rfl
    · exact reported

theorem Path.reported_consAttribute (name : Text) {path : Path} (reported : ReportedFlaw path.flaw) :
    ReportedFlaw (consAttribute name path).flaw := by
  unfold consAttribute
  split
  · exact reportedFlaw_some rfl
  · exact reported

theorem Path.reported_readFrom (place : PathPlace) (source : Text) :
    ReportedFlaw (readFrom place source).flaw := by
  fun_induction readFrom place source <;>
    first
    | assumption
    | exact reportedFlaw_none
    | exact reportedFlaw_some rfl
    | exact reported_consAttribute _ ‹_›
    | exact reported_consAttribute _ reportedFlaw_none
    | exact reported_consItem _ ‹_›

section Refusals

variable [Objects]

/-- **A step is refused**, for a reason that is not reported: by an attribute of a value, or by an object that
is asked for a part. -/
inductive Step.Refused : Step → Value → Fault → Prop
  | attribute {name : Text} {value : Value} {fault : Fault}
      (refuses : Objects.attributeOf value name = .error fault) (unreported : ¬ Reported fault) :
      Refused (.attribute name) value fault
  | position {index key : Nat} {fault : Fault}
      (refuses : Objects.part key (.whole index) = .error fault) (unreported : ¬ Reported fault) :
      Refused (.position index) (.object key) fault
  | item {name : Text} {key : Nat} {fault : Fault}
      (refuses : Objects.part key (.text name) = .error fault) (unreported : ¬ Reported fault) :
      Refused (.item name) (.object key) fault

theorem Step.refused_iff {step : Step} {value : Value} {fault : Fault} :
    step.apply value = .error fault ∧ ¬ Reported fault ↔ step.Refused value fault := by
  constructor
  · rintro ⟨fails, unreported⟩
    unfold apply at fails
    split at fails
    · exact .attribute fails unreported
    · exact .position fails unreported
    · exact .item fails unreported
    -- parts of other values are there, or what is missing is reported
    all_goals first | (split at fails <;> cases fails) | cases fails
    all_goals exact absurd rfl unreported
  · rintro (⟨refuses, unreported⟩ | ⟨refuses, unreported⟩ | ⟨refuses, unreported⟩) <;>
      exact ⟨refuses, unreported⟩

/-- The part of a value behind steps. -/
def partBehind (steps : List Step) (value : Value) : Except Fault Value :=
  steps.foldlM (fun value step => step.apply value) value

/-- **Following a path is refused** at one of its steps, behind others that lead somewhere. -/
def Path.Refused (path : Path) (value : Value) (fault : Fault) : Prop :=
  ∃ before step after part, path.steps = before ++ step :: after ∧
    partBehind before value = .ok part ∧ step.Refused part fault

theorem partBehind_cons (step : Step) (rest : List Step) (value : Value) :
    partBehind (step :: rest) value = (step.apply value >>= partBehind rest) := List.foldlM_cons ..

/-- **Steps fail** at the first of them that fails. -/
theorem partBehind_error_iff {steps : List Step} {value : Value} {fault : Fault} :
    partBehind steps value = .error fault ↔
      ∃ before step after part, steps = before ++ step :: after ∧
        partBehind before value = .ok part ∧ step.apply part = .error fault := by
  induction steps generalizing value with
  | nil => exact ⟨nofun, fun ⟨before, _, _, _, parts, _⟩ => by cases before <;> cases parts⟩
  | cons step rest ih =>
    rw [partBehind_cons, bind_error_iff]
    constructor
    · rintro (fails | ⟨part, leads, later⟩)
      · exact ⟨[], step, rest, value, rfl, rfl, fails⟩
      · obtain ⟨before, next, after, other, rfl, front, fails⟩ := ih.mp later
        refine ⟨step :: before, next, after, other, rfl, ?_, fails⟩
        rw [partBehind_cons, leads]
        exact front
    · rintro ⟨before, next, after, other, parts, front, fails⟩
      cases before with
      | nil =>
        obtain ⟨rfl, rfl⟩ := List.cons.inj parts
        cases front
        exact .inl fails
      | cons head before =>
        obtain ⟨rfl, rfl⟩ := List.cons.inj parts
        rw [partBehind_cons] at front
        obtain ⟨part, leads, front⟩ := bind_ok_iff.mp front
        exact .inr ⟨part, leads, ih.mpr ⟨before, next, after, other, rfl, front, fails⟩⟩

theorem Path.refused_iff {path : Path} (reported : ReportedFlaw path.flaw) {value : Value} {fault : Fault} :
    path.follow value = .error fault ∧ ¬ Reported fault ↔ path.Refused value fault := by
  show (partBehind path.steps value >>= _) = .error fault ∧ _ ↔ _
  constructor
  · rintro ⟨fails, unreported⟩
    rcases bind_error_iff.mp fails with fails | ⟨found, leads, fails⟩
    · obtain ⟨before, step, after, part, parts, front, fails⟩ := partBehind_error_iff.mp fails
      exact ⟨before, step, after, part, parts, front, Step.refused_iff.mp ⟨fails, unreported⟩⟩
    · split at fails
      · rename_i other flaw
        cases fails
        exact absurd (reported fault flaw) unreported
      · cases fails
  · rintro ⟨before, step, after, part, parts, front, refused⟩
    obtain ⟨fails, unreported⟩ := Step.refused_iff.mpr refused
    refine ⟨bind_error_iff.mpr (.inl ?_), unreported⟩
    exact partBehind_error_iff.mpr ⟨before, step, after, part, parts, front, fails⟩

/-- **A field is refused**: its head is a name that has a value, and following its path is refused. -/
def Field.Refused (field : Field) (values : Record) (fault : Fault) : Prop :=
  index? field.head = .ok none ∧ field.head ≠ [] ∧
    ∃ value, values.find? field.head = some value ∧ (Path.read field.tail).Refused value fault

theorem Field.raises_find (field : Field) (values : Record) :
    Raises (fun fault => Reported fault ∨ field.Refused values fault) (field.find values) := by
  unfold find
  refine ((raises_index? _).imp fun _ => .inl).bind fun index named => ?_
  refine raises_guard (.inl rfl) fun proper => ?_
  obtain ⟨more, plain⟩ := not_or.mp proper
  split
  · exact raises_error (.inl rfl)
  · rename_i value found
    intro fault fails
    by_cases reported : Reported fault
    · exact .inl reported
    · obtain rfl : index = none := Option.not_isSome_iff_eq_none.mp plain
      refine .inr ⟨named, fun empty => more (List.isEmpty_iff.mpr empty), value, found, ?_⟩
      exact (Path.refused_iff (Path.reported_readFrom _ _)).mp ⟨fails, reported⟩

theorem Field.refused_iff {field : Field} {values : Record} {fault : Fault} :
    field.find values = .error fault ∧ ¬ Reported fault ↔ field.Refused values fault := by
  constructor
  · rintro ⟨fails, unreported⟩
    exact (field.raises_find values fault fails).resolve_left unreported
  · rintro ⟨named, more, value, found, refused⟩
    obtain ⟨fails, unreported⟩ := (Path.refused_iff (Path.reported_readFrom _ _)).mpr refused
    have proper : ¬ (field.head.isEmpty = true ∨ (none : Option Nat).isSome = true) := by
      rintro (empty | ⟨⟨⟩⟩)
      exact more (List.isEmpty_iff.mp empty)
    refine ⟨bind_error_iff.mpr (.inr ⟨none, named, ?_⟩), unreported⟩
    rw [if_neg proper, found]
    exact fails

/-! ### Conversions -/

section Conversions

variable [Limits]

/-- **A value cannot be converted** by a letter, for a reason that is not reported: it has no text, or it
cannot be displayed. -/
inductive Inconvertible : Option CodePoint → Value → Fault → Prop
  | text {value : Value} {fault : Fault} (untold : value.Untold fault) :
      Inconvertible (some (.scalar 's')) value fault
  | display {letter : CodePoint} {value : Value} {fault : Fault}
      (displays : letter ∈ ['r', 'a'].map CodePoint.scalar)
      (undisplayed : value.Undisplayed Limits.levels fault) : Inconvertible (some letter) value fault

theorem inconvertible_iff {letter : Option CodePoint} {value : Value} {fault : Fault} :
    convert letter value = .error fault ∧ ¬ Reported fault ↔ Inconvertible letter value fault := by
  constructor
  · rintro ⟨fails, unreported⟩
    unfold convert at fails
    split at fails
    · cases fails
    · cases fails
    · exact .display (by decide)
        (Value.shown_undisplayed_iff.mp ⟨map_eq_error_iff.mp fails, unreported⟩)
    · exact .text (Value.asText_untold_iff.mp ⟨map_eq_error_iff.mp fails, unreported⟩)
    · exact .display (by decide)
        (Value.shown_undisplayed_iff.mp ⟨map_eq_error_iff.mp fails, unreported⟩)
    · cases fails
      exact absurd rfl unreported
  · rintro (⟨untold⟩ | ⟨displays, undisplayed⟩)
    · obtain ⟨fails, unreported⟩ := Value.asText_untold_iff.mpr untold
      exact ⟨map_eq_error_iff.mpr fails, unreported⟩
    · obtain ⟨fails, unreported⟩ := Value.shown_undisplayed_iff.mpr undisplayed
      refine ⟨?_, unreported⟩
      simp only [List.map_cons, List.map_nil, List.mem_cons, List.not_mem_nil, or_false] at displays
      rcases displays with rfl | rfl
      · exact map_eq_error_iff.mpr fails
      · exact map_eq_error_iff.mpr fails

/-! ### Fields -/

/-- The value that a field names, converted. -/
def Field.value (field : Field) (values : Record) : Except Fault Value :=
  field.find values >>= convert field.conversion

/-- The written format of a field, given how to expand a format. -/
def Field.spelling (field : Field) (expandFormat : Text → Except Fault Text) : Except Fault Text :=
  if field.nested then expandFormat field.format else .ok field.format

/-- **A field does not fit**: its path is refused, its value cannot be converted, or the value does not fit
the format. -/
inductive Field.Unfit (field : Field) (values : Record) (expandFormat : Text → Except Fault Text) :
    Fault → Prop
  | path {fault : Fault} (refused : field.Refused values fault) : Unfit field values expandFormat fault
  | conversion {value : Value} {fault : Fault} (found : field.find values = .ok value)
      (inconvertible : Inconvertible field.conversion value fault) : Unfit field values expandFormat fault
  | layout {value : Value} {written : Text} {fault : Fault} (found : field.value values = .ok value)
      (spelled : field.spelling expandFormat = .ok written) (misfit : Misfit value written fault) :
      Unfit field values expandFormat fault

/-- A field looks up, spells, and lays out. -/
theorem Field.expand_eq (field : Field) (values : Record) (expandFormat : Text → Except Fault Text) :
    field.expand values expandFormat =
      (field.value values >>= fun value => field.spelling expandFormat >>= formatted value) := by
  unfold Field.expand Field.value Field.spelling
  rw [bind_assoc]
  split
  · rfl
  · rfl

section

variable {field : Field} {values : Record} {expandFormat : Text → Except Fault Text} {fault : Fault}

theorem Field.Unfit.not_reported (unfit : field.Unfit values expandFormat fault) : ¬ Reported fault := by
  cases unfit with
  | path refused => exact (refused_iff.mpr refused).2
  | conversion found inconvertible => exact (inconvertible_iff.mpr inconvertible).2
  | layout found spelled misfit => exact misfit.not_reported

theorem Field.Unfit.expand_eq (unfit : field.Unfit values expandFormat fault) :
    field.expand values expandFormat = .error fault := by
  rw [Field.expand_eq]
  cases unfit with
  | path refused =>
    exact bind_error_iff.mpr (.inl (bind_error_iff.mpr (.inl (refused_iff.mpr refused).1)))
  | conversion found inconvertible =>
    refine bind_error_iff.mpr (.inl (bind_error_iff.mpr (.inr ⟨_, found, ?_⟩)))
    exact (inconvertible_iff.mpr inconvertible).1
  | layout found spelled misfit =>
    exact bind_error_iff.mpr (.inr ⟨_, found, bind_error_iff.mpr (.inr ⟨_, spelled, misfit.formatted_eq⟩)⟩)

/-- A field fails without a report if it does not fit, or if its format fails so. -/
theorem Field.unfit_of_fails (fails : field.expand values expandFormat = .error fault)
    (unreported : ¬ Reported fault) :
    field.Unfit values expandFormat fault ∨
      field.nested = true ∧ (∃ value, field.value values = .ok value) ∧
        expandFormat field.format = .error fault := by
  rw [Field.expand_eq] at fails
  rcases bind_error_iff.mp fails with missing | ⟨value, found, fails⟩
  · rcases bind_error_iff.mp missing with missing | ⟨value, found, fails⟩
    · exact .inl (.path (refused_iff.mp ⟨missing, unreported⟩))
    · exact .inl (.conversion found (inconvertible_iff.mp ⟨fails, unreported⟩))
  rcases bind_error_iff.mp fails with unspelled | ⟨written, spelled, fails⟩
  · unfold spelling at unspelled
    split at unspelled
    · rename_i nested
      exact .inr ⟨nested, ⟨value, found⟩, unspelled⟩
    · cases unspelled
  · exact .inl (.layout found spelled (formatted_misfit_iff.mp ⟨fails, unreported⟩))

end

/-! ### Where expansions fail -/

/-- The text of one piece, given how to expand a format. -/
def Piece.expand (values : Record) (expandFormat : Text → Except Fault Text) :
    Piece → Except Fault Text
  | .literal point => .ok [point]
  | .field hole => hole.expand values expandFormat

section Pieces

variable {values : Record} {expandFormat : Text → Except Fault Text} {fault : Fault}

theorem expandPieces_cons (piece : Piece) (rest : List Piece) :
    expandPieces values expandFormat (piece :: rest) =
      (piece.expand values expandFormat >>= fun text =>
        expandPieces values expandFormat rest >>= fun others => .ok (text ++ others)) := by
  cases piece with
  | literal point =>
    rw [expandPieces]
    cases expandPieces values expandFormat rest <;> rfl
  | field hole => rfl

/-- **Pieces fail** at the first of them that fails. -/
theorem expandPieces_error_iff {pieces : List Piece} :
    expandPieces values expandFormat pieces = .error fault ↔
      ∃ before piece after text, pieces = before ++ piece :: after ∧
        expandPieces values expandFormat before = .ok text ∧
        piece.expand values expandFormat = .error fault := by
  induction pieces with
  | nil => exact ⟨nofun, fun ⟨before, _, _, _, parts, _⟩ => by cases before <;> cases parts⟩
  | cons piece rest ih =>
    rw [expandPieces_cons, bind_error_iff]
    constructor
    · rintro (fails | ⟨text, expanded, later⟩)
      · exact ⟨[], piece, rest, [], rfl, rfl, fails⟩
      · rcases bind_error_iff.mp later with later | ⟨_, _, ⟨⟩⟩
        obtain ⟨before, next, after, others, rfl, front, fails⟩ := ih.mp later
        refine ⟨piece :: before, next, after, text ++ others, rfl, ?_, fails⟩
        rw [expandPieces_cons, expanded, front]
        rfl
    · rintro ⟨before, next, after, text, parts, expanded, fails⟩
      cases before with
      | nil =>
        obtain ⟨rfl, rfl⟩ := List.cons.inj parts
        exact .inl fails
      | cons head before =>
        obtain ⟨rfl, rfl⟩ := List.cons.inj parts
        rw [expandPieces_cons] at expanded
        obtain ⟨first, here, behind⟩ := bind_ok_iff.mp expanded
        obtain ⟨others, front, -⟩ := bind_ok_iff.mp behind
        have later := ih.mpr ⟨before, next, after, others, rfl, front, fails⟩
        exact .inr ⟨first, here, bind_error_iff.mpr (.inl later)⟩

end Pieces

/-- **Expanding a template comes to a field**, one behind pieces that have a text, or one that the format of
such a field comes to. Formats of the field may hold fields to the depth given with it. -/
inductive Reaches (values : Record) : Nat → Text → Nat → Field → Prop
  | here {depth : Nat} {template text : Text} {before after : List Piece} {field : Field}
      (pieces : (Markup.read template).pieces = before ++ .field field :: after)
      (expanded : expandPieces values (expandTo values depth) before = .ok text) :
      Reaches values (depth + 1) template depth field
  | format {depth inner : Nat} {template text : Text} {before after : List Piece} {field other : Field}
      {value : Value} (pieces : (Markup.read template).pieces = before ++ .field field :: after)
      (expanded : expandPieces values (expandTo values depth) before = .ok text)
      (found : field.value values = .ok value) (nested : field.nested = true)
      (within : Reaches values depth field.format inner other) :
      Reaches values (depth + 1) template inner other

section Expansion

variable {values : Record} {fault : Fault} {depth : Nat} {template : Text}

/-- A template fails with the first field that fails. -/
theorem expandTo_of_field {text : Text} {before after : List Piece} {field : Field}
    (pieces : (Markup.read template).pieces = before ++ .field field :: after)
    (expanded : expandPieces values (expandTo values depth) before = .ok text)
    (fails : field.expand values (expandTo values depth) = .error fault) :
    expandTo values (depth + 1) template = .error fault := by
  rw [expandTo_succ]
  have stopped := expandPieces_error_iff.mpr ⟨before, _, after, text, pieces, expanded, fails⟩
  exact bind_error_iff.mpr (.inl stopped)

theorem Reaches.unfit_fails {inner : Nat} {field : Field}
    (reaches : Reaches values depth template inner field) (unfit : field.Unfit values (expandTo values inner) fault) :
    expandTo values depth template = .error fault := by
  induction reaches with
  | here pieces expanded => exact expandTo_of_field pieces expanded unfit.expand_eq
  | format pieces expanded found nested _ ih =>
    refine expandTo_of_field pieces expanded ?_
    rw [Field.expand_eq, found, Field.spelling, if_pos nested, ih unfit]
    rfl

theorem exists_reaches_of_fails (fails : expandTo values depth template = .error fault)
    (unreported : ¬ Reported fault) :
    ∃ inner field, Reaches values depth template inner field ∧
      field.Unfit values (expandTo values inner) fault := by
  induction depth generalizing template with
  | zero =>
    cases fails
    exact absurd rfl unreported
  | succ depth ih =>
    rw [expandTo_succ] at fails
    rcases bind_error_iff.mp fails with fails | ⟨text, expanded, flawed⟩
    · obtain ⟨before, piece, after, text, pieces, expanded, fails⟩ := expandPieces_error_iff.mp fails
      cases piece with
      | literal point => cases fails
      | field field =>
        rcases Field.unfit_of_fails fails unreported with unfit | ⟨nested, ⟨value, found⟩, fails⟩
        · exact ⟨depth, field, .here pieces expanded, unfit⟩
        · obtain ⟨inner, other, within, unfit⟩ := ih fails
          exact ⟨inner, other, .format pieces expanded found nested within, unfit⟩
    · -- behind all pieces only a flaw of the markup is left
      split at flawed
      · rename_i other flaw
        cases flawed
        exact absurd (Markup.reported_readFrom .text template fault flaw) unreported
      · cases flawed

/-- **Expansions fail without a report** just where they come to a field that does not fit. -/
theorem expandTo_unfit_iff : expandTo values depth template = .error fault ∧ ¬ Reported fault ↔
    ∃ inner field, Reaches values depth template inner field ∧
      field.Unfit values (expandTo values inner) fault := by
  refine ⟨fun ⟨fails, unreported⟩ => exists_reaches_of_fails fails unreported, ?_⟩
  rintro ⟨inner, field, reaches, unfit⟩
  exact ⟨reaches.unfit_fails unfit, unfit.not_reported⟩

end Expansion

end Conversions

end Refusals

end Template

/-! ### Answers of templates -/

namespace Replacement

section Answers

variable [Objects] [Limits]

/-- Expanding the template in place of a text, with a context, comes to a field that does not fit. -/
def Unfit (source replaced : Text) (context : Context) (fault : Template.Fault) : Prop :=
  ∃ inner field, Template.Reaches (scope replaced context) 2 source inner field ∧
    field.Unfit (scope replaced context) (Template.expandTo (scope replaced context) inner) fault

/-- **What a template can answer**: a text, a fault of a kind that is reported, together with the template,
or that of a field that does not fit, as it is. -/
inductive Answer (source replaced : Text) (context : Context) : Except RenderFault Text → Prop
  | text (inserted : Text) : Answer source replaced context (.ok inserted)
  | reported (fault : Template.Fault) (kind : fault.kind ∈ [.key, .attribute, .index, .type, .value]) :
      Answer source replaced context (.error (.template source fault))
  | unfit (fault : Template.Fault) (unfit : Unfit source replaced context fault) :
      Answer source replaced context (.error (.unwrapped fault))

variable (source replaced : Text) (context : Context)

theorem expand_unfit_iff {fault : Template.Fault} :
    Template.expand source (scope replaced context) = .error fault ∧ ¬ Template.Reported fault ↔
      Unfit source replaced context fault := Template.expandTo_unfit_iff

theorem expanded_answer : Answer source replaced context (expanded source replaced context) := by
  unfold expanded
  split
  · exact .text _
  · rename_i fault fails
    split
    · rename_i reported
      exact .reported fault ((Template.Kind.isListed_iff _).mp reported)
    · rename_i unreported
      exact .unfit fault ((expand_unfit_iff source replaced context).mp ⟨fails, unreported⟩)

/-- **A template answers with a fault as it is** just when its expansion comes to a field that does not fit. -/
theorem expanded_unwrapped_iff (fault : Template.Fault) :
    expanded source replaced context = .error (.unwrapped fault) ↔
      Unfit source replaced context fault := by
  rw [← expand_unfit_iff]
  unfold expanded
  split
  · rename_i text expands
    rw [expands]
    exact ⟨nofun, nofun⟩
  · rename_i other fails
    rw [fails]
    split
    · rename_i reported
      refine ⟨nofun, ?_⟩
      rintro ⟨⟨⟩, unreported⟩
      exact absurd reported unreported
    · rename_i unreported
      refine ⟨?_, ?_⟩
      · rintro ⟨⟩
        exact ⟨rfl, unreported⟩
      · rintro ⟨⟨⟩, _⟩
        rfl

end Answers

end Replacement

/-! ### Failures of emissions -/

theorem chunkOf_ne_render [Codecs] {encoding : Option Text} {text : Text} {fault : RenderFault} :
    chunkOf encoding text ≠ .error (.render fault) := by
  unfold chunkOf
  split
  · nofun
  · nofun
  · split
    · nofun
    · split <;> nofun

/-- An outlet fails for other reasons than a replacement. -/
theorem Outlet.failure_ne_render [Codecs] {outlet : Outlet} {encoding : Option Text} {writes : Nat}
    {text : Text} {failure : Failure} {fault : RenderFault}
    (failed : (outlet.take encoding writes text).failure = some failure) :
    failure ≠ .render fault := by
  rintro rfl
  rw [take_eq] at failed
  split at failed
  · rename_i other unencodable
    cases failed
    exact chunkOf_ne_render unencodable
  · split at failed
    · cases failed
    · split at failed <;> cases failed

namespace Draft

variable {draft : Draft} {context : Context} {history : History} {fault : RenderFault}

/-- One of the edits that take effect fails, at some time, with the fault. -/
def Fails (draft : Draft) (context : Context) (fault : RenderFault) : Prop :=
  ∃ kept, draft.plan.result = .ok kept ∧
    ∃ edit ∈ kept, ∃ history, edit.replacement.ask context history = .error fault

theorem Course.fault_of_outcome {α : Type} {course : Course} {result : α}
    (failed : course.outcome result = .error (.render fault)) : course.fault = some fault := by
  unfold Course.outcome at failed
  split at failed
  · cases failed
  · rename_i other found
    cases failed
    exact found

theorem fails_of_course {kept : List Edit} (planned : draft.plan.result = .ok kept)
    (failed : (draft.courseOver context history kept).fault = some fault) :
    draft.Fails context fault := by
  obtain ⟨before, edit, after, parts, fails, -⟩ := (course_sound _ _ _ _).faulty fault failed
  exact ⟨kept, planned, edit, by rw [parts]; simp, _, fails⟩

theorem render_failed (failed : (draft.render context history).result = .error (.render fault)) :
    draft.Fails context fault := by
  cases planned : draft.plan.result with
  | error clash =>
    rw [render_of_error planned] at failed
    cases failed
  | ok kept =>
    rw [render_eq_course planned] at failed
    exact fails_of_course planned (Course.fault_of_outcome failed)

theorem deliverTo_failed [Codecs] {encoding : Option Text} {outlet : Outlet}
    (failed : (draft.deliverTo context encoding outlet history).result = .error (.render fault)) :
    draft.Fails context fault := by
  cases planned : draft.plan.result with
  | error clash =>
    rw [deliverTo_of_error planned] at failed
    cases failed
  | ok kept =>
    rcases outlet.takes_or_fails encoding 0 (draft.courseOver context history kept).portions with
      ⟨chunks, takes⟩ | ⟨front, portion, back, chunks, parts, takes, stops⟩
    · rw [deliverTo_of_takes planned takes] at failed
      exact fails_of_course planned (Course.fault_of_outcome failed)
    · rw [Nat.zero_add] at stops
      obtain ⟨other, reason⟩ := Option.ne_none_iff_exists'.mp stops
      have taken : outlet.take encoding front.length portion.text =
          ⟨(outlet.take encoding front.length portion.text).marks, some other⟩ := by rw [← reason]
      rw [deliverTo_of_failed planned parts takes taken] at failed
      cases failed
      exact (Outlet.failure_ne_render reason rfl).elim

end Draft

/-! ### Scripts -/

namespace Script

/-- **Templates answer with a text, with a fault that is reported, or with that of a field that does not fit.**
Let a script of fixed texts and templates be loaded over a text, as far as its ranges lie in the text, and let
there be any context, or none at all.

* Each template answers with a text, or with a fault that is reported under its own source, of one of the five
  kinds of faults that are; or else its expansion, over its own range, has come to a field that does not fit,
  and the fault of this is the answer, as it is.
* A replacement that fails is the failure of the one text and of what every outlet takes only if it is such an
  answer of a template that takes effect. -/
theorem load_template_answers [Objects] [Limits] [Codecs] (script : Script) (text : Text)
    (context : Context) :
    let draft := ((Session.ofText text).load script).session.draft
    (∀ edit ∈ draft.edits, ∀ source, script.templateOf? edit = some source → ∀ history,
      Replacement.Answer source (text.slice edit.start edit.stop) context
          (edit.replacement.ask context history) ∧
        ∀ fault, edit.replacement.ask context history = .error (.unwrapped fault) ↔
          Replacement.Unfit source (text.slice edit.start edit.stop) context fault) ∧
      ∀ fault history,
        ((draft.render context history).result = .error (.render fault) ∨
          ∃ encoding outlet,
            (draft.deliverTo context encoding outlet history).result = .error (.render fault)) →
        ∃ kept, draft.plan.result = .ok kept ∧ ∃ edit ∈ kept, ∃ source,
          script.templateOf? edit = some source ∧
          Replacement.Answer source (text.slice edit.start edit.stop) context (.error fault) := by
  refine ⟨fun edit member source origin history => ?_, fun fault history failed => ?_⟩
  · rw [ask_of_template member origin]
    exact ⟨Replacement.expanded_answer _ _ _, Replacement.expanded_unwrapped_iff _ _ _⟩
  · have fails : ((Session.ofText text).load script).session.draft.Fails context fault := by
      rcases failed with failed | ⟨encoding, outlet, failed⟩
      · exact Draft.render_failed failed
      · exact Draft.deliverTo_failed failed
    obtain ⟨kept, planned, edit, member, asked, answer⟩ := fails
    have registered := Plan.kept_mem planned edit member
    cases origin : script.templateOf? edit with
    | some source =>
      refine ⟨kept, planned, edit, member, source, origin, ?_⟩
      rw [← answer, ask_of_template registered origin]
      exact Replacement.expanded_answer _ _ _
    | none =>
      obtain ⟨literal, answers⟩ := ask_of_no_template registered origin
      rw [answers] at answer
      cases answer

/-- A template that lays a number out as a character. -/
def characterScript : Script := [⟨0, some 1, none, "\x7bm:c\x7d", true⟩]

/-- A context with a number that is no character's. -/
def negativeContext : Context := some [("m", .whole (-1))]

/-- The edit of the script. -/
def characterKept : List Edit := [⟨⟨0, 1⟩, 1, .template "\x7bm:c\x7d" "a"⟩]

theorem load_template_unreported :
    let draft := ((Session.ofText "abc").load characterScript).session.draft
    draft.plan.result = .ok characterKept ∧
      (draft.render negativeContext []).result = .error (.render (.unwrapped .notACharacter)) ∧
      ¬ ((∃ rendered, (draft.render negativeContext []).result = .ok rendered) ∨
        ∃ source fault,
          (draft.render negativeContext []).result = .error (.render (.template source fault))) := by
  have planned : ((Session.ofText "abc").load characterScript).session.draft.plan.result =
      .ok characterKept := by cbv
  have rendered : (((Session.ofText "abc").load characterScript).session.draft.render
      negativeContext []).result = .error (.render (.unwrapped .notACharacter)) := by
    rw [Draft.render_eq_course planned]
    rfl
  refine ⟨planned, rendered, ?_⟩
  rw [rendered]
  rintro (⟨_, ⟨⟩⟩ | ⟨_, _, ⟨⟩⟩)

end Script

end Splice
