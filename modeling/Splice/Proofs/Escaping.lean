/-
**Texts escaped as templates.**

A text becomes a template for itself when its braces are doubled. Reading such a template never leaves
the text: every brace is met together with its double, so there is neither a field nor a flaw in it. So
the escaped text as a template and the text itself are the same replacement, whatever the context is, and
entries that differ in this alone have the same outcome: a template reads its range before it is
registered, but this fails just where the registration would.

* `Template.escaped`: the text with its braces doubled;
* `Template.read_escaped`: its markup, which is the code points of the text;
* `Replacement.template_escaped`: the template as a replacement;
* `Session.load_escaped`: an entry with the text and one with the template.
-/

import Splice.Proofs.Batches

namespace Splice

namespace Template

/-- Whether a code point is a brace. -/
def isBrace (point : CodePoint) : Bool := point = .scalar '\x7b' || point = .scalar '\x7d'

/-- The text with its braces doubled. -/
def escaped (text : Text) : Text :=
  text.flatMap fun point => if isBrace point then [point, point] else [point]

theorem readFrom_of_not_brace {point : CodePoint} (plain : isBrace point = false) (rest : Text) :
    Markup.readFrom .text (point :: rest) =
      .cons (.literal point) (Markup.readFrom .text rest) := by
  simp only [isBrace, Bool.or_eq_false_iff, decide_eq_false_iff_not] at plain
  obtain ⟨opening, closing⟩ := plain
  rw [Markup.readFrom]
  -- the other rules for text begin with a brace
  · exact fun same _ => opening same
  · exact fun _ same _ => opening same
  · exact fun _ _ same _ => opening same
  · exact fun _ same _ => closing same
  · exact closing

/-- **The markup of an escaped text** is the text: braces are met in pairs, so that no field begins. -/
theorem read_escaped (text : Text) : Markup.read (escaped text) = ⟨text.map .literal, none⟩ := by
  unfold Markup.read
  induction text with
  | nil => rfl
  | cons point rest ih =>
    have front : escaped (point :: rest) =
        (if isBrace point then [point, point] else [point]) ++ escaped rest := List.flatMap_cons
    rw [front]
    cases brace : isBrace point with
    | false =>
      simp only [Bool.false_eq_true, if_false, List.singleton_append]
      rw [readFrom_of_not_brace brace, ih]
      rfl
    | true =>
      simp only [if_true]
      simp only [isBrace, Bool.or_eq_true, decide_eq_true_eq] at brace
      rcases brace with rfl | rfl
      · show Markup.cons _ (Markup.readFrom .text (escaped rest)) = _
        rw [ih]
        rfl
      · show Markup.cons _ (Markup.readFrom .text (escaped rest)) = _
        rw [ih]
        rfl

theorem expandPieces_literals [Objects] [Limits] (values : Record) (expandFormat : Text → Except Fault Text)
    (text : Text) : expandPieces values expandFormat (text.map .literal) = .ok text := by
  induction text with
  | nil => rfl
  | cons point rest ih =>
    rw [List.map_cons, expandPieces, ih]
    rfl

/-- **An escaped text expands to the text**, whatever the values are. -/
theorem expand_escaped [Objects] [Limits] (text : Text) (values : Record) :
    expand (escaped text) values = .ok text := by
  unfold expand expandTo
  simp only [read_escaped, expandPieces_literals]
  rfl

end Template

/-- **An escaped text as a template** is the text, whatever it replaces. -/
theorem Replacement.template_escaped [Objects] [Limits] (text replaced : Text) :
    template (Template.escaped text) replaced = fixed text := by
  unfold template fixed expanded
  simp only [Template.expand_escaped]

namespace Session

section Entries

variable [Objects] [Limits] (session : Session) (start : Int) (length stop : Option Int) (text : Text)

theorem loadEntry_escaped :
    session.loadEntry ⟨start, length, stop, Template.escaped text, true⟩ =
      session.loadEntry ⟨start, length, stop, text, false⟩ := by
  rw [loadEntry_eq, loadEntry_eq]
  show session.registerSpan _ (.template (Template.escaped text) _) =
    session.registerSpan _ (.fixed text)
  rw [Replacement.template_escaped]
  rfl

/-- **An escaped text as a template is the text.** Take an entry with any text, located by a length, by
an end, by both or by neither, and the same entry with the escaped text as a template. In whatever state
a session is,

* both come to the same reply;
* where the range does not lie in the text, both report the same range and leave the session as it was;
* otherwise both append an edit of this range under the order behind the one given out last, and for
  every context, be it none at all, and however often they are asked, the edits have just the text. -/
theorem load_escaped :
    let entry : Entry := ⟨start, length, stop, text, false⟩
    let escaped : Entry := ⟨start, length, stop, Template.escaped text, true⟩
    let span : Span := ⟨min start (start + entry.reach), max start (start + entry.reach)⟩
    let size := session.draft.text.length
    session.load [escaped] = session.load [entry] ∧
      (¬ entry.InText size → ∀ other ∈ [entry, escaped],
        session.load [other] = ⟨session, [], .error (.outside span size)⟩) ∧
      (entry.InText size → ∀ other ∈ [entry, escaped], ∃ edit : Edit,
        edit.span = span ∧ edit.order = session.lastOrder + 1 ∧
          session.load [other] =
            ⟨⟨session.draft.append edit, edit.order⟩, [.registered edit, .loaded 1], .ok 1⟩ ∧
          ∀ context history, edit.replacement.ask context history = .ok text) := by
  intro entry escaped span size
  have same : session.load [escaped] = session.load [entry] := by
    unfold load
    simp only [loadEntries_cons, escaped, entry, loadEntry_escaped]
    rfl
  have both {outcome : Reply Nat} (holds : session.load [entry] = outcome) :
      ∀ other ∈ [entry, escaped], session.load [other] = outcome := by
    intro other member
    rcases List.mem_cons.mp member with rfl | last
    · exact holds
    · obtain rfl := List.mem_singleton.mp last
      exact same.trans holds
  refine ⟨same, fun outside => both ?_, fun inside other member => ?_⟩
  · rw [load_singleton, if_neg fun within => outside (Entry.inText_iff.mpr within)]
    rfl
  · have loaded := (load_singleton session entry).trans (if_pos (Entry.inText_iff.mp inside))
    exact ⟨_, rfl, rfl, both loaded other member, fun _ _ => rfl⟩

end Entries

/-- A text that looks like a field, with a brace too many, and its escaped form. -/
theorem load_escaped_field :
    Template.escaped "\x7boriginal\x7d\x7d" = "\x7b\x7boriginal\x7d\x7d\x7d\x7d" ∧
      Entry.InText 6 ⟨5, none, some 2, "\x7boriginal\x7d\x7d", false⟩ ∧
      ∃ edit : Edit, edit.span = ⟨2, 5⟩ ∧
        ((ofText "abcdef").load
          [⟨5, none, some 2, "\x7b\x7boriginal\x7d\x7d\x7d\x7d", true⟩]).session.draft.edits = [edit] ∧
        ∀ context history,
          edit.replacement.ask context history = .ok "\x7boriginal\x7d\x7d" := by
  have inside : Entry.InText 6 ⟨5, none, some 2, "\x7boriginal\x7d\x7d", false⟩ := by decide
  have spelled : Template.escaped "\x7boriginal\x7d\x7d" = "\x7b\x7boriginal\x7d\x7d\x7d\x7d" := by
    decide +kernel
  obtain ⟨-, -, accepted⟩ :=
    load_escaped (ofText "abcdef") 5 none (some 2) "\x7boriginal\x7d\x7d"
  obtain ⟨edit, span, -, loaded, answers⟩ :=
    accepted inside _ (List.mem_cons_of_mem _ List.mem_cons_self)
  rw [spelled] at loaded
  exact ⟨spelled, inside, edit, span, by rw [loaded]; rfl, answers⟩

end Session

end Splice
