/-
**Rewriting a file.**

A run that applies a script in UTF-8 reads the source, splices the edits of the script that take
effect into its text at offsets of code points, and writes the octets of the result, as a whole or
piece by piece, to the output or to a file, which may be one of the two files it has read. It goes
through just when nothing stands in the way: the script can be loaded, its ranges lie in the text, the
edits have a plan and texts, and no surrogate comes out.

* `Variable.Spells`: a binding that spells a name and a value;
* `Script.Rewrites`: what a script makes of a text, with all that has to hold for it;
* `run_rewrites`: the run.
-/

import Mathlib
import Splice.Proofs.Applying
import Splice.Proofs.Octets

namespace Splice

/-! ### Variables -/

namespace Variable

/-- The binding spells a name, which is not empty and holds no equals sign, and a value. -/
def Spells (binding : SwitchValue) (pair : Text × Text) : Prop :=
  binding = some (pair.1 ++ .scalar '=' :: pair.2) ∧ pair.1 ≠ [] ∧ .scalar '=' ∉ pair.1

/-- The values that names have, the last value of a name counting. -/
def bound (pairs : List (Text × Text)) : Record :=
  .ofFields (pairs.map fun pair => (pair.1, .text pair.2))

theorem splitAt?_of_not_mem {mark : CodePoint} {front : Text} (absent : mark ∉ front)
    (back : Text) : Text.splitAt? mark (front ++ mark :: back) = some (front, back) := by
  induction front with
  | nil => simp [Text.splitAt?]
  | cons point rest ih =>
    obtain ⟨other, absent⟩ := not_or.mp (List.mem_cons.not.mp absent)
    rw [List.cons_append, Text.splitAt?, if_neg (Ne.symm other), ih absent]
    rfl

theorem parse?_of_spells {binding : Text} {pair : Text × Text}
    (spells : Spells (some binding) pair) : parse? binding = some pair := by
  obtain ⟨written, named, absent⟩ := spells
  obtain rfl := Option.some.inj written
  have proper : pair.1.isEmpty = false := List.isEmpty_eq_false_iff.mpr named
  unfold parse?
  simp only [splitAt?_of_not_mem absent, proper]
  rfl

theorem collect_of_spells {bindings : List SwitchValue} {pairs : List (Text × Text)}
    (spelt : List.Forall₂ Spells bindings pairs) (record : Record) :
    collect record bindings =
      .ok (pairs.foldl (fun record pair => record.put pair.1 (.text pair.2)) record) := by
  induction spelt generalizing record with
  | nil => rfl
  | @cons binding pair rest others spells _ ih =>
    obtain ⟨rfl, -, -⟩ := id spells
    unfold collect
    simp only [parse?_of_spells spells]
    exact ih _

/-- **Bindings that spell names and values** give the names their values. -/
theorem parseAll_of_spells {bindings : List SwitchValue} {pairs : List (Text × Text)}
    (spelt : List.Forall₂ Spells bindings pairs) : parseAll bindings = .ok (bound pairs) := by
  unfold parseAll bound Record.ofFields
  rw [collect_of_spells spelt, List.foldl_map]

end Variable

/-! ### Renderings -/

namespace Draft

variable {draft : Draft} {context : Context} {history : History} {text : Text}
  {kept : List Edit} {texts : List Text}

/-- Edits in the text that take effect lie in a row, and their texts with them. -/
theorem laid_zip (within : ∀ edit ∈ draft.edits, edit.span.within draft.text.length = true)
    (planned : draft.plan.result = .ok kept) (answered : answers context history kept = .ok texts) :
    Laid draft.text.length 0 ((kept.zip texts).map Prod.fst) := by
  rw [List.map_fst_zip (Nat.le_of_eq (length_answers answered).symm)]
  exact Plan.laid_of_ok planned (Int.natCast_nonneg _) fun edit member =>
    (Edit.within_iff _ _).mp (within edit member)

/-- **What is rendered**: the text with the texts of all edits that take effect spliced in. -/
theorem render_ok_iff (within : ∀ edit ∈ draft.edits, edit.span.within draft.text.length = true) :
    (draft.render context history).result = .ok text ↔
      ∃ kept texts, draft.plan.result = .ok kept ∧ answers context history kept = .ok texts ∧
        text = spliceAll draft.text (kept.zip texts) := by
  -- from the first offset on, splicing leaves the whole walk to do
  have spliced {kept : List Edit} {texts : List Text} (planned : draft.plan.result = .ok kept)
      (answered : answers context history kept = .ok texts) :
      spliceAll draft.text (kept.zip texts) = weave draft.text 0 (kept.zip texts) := by
    rw [spliceAll_eq_weave (laid_zip within planned answered) (Int.le_refl _),
      Text.slice_self (Int.le_refl _) (Int.natCast_nonneg _), List.nil_append]
  rw [render_result]
  constructor
  · intro rendered
    split at rendered
    · cases rendered
    · rename_i kept planned
      cases answered : answers context history kept with
      | error fault =>
        rw [answered] at rendered
        cases rendered
      | ok texts =>
        rw [answered] at rendered
        refine ⟨kept, texts, planned, answered, ?_⟩
        rw [spliced planned answered]
        exact (Except.ok.inj rendered).symm
  · rintro ⟨kept, texts, planned, answered, rfl⟩
    rw [planned, spliced planned answered]
    simp only [answered]
    rfl

end Draft

/-! ### Surrogates -/

/-- UTF-8 has octets for every code point but surrogates. -/
theorem covers_utf8_iff {text : Text} :
    Charset.utf8.Covers text ↔ ∀ point ∈ text, point.isSurrogate = false := by
  refine forall₂_congr fun point _ => ?_
  cases point with
  | scalar char => exact ⟨fun _ => rfl, fun _ => rfl⟩
  | surrogate index => exact ⟨nofun, nofun⟩

/-! ### Runs -/

/-- A script makes something of a text: its ranges lie in the text, some of its edits take effect and
have texts, and no surrogate is in the text with these spliced in. -/
structure Script.Rewrites [Objects] [Limits] (script : Script) (text : Text) (context : Context)
    (kept : List Edit) (texts : List Text) : Prop where
  within : ∀ entry ∈ script, entry.span.within text.length = true
  planned : (script.draftOver text).plan.result = .ok kept
  answered : answers context [] kept = .ok texts
  plain : ∀ point ∈ spliceAll text (kept.zip texts), point.isSurrogate = false

/-- A script whose ranges lie in a text makes something of it just when the text of its edits can be
written in UTF-8. -/
theorem Script.encodable_iff [Objects] [Limits] {script : Script} {text : Text} {context : Context}
    (within : ∀ entry ∈ script, entry.span.within text.length = true) :
    (script.draftOver text).Encodable context .utf8 ↔
      ∃ kept texts, script.Rewrites text context kept texts := by
  have render := fun written => @Draft.render_ok_iff (script.draftOver text) context [] written
    (within_draftOver within)
  constructor
  · rintro ⟨written, rendered, covered⟩
    obtain ⟨kept, texts, planned, answered, rfl⟩ := (render written).mp rendered
    exact ⟨kept, texts, within, planned, answered, covers_utf8_iff.mp covered⟩
  · rintro ⟨kept, texts, -, planned, answered, plain⟩
    exact ⟨_, (render _).mpr ⟨kept, texts, planned, answered, rfl⟩, covers_utf8_iff.mpr plain⟩

namespace Command

section Writing

variable [Runtime] {tree : Tree} {source operand : Operand} {options : ApplyOptions}
  {pairs : List (Text × Text)} {chars : List Char} {notices : List Notice} {draft : Draft}
  {context : Context} {encoding : Text}
  {output : Option PathName} {stream : Bool}

/-- **Every way of writing in UTF-8** comes to the same. -/
theorem emit_writes (found : Charset.named encoding = .ok (.charset .utf8))
    (console : output = none → stream = false → Console.IsUtf8)
    (writable : ∀ name, output = some name → tree.Writable name) :
    (emit tree notices draft context encoding output stream).Writes tree output fun octets =>
      draft.Encodable context .utf8 ∧ octets = Charset.utf8.row (draft.chunks context []).flatten := by
  have named := Codecs.named_charset found
  have whole (octets : Bytes) := @Draft.encodesTo_charset_iff draft context .utf8 octets
  -- without a mark, the octets of the chunks are those of the text
  have streamed (octets : Bytes) := @Draft.streamsTo_charset_iff draft context .utf8 octets
  rw [flatMap_row_of_unmarked rfl] at streamed
  cases output with
  | none =>
    cases stream with
    | false => exact writeToOutput_writes.congr fun octets => Draft.prints_iff (console rfl rfl)
    | true => exact (streamToOutput_writes named).congr streamed
  | some name =>
    have free := writable name rfl
    cases stream with
    | false => exact (writeToFile_writes named).congr fun octets => (and_iff_left free).trans (whole octets)
    | true =>
      exact (streamToFile_writes named).congr fun octets =>
        (and_iff_left free).trans (streamed octets)

omit [Runtime] in
theorem named_utf8 : Charset.named "utf-8" = .ok (.charset .utf8) := rfl

theorem encodingOf_utf8 : encodingOf (some "utf-8") = .ok "utf-8" :=
  encodingOf_eq (Codecs.named_charset named_utf8)

omit [Runtime] in
theorem contextOf_of_spells {bindings : List SwitchValue}
    (spelt : List.Forall₂ Variable.Spells bindings pairs) :
    contextOf bindings = .ok (some (Variable.bound pairs)) := by
  unfold contextOf
  rw [Variable.parseAll_of_spells spelt]

omit [Runtime] in
theorem spells_unique {others : List Char} (spells : tree.Spells operand chars)
    (spells' : tree.Spells operand others) : chars = others := by
  obtain ⟨name, octets, rfl, holds, decodes⟩ := spells
  obtain ⟨_, octets', ⟨⟩, holds', decodes'⟩ := spells'
  rw [holds] at holds'
  obtain rfl := Except.ok.inj holds'
  rw [decodes] at decodes'
  exact Except.ok.inj decodes'

section Runs

variable (reads : tree.Spells source chars)
  (spelt : List.Forall₂ Variable.Spells options.bindings pairs)
  (default : options.encoding = some (Text.ofString "utf-8"))
  (console : options.output = none → options.stream = false → Console.IsUtf8)
  (writable : ∀ name, options.output = some name → tree.Writable name)

include reads spelt default console writable

/-- A command that goes through makes something of the text. -/
theorem exists_rewrites_of_apply (through : (apply tree source operand options).ending = .exit 0) :
    ∃ (script : Script) (kept : List Edit) (texts : List Text), script.LoadsFrom tree operand ∧
      script.Rewrites (Text.ofChars chars) (some (Variable.bound pairs)) kept texts := by
  obtain ⟨draft, context, encoding, prepared⟩ := exists_prepared_of_apply through
  obtain ⟨notices, same⟩ := apply_of_prepared prepared
  obtain ⟨chars', script, reads', loads, within, rfl⟩ := draftOf_ok_iff.mp prepared.drafted
  obtain rfl := spells_unique reads reads'
  -- variables and encoding leave no choice of the context and the name
  have bound := prepared.bound
  rw [contextOf_of_spells spelt] at bound
  obtain rfl := Except.ok.inj bound
  obtain rfl := prepared.encoding_eq default (Codecs.named_charset named_utf8)
  rw [same] at through
  obtain ⟨octets, encodable, -⟩ := (emit_writes named_utf8 console writable).exists_of_through through
  obtain ⟨kept, texts, rewrites⟩ := (Script.encodable_iff within).mp encodable
  exact ⟨script, kept, texts, loads, rewrites⟩

/-- A command that makes something of the text writes it. -/
theorem delivers_of_rewrites {script : Script} {kept : List Edit} {texts : List Text}
    (loads : script.LoadsFrom tree operand)
    (rewrites : script.Rewrites (Text.ofChars chars) (some (Variable.bound pairs)) kept texts) :
    (apply tree source operand options).Delivers tree
      (Charset.utf8.row (spliceAll (Text.ofChars chars) (kept.zip texts))) options.output := by
  have prepared : Prepared tree source operand options (script.draftOver (Text.ofChars chars))
      (some (Variable.bound pairs)) "utf-8" :=
    { drafted := draftOf_ok_iff.mpr ⟨chars, script, reads, loads, rewrites.within, rfl⟩
      bound := contextOf_of_spells spelt
      known := default ▸ encodingOf_utf8
      planned := ⟨kept, rewrites.planned⟩ }
  obtain ⟨notices, same⟩ := apply_of_prepared prepared
  have rendered : ((script.draftOver (Text.ofChars chars)).render
      (some (Variable.bound pairs)) []).result =
        .ok (spliceAll (Text.ofChars chars) (kept.zip texts)) :=
    (Draft.render_ok_iff (Script.within_draftOver rewrites.within)).mpr
      ⟨kept, texts, rewrites.planned, rewrites.answered, rfl⟩
  have encodable := (Script.encodable_iff rewrites.within).mpr ⟨kept, texts, rewrites⟩
  rw [same, Draft.render_eq_chunks _ _ _ _ rendered]
  exact (emit_writes named_utf8 console writable).delivers _ ⟨encodable, rfl⟩

end Runs

end Writing

end Command

/-- **A run that rewrites a file.** Let a command line ask for a script to be applied to a source that
is UTF-8, with variables that spell names and values, in the encoding that is taken by default, and
with a file to write to that can be written or, where the text is printed as a whole, a console of
UTF-8. The run, whether it writes as a whole or piece by piece,

* ends with exit code 0 just when a script can be loaded and makes something of the text of the
  source; and then
* has written the octets of the text with the edits spliced in, which are those of the source with the
  octets of the edits spliced in, to the output alone or to the file alone; the other files are as
  they were. -/
theorem run_rewrites [Runtime] {world : World} {arguments : List Text} {verbose : Bool} {source : PathName}
    {operand : Operand} {options : ApplyOptions} {octets : Bytes} {chars : List Char}
    {pairs : List (Text × Text)}
    (asked : Request.read arguments = .request verbose (.apply (some source) operand options))
    (holds : world.tree.readFile source = .ok octets) (decodes : Utf8.decode octets = .ok chars)
    (spelt : List.Forall₂ Variable.Spells options.bindings pairs)
    (default : options.encoding = some (Text.ofString "utf-8"))
    (console : options.output = none → options.stream = false → Console.IsUtf8)
    (writable : ∀ name, options.output = some name → world.tree.Writable name) :
    let text := Text.ofChars chars
    let context : Context := some (Variable.bound pairs)
    let outcome := (run world arguments).2
    (outcome.ending = .exit 0 ↔
      ∃ (script : Script) (kept : List Edit) (texts : List Text),
        script.LoadsFrom world.tree operand ∧ script.Rewrites text context kept texts) ∧
    ∀ (script : Script) (kept : List Edit) (texts : List Text),
      script.LoadsFrom world.tree operand → script.Rewrites text context kept texts →
      let result := Charset.utf8.row (spliceAll text (kept.zip texts))
      Charset.utf8.encode (spliceAll text (kept.zip texts)) = .ok result ∧
      result = Charset.utf8.spliceAllOctets text (kept.zip texts) octets ∧
      (options.output = none → outcome.output = result ∧ outcome.tree = world.tree) ∧
      ∀ name, options.output = some name →
        outcome.output = [] ∧ outcome.tree.readFile name = .ok result ∧
        ∀ other octets', world.tree.locate other ≠ world.tree.locate name →
          world.tree.readFile other = .ok octets' → outcome.tree.readFile other = .ok octets' := by
  intro text context outcome
  have applied : outcome = Command.apply world.tree (some source) operand options :=
    run_of_apply asked
  have reads : world.tree.Spells (some source) chars := ⟨source, octets, rfl, holds, decodes⟩
  have delivered : ∀ (script : Script) (kept : List Edit) (texts : List Text),
      script.LoadsFrom world.tree operand → script.Rewrites text context kept texts →
      outcome.Delivers world.tree (Charset.utf8.row (spliceAll text (kept.zip texts)))
        options.output := by
    intro script kept texts loads rewrites
    rw [applied]
    exact Command.delivers_of_rewrites reads spelt default console writable loads rewrites
  refine ⟨⟨?_, ?_⟩, ?_⟩
  · intro through
    rw [applied] at through
    exact Command.exists_rewrites_of_apply reads spelt default console writable through
  · rintro ⟨script, kept, texts, loads, rewrites⟩
    exact (delivered script kept texts loads rewrites).ending
  · intro script kept texts loads rewrites result
    have delivers := delivered script kept texts loads rewrites
    have covered := covers_utf8_iff.mpr rewrites.plain
    have laid : Laid text.length 0 ((kept.zip texts).map Prod.fst) :=
      Draft.laid_zip (Script.within_draftOver rewrites.within) rewrites.planned rewrites.answered
    refine ⟨Charset.encode_of_covers covered, ?_, ?_, ?_⟩
    · -- the octets of the text are those that were read
      show Charset.utf8.row _ = _
      rw [Charset.row_spliceAll laid (Int.le_refl _), Utf8.encode_decode decodes]
    · intro toOutput
      rw [toOutput] at delivers
      exact delivers.2
    · intro name toFile
      rw [toFile] at delivers
      exact ⟨delivers.2.1, Tree.readFile_of_writeFile delivers.2.2,
        fun other octets' => Tree.readFile_of_ne delivers.2.2⟩

/-- A document with one entry, a template. -/
def accentDocument : String :=
  "[\x7b\"start\": 1, \"end\": 3, \"text\": \"\x7bwho\x7d\", \"template\": true\x7d]"

/-- A source with a byte-order mark and a line end of two characters, and a script. -/
def accentTree : Tree :=
  [([Charset.utf8.row "s.txt"], .file (Charset.utf8.row "\uFEFFa\r\nb")),
    ([Charset.utf8.row "e.json"], .file (Charset.utf8.row accentDocument))]

/-- A command line that writes, piece by piece, into the file from which it has read the script. -/
def accentLine : List Text :=
  ["apply", "s.txt", "e.json", "-o", "e.json", "--stream", "--var", "who=é"]

theorem run_rewrites_accent :
    (run ⟨accentTree, none⟩ accentLine).2.ending = .exit 0 ∧
      (run ⟨accentTree, none⟩ accentLine).2.output = [] ∧
      (run ⟨accentTree, none⟩ accentLine).2.tree.readFile ⟨[], ["e.json"]⟩ =
        .ok (Charset.utf8.row "\uFEFFé\nb") := by
  let source : PathName := ⟨[], ["s.txt"]⟩
  let script : PathName := ⟨[], ["e.json"]⟩
  let options : ApplyOptions := ⟨some script, true, some "utf-8", [some "who=é"]⟩
  let chars : List Char := ['\uFEFF', 'a', '\r', '\n', 'b']
  let entries : Script := [⟨1, none, some 3, "\x7bwho\x7d", true⟩]
  let kept : List Edit := [⟨⟨1, 3⟩, 1, .template "\x7bwho\x7d" "a\r"⟩]
  have asked : Request.read accentLine =
      .request false (.apply (some source) (some script) options) := by decide +kernel
  have holds : accentTree.readFile source = .ok (Charset.utf8.row "\uFEFFa\r\nb") := by
    decide +kernel
  have decodes : Utf8.decode (Charset.utf8.row "\uFEFFa\r\nb") = .ok chars := by decide +kernel
  have spelt : List.Forall₂ Variable.Spells options.bindings [("who", "é")] :=
    .cons ⟨rfl, by decide, by decide⟩ .nil
  have free : accentTree.locate script = .ok [Charset.utf8.row "e.json"] ∧
      accentTree.node? [Charset.utf8.row "e.json"] ≠ some .folder := by decide +kernel
  have writable : ∀ name, options.output = some name → accentTree.Writable name := by
    rintro name ⟨⟩
    exact ⟨_, Tree.writeFile_ok_iff.mpr ⟨_, free.1, free.2, rfl⟩⟩
  have spells : accentTree.Spells (some script) accentDocument.toList :=
    ⟨script, Charset.utf8.row accentDocument, rfl, by decide +kernel, by decide +kernel⟩
  have parses : (Script.parse (Text.ofChars (Command.unifiedLines accentDocument.toList))).toOption =
      some entries := by decide +kernel
  have rewrites : entries.Rewrites (Text.ofChars chars) (some (Variable.bound [("who", "é")])) kept
      ["é"] :=
    { within := by decide
      planned := by cbv
      answered := by decide +kernel
      plain := by decide +kernel }
  obtain ⟨through, written⟩ := @run_rewrites _ ⟨accentTree, none⟩ _ _ _ _ _ _ _ _ asked holds decodes
    spelt rfl (fun _ _ _ => rfl) writable
  have loads : entries.LoadsFrom accentTree (some script) :=
    ⟨accentDocument.toList, spells, eq_ok_of_toOption parses⟩
  obtain ⟨-, -, -, toFile⟩ := written entries kept ["é"] loads rewrites
  obtain ⟨silent, reread, -⟩ := toFile script rfl
  exact ⟨through.mpr ⟨entries, kept, ["é"], loads, rewrites⟩, silent, reread⟩

end Splice
