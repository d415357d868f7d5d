/-
**Files written piece by piece.**

A file can be written as a whole or piece by piece. As a whole the text is stored in the encoding; piece
by piece each of its chunks is encoded on its own. That comes to the same for an encoding that works piece by
piece. The well-known encodings do when they have no byte-order mark. With a mark, the text gets one as a
whole, but piece by piece every chunk gets its own, and a text without chunks gets none; so the two files are
the same just when the text comes in a single chunk.

* `Charset.marked_eq_iff`: chunks encoded one by one beside the encoding of their text;
* `Codec.Piecewise`, `Charset.piecewise_iff`: encodings that work piece by piece;
* `run_streamed`: two runs that differ in nothing but the way of writing;
* `run_streamed_ne`: a file with three marks in it.
-/

import Mathlib
import Splice.Proofs.Applying

namespace Splice

namespace Charset

variable {charset : Charset} {chunks : List Text}

/-- Each chunk brings a mark of its own. -/
theorem length_flatMap_marked (charset : Charset) (chunks : List Text) :
    (chunks.flatMap fun chunk => charset.mark ++ charset.row chunk).length =
      chunks.length * charset.mark.length + (charset.row chunks.flatten).length := by
  induction chunks with
  | nil => simp [row]
  | cons chunk rest ih =>
    rw [List.flatMap_cons, List.length_append, List.length_append, ih, List.flatten_cons, row_append,
      List.length_append, List.length_cons, Nat.add_mul, Nat.one_mul]
    omega

/-- **Chunks encoded one by one** give the encoding of their text just when the encoding has no mark
or there is one chunk. -/
theorem marked_eq_iff : (chunks.flatMap fun chunk => charset.mark ++ charset.row chunk) =
    charset.mark ++ charset.row chunks.flatten ↔ charset.mark = [] ∨ chunks.length = 1 := by
  constructor
  · intro same
    -- both sides have the octets of the text, so only the number of marks can differ
    have sizes := congrArg List.length same
    rw [length_flatMap_marked, List.length_append] at sizes
    have count : chunks.length * charset.mark.length = 1 * charset.mark.length := by omega
    rcases Nat.eq_zero_or_pos charset.mark.length with bare | marked
    · exact Or.inl (List.eq_nil_of_length_eq_zero bare)
    · exact Or.inr (Nat.eq_of_mul_eq_mul_right marked count)
  · rintro (bare | single)
    · rw [flatMap_row_of_unmarked bare, bare, List.nil_append]
    · obtain ⟨chunk, rfl⟩ := List.length_eq_one_iff.mp single
      rw [List.flatMap_singleton, List.flatten_singleton]

end Charset

/-- **An encoding that works piece by piece**: texts encoded one by one give what is stored for all of them
as one text. -/
def Codec.Piecewise (codec : Codec) : Prop :=
  ∀ (texts : List Text) (octets : Bytes), codec.store texts.flatten = .ok octets ↔
    ∃ rows, codec.Encodes texts rows ∧ octets = rows.flatten

/-- A well-known encoding works piece by piece just when it has no mark. -/
theorem Charset.piecewise_iff {charset : Charset} : charset.codec.Piecewise ↔ charset.mark = [] := by
  constructor
  · intro piecewise
    -- no texts have no octets, and the empty text has those of the mark
    have empty : charset.codec.store [] = .ok (charset.mark ++ charset.row []) := codec_of_covers nofun
    obtain ⟨rows, encoded, same⟩ := (piecewise [] _).mp empty
    cases encoded
    exact (List.append_eq_nil_iff.mp same).1
  · intro unmarked texts octets
    constructor
    · intro stored
      obtain ⟨covered, rfl⟩ := encode_ok_iff.mp (codec_ok_iff.mp stored)
      refine ⟨_, encodes_of_covers (covers_flatten.mp covered), ?_⟩
      rw [← List.flatMap_def, flatMap_row_of_unmarked unmarked, unmarked, List.nil_append]
    · rintro ⟨rows, encoded, rfl⟩
      have covered : ∀ text ∈ texts, charset.Covers text := by
        intro text member
        obtain ⟨row, written⟩ := encoded.exists_row member
        exact (encode_ok_iff.mp (codec_ok_iff.mp written)).1
      obtain rfl := encoded.unique (encodes_of_covers covered)
      rw [← List.flatMap_def, flatMap_row_of_unmarked unmarked]
      have whole : charset.codec.store texts.flatten =
          .ok (charset.mark ++ charset.row texts.flatten) := codec_of_covers (covers_flatten.mpr covered)
      rw [whole, unmarked, List.nil_append]

namespace Draft

variable {draft : Draft} {context : Context} {codec : Codec} {charset : Charset} {octets other : Bytes}

/-- The octets that a file gets, as a whole or piece by piece. -/
def Yields (draft : Draft) (context : Context) (codec : Codec) (stream : Bool) (octets : Bytes) : Prop :=
  if stream then draft.StreamsTo context codec octets else draft.EncodesTo context codec.store octets

/-- **With an encoding that works piece by piece** both ways give the same octets. -/
theorem yields_iff_of_piecewise (piecewise : codec.Piecewise) (stream : Bool) :
    draft.Yields context codec stream octets ↔ draft.Yields context codec (!stream) octets := by
  have same : draft.StreamsTo context codec octets ↔ draft.EncodesTo context codec.store octets := by
    constructor
    · rintro ⟨⟨text, rendered⟩, encoded⟩
      refine ⟨text, rendered, ?_⟩
      rw [render_eq_chunks _ _ _ _ rendered]
      exact (piecewise _ _).mpr encoded
    · rintro ⟨text, rendered, stored⟩
      rw [render_eq_chunks _ _ _ _ rendered] at stored
      exact ⟨⟨text, rendered⟩, (piecewise _ _).mp stored⟩
  cases stream with
  | true => exact same
  | false => exact same.symm

/-- In a well-known encoding there are octets for both ways or for none. -/
theorem exists_yields_charset_iff (stream : Bool) :
    (∃ octets, draft.Yields context charset.codec stream octets) ↔ draft.Encodable context charset := by
  cases stream with
  | true =>
    refine ⟨fun ⟨octets, streams⟩ => (streamsTo_charset_iff.mp streams).1, fun encodable => ?_⟩
    exact ⟨_, streamsTo_charset_iff.mpr ⟨encodable, rfl⟩⟩
  | false =>
    refine ⟨fun ⟨octets, encodes⟩ => (encodesTo_charset_iff.mp encodes).1, fun encodable => ?_⟩
    exact ⟨_, encodesTo_charset_iff.mpr ⟨encodable, rfl⟩⟩

/-- **The octets of both ways in a well-known encoding** are the same just when it has no mark or there is
one chunk. -/
theorem yields_charset_eq_iff (streamed : draft.Yields context charset.codec true octets)
    (whole : draft.Yields context charset.codec false other) :
    octets = other ↔ charset.mark = [] ∨ (draft.chunks context []).length = 1 := by
  obtain ⟨-, rfl⟩ := streamsTo_charset_iff.mp streamed
  obtain ⟨-, rfl⟩ := encodesTo_charset_iff.mp whole
  exact Charset.marked_eq_iff

end Draft

namespace Command

section Streaming

variable [Runtime] {tree : Tree} {source operand : Operand} {options : ApplyOptions} {name : PathName}
  {label : Text} {codec : Codec} {draft : Draft} {context : Context}

/-- A command is prepared alike whether it writes as a whole or piece by piece. -/
theorem Prepared.withStream (prepared : Prepared tree source operand options draft context label)
    (stream : Bool) : Prepared tree source operand { options with stream } draft context label :=
  ⟨prepared.drafted, prepared.bound, prepared.known, prepared.planned⟩

variable (toFile : options.output = some name) (labelled : options.encoding = some label)
  (found : Codecs.named label = .ok (.codec codec))

include toFile found

/-- A prepared command writes a file if there are octets for it and it can be written. -/
theorem apply_writes (prepared : Prepared tree source operand options draft context label) :
    (apply tree source operand options).Writes tree (some name) fun octets =>
      draft.Yields context codec options.stream octets ∧ tree.Writable name := by
  obtain ⟨notices, same⟩ := apply_of_prepared prepared
  rw [same, toFile]
  cases options.stream with
  | false => exact writeToFile_writes found
  | true => exact streamToFile_writes found

include labelled

/-- **A command that writes a file** goes through just when it is prepared, there are octets for the file,
and it can be written. -/
theorem apply_through_iff : (apply tree source operand options).ending = .exit 0 ↔
    ∃ draft context octets, Prepared tree source operand options draft context label ∧
      tree.Writable name ∧ draft.Yields context codec options.stream octets := by
  constructor
  · intro through
    obtain ⟨draft, context, encoding, prepared⟩ := exists_prepared_of_apply through
    obtain rfl := prepared.encoding_eq labelled found
    obtain ⟨octets, yields, writable⟩ := (apply_writes toFile found prepared).exists_of_through through
    exact ⟨draft, context, octets, prepared, writable, yields⟩
  · rintro ⟨draft, context, octets, prepared, writable, yields⟩
    exact ((apply_writes toFile found prepared).delivers octets ⟨yields, writable⟩).ending

end Streaming

end Command

/-- **A file written piece by piece.** Let two command lines ask for the same, to apply a script and
to write a file in an encoding, one piece by piece and the other as a whole. Say that a draft is ready if the
command prepares it and the file can be written.

* Either run goes through just when a draft is ready and yields octets, as the chunks of its text, each
  encoded on its own, or as its text, stored as a whole; and the file then holds these octets.
* If the encoding works piece by piece, one run goes through just when the other does, and the two files are
  the same.
* If the encoding is a well-known one, one run goes through just when the other does. The two files are then
  the same just when the encoding has no mark or the text comes in one chunk; none of the chunks is empty. -/
theorem run_streamed [Runtime] {world : World} {streamedLine wholeLine : List Text}
    {verbose verbose' : Bool} {source operand : Operand} {options : ApplyOptions} {name : PathName}
    {label : Text} {codec : Codec}
    (askedStreamed : Request.read streamedLine =
      .request verbose (.apply source operand { options with stream := true }))
    (askedWhole : Request.read wholeLine =
      .request verbose' (.apply source operand { options with stream := false }))
    (toFile : options.output = some name) (labelled : options.encoding = some label)
    (found : Codecs.named label = .ok (.codec codec)) :
    let streamed := (run world streamedLine).2
    let whole := (run world wholeLine).2
    let Ready (draft : Draft) (context : Context) : Prop :=
      Command.Prepared world.tree source operand options draft context label ∧ world.tree.Writable name
    (streamed.ending = .exit 0 ↔ ∃ draft context octets, Ready draft context ∧
      draft.StreamsTo context codec octets) ∧
    (whole.ending = .exit 0 ↔ ∃ draft context octets, Ready draft context ∧
      draft.EncodesTo context codec.store octets) ∧
    (∀ draft context octets, Ready draft context →
      (draft.StreamsTo context codec octets → streamed.tree.readFile name = .ok octets) ∧
      (draft.EncodesTo context codec.store octets → whole.tree.readFile name = .ok octets)) ∧
    (codec.Piecewise → (streamed.ending = .exit 0 ↔ whole.ending = .exit 0) ∧
      (whole.ending = .exit 0 → streamed.tree.readFile name = whole.tree.readFile name)) ∧
    ∀ charset, Charset.named label = .ok (.charset charset) →
      (streamed.ending = .exit 0 ↔ whole.ending = .exit 0) ∧
      (whole.ending = .exit 0 → ∃ draft context, Ready draft context ∧
        [] ∉ draft.chunks context [] ∧
        (streamed.tree.readFile name = whole.tree.readFile name ↔
          charset.mark = [] ∨ (draft.chunks context []).length = 1)) := by
  intro streamed whole Ready
  have applied : streamed =
      Command.apply world.tree source operand { options with stream := true } :=
    run_of_apply askedStreamed
  have applied' : whole =
      Command.apply world.tree source operand { options with stream := false } :=
    run_of_apply askedWhole
  -- nothing that a command finds out before it writes depends on the way of writing
  have through (stream : Bool) :
      (Command.apply world.tree source operand { options with stream }).ending = .exit 0 ↔
        ∃ draft context octets, Ready draft context ∧ draft.Yields context codec stream octets := by
    refine (Command.apply_through_iff (by exact toFile) (by exact labelled) found).trans ⟨?_, ?_⟩
    · rintro ⟨draft, context, octets, prepared, writable, yields⟩
      exact ⟨draft, context, octets, ⟨prepared.withStream options.stream, writable⟩, yields⟩
    · rintro ⟨draft, context, octets, ⟨prepared, writable⟩, yields⟩
      exact ⟨draft, context, octets, prepared.withStream stream, writable, yields⟩
  have file (stream : Bool) {draft : Draft} {context : Context} {octets : Bytes}
      (ready : Ready draft context) (yields : draft.Yields context codec stream octets) :
      (Command.apply world.tree source operand { options with stream }).tree.readFile name =
        .ok octets := by
    have writes := Command.apply_writes (by exact toFile) found (ready.1.withStream stream)
    exact Tree.readFile_of_writeFile (writes.delivers octets ⟨yields, ready.2⟩).2.2
  rw [applied, applied']
  refine ⟨through true, through false, fun draft context octets ready => ⟨file true ready, file false ready⟩,
    fun piecewise => ⟨?_, fun ending => ?_⟩, fun charset known => ?_⟩
  · have swap {draft : Draft} {context : Context} {octets : Bytes} (stream : Bool) :
        draft.Yields context codec stream octets ↔ draft.Yields context codec (!stream) octets :=
      Draft.yields_iff_of_piecewise piecewise stream
    rw [through true, through false]
    exact exists₃_congr fun _ _ _ => and_congr_right fun _ => swap true
  · obtain ⟨draft, context, octets, ready, yields⟩ := (through false).mp ending
    rw [file true ready ((Draft.yields_iff_of_piecewise piecewise true).mpr yields), file false ready yields]
  · obtain rfl : codec = charset.codec := by
      have same := found.symm.trans (Codecs.named_charset known)
      exact Codec.Named.codec.inj (Except.ok.inj same)
    have possible (stream : Bool) :
        (Command.apply world.tree source operand { options with stream }).ending = .exit 0 ↔
          ∃ draft context, Ready draft context ∧ draft.Encodable context charset := by
      rw [through stream]
      refine exists₂_congr fun draft context => ?_
      rw [exists_and_left, Draft.exists_yields_charset_iff]
    refine ⟨(possible true).trans (possible false).symm, fun ending => ?_⟩
    obtain ⟨draft, context, ready, encodable⟩ := (possible false).mp ending
    obtain ⟨octets, yields⟩ := (Draft.exists_yields_charset_iff true).mpr encodable
    obtain ⟨other, yields'⟩ := (Draft.exists_yields_charset_iff false).mpr encodable
    obtain ⟨chars, script, -, -, within, same⟩ := Command.draftOf_ok_iff.mp ready.1.drafted
    refine ⟨draft, context, ready, ?_, ?_⟩
    · rw [same]
      exact Draft.chunks_ne_nil (Script.within_draftOver within)
    · rw [file true ready yields, file false ready yields', Except.ok.injEq]
      exact Draft.yields_charset_eq_iff yields yields'

/-- A source, and a script with an insertion between its two characters. -/
def insertionTree : Tree :=
  [([Charset.utf8.row "s.txt"], .file (Charset.utf8.row "ab")),
    ([Charset.utf8.row "e.json"],
      .file (Charset.utf8.row "[\x7b\"start\": 1, \"text\": \"X\"\x7d]"))]

/-- A command line that writes a file as a whole in an encoding. -/
def wholeLine (label : Text) : List Text :=
  ["apply", "s.txt", "e.json", "-o", "out.txt", "--encoding", label]

/-- The same command line, but for writing piece by piece. -/
def streamedLine (label : Text) : List Text := (wholeLine label).concat "--stream"

theorem run_streamed_insertion :
    Charset.utf16Little.mark = [] ∧
      (run ⟨insertionTree, none⟩ (wholeLine "UTF-16LE")).2.ending = .exit 0 ∧
      (run ⟨insertionTree, none⟩ (streamedLine "UTF-16LE")).2.tree.readFile ⟨[], ["out.txt"]⟩ =
        (run ⟨insertionTree, none⟩ (wholeLine "UTF-16LE")).2.tree.readFile ⟨[], ["out.txt"]⟩ := by
  let options : ApplyOptions := ⟨some ⟨[], ["out.txt"]⟩, false, some "UTF-16LE", []⟩
  have askedStreamed : Request.read (streamedLine "UTF-16LE") = .request false
      (.apply (some ⟨[], ["s.txt"]⟩) (some ⟨[], ["e.json"]⟩) { options with stream := true }) := by
    decide +kernel
  have askedWhole : Request.read (wholeLine "UTF-16LE") = .request false
      (.apply (some ⟨[], ["s.txt"]⟩) (some ⟨[], ["e.json"]⟩) { options with stream := false }) := by
    decide +kernel
  have through : (run ⟨insertionTree, none⟩ (wholeLine "UTF-16LE")).2.ending = .exit 0 := by
    decide +kernel
  have known : Charset.named "UTF-16LE" = .ok (.charset .utf16Little) := rfl
  obtain ⟨-, -, -, files, -⟩ := @run_streamed _ ⟨insertionTree, none⟩ _ _ _ _ _ _ options _ _ _
    askedStreamed askedWhole rfl rfl (Codecs.named_charset known)
  exact ⟨rfl, through, (files (Charset.piecewise_iff.mpr rfl)).2 through⟩

/-- **A file with three marks in it**: one in front of each chunk. As a whole it has one. -/
theorem run_streamed_ne :
    (run ⟨insertionTree, none⟩ (streamedLine "utf-16")).2.ending = .exit 0 ∧
      (run ⟨insertionTree, none⟩ (wholeLine "utf-16")).2.ending = .exit 0 ∧
      (run ⟨insertionTree, none⟩ (streamedLine "utf-16")).2.tree.readFile ⟨[], ["out.txt"]⟩ =
        .ok [0xFF, 0xFE, 0x61, 0, 0xFF, 0xFE, 0x58, 0, 0xFF, 0xFE, 0x62, 0] ∧
      (run ⟨insertionTree, none⟩ (wholeLine "utf-16")).2.tree.readFile ⟨[], ["out.txt"]⟩ =
        .ok [0xFF, 0xFE, 0x61, 0, 0x58, 0, 0x62, 0] := by
  decide +kernel

end Splice
