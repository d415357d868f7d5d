/-
**Deliveries in an encoding.**

A delivery encodes each chunk on its own and writes the octets. It fails at the first chunk that cannot
be encoded, unless a replacement fails before, and otherwise writes what the encoding makes of every
chunk, whatever the encoding is. With a well-known encoding, this is the octets of its code points with
the byte-order mark in front. If there is no mark, the octets written are those of the whole text, and
where the whole text cannot be encoded, the delivery stops at the same code point.

* `Codec.Encodes`: texts and their rows of octets;
* `chunkOf_eq`: a chunk in the encoding of a name;
* `Draft.deliverTo_of_encodes`, `Draft.deliverTo_of_fails`: a delivery that encodes every chunk, and
  one that comes to a chunk it cannot encode;
* `Draft.delivery_encodes_text`: a delivery beside the encoding of the whole text.
-/

import Mathlib
import Splice.Proofs.Agreement
import Splice.Proofs.Charsets
import Splice.Command.Run

namespace Splice

/-! ### Rows of octets -/

/-- Texts and their rows of octets in an encoding, each on its own. -/
abbrev Codec.Encodes (codec : Codec) : List Text → List Bytes → Prop :=
  List.Forall₂ fun text row => codec.encode text = .ok row

/-- An encoding has rows for all texts, or for all in front of one for which it has none. -/
theorem Codec.encodes_or_fails (codec : Codec) (texts : List Text) :
    (∃ rows, codec.Encodes texts rows) ∨ ∃ front text back rows fault,
      texts = front ++ text :: back ∧ codec.Encodes front rows ∧ codec.encode text = .error fault := by
  induction texts with
  | nil => exact Or.inl ⟨[], .nil⟩
  | cons text rest ih =>
    cases encoded : codec.encode text with
    | error fault => exact Or.inr ⟨[], text, rest, [], fault, rfl, .nil, encoded⟩
    | ok row =>
      rcases ih with ⟨rows, all⟩ | ⟨front, next, back, rows, fault, parts, before, fails⟩
      · exact Or.inl ⟨row :: rows, .cons encoded all⟩
      · exact Or.inr ⟨text :: front, next, back, row :: rows, fault, by rw [parts]; rfl,
          .cons encoded before, fails⟩

/-- Texts have one list of rows. -/
theorem Codec.Encodes.unique {codec : Codec} {texts : List Text} {rows others : List Bytes}
    (encoded : codec.Encodes texts rows) (again : codec.Encodes texts others) : rows = others := by
  induction encoded generalizing others with
  | nil =>
    cases again
    rfl
  | cons here _ ih =>
    cases again with
    | cons there rest =>
      obtain rfl := Except.ok.inj (here.symm.trans there)
      rw [ih rest]

/-- A text that cannot be encoded is not among texts that all have rows. -/
theorem Codec.Encodes.not_fails {codec : Codec} {front back : List Text} {text : Text}
    {rows : List Bytes} {fault : Codec.Fault} (encoded : codec.Encodes (front ++ text :: back) rows)
    (fails : codec.encode text = .error fault) : False := by
  induction front generalizing rows with
  | nil =>
    cases encoded with
    | cons here _ =>
      rw [fails] at here
      cases here
  | cons other front ih =>
    cases encoded with
    | cons _ rest => exact ih rest

theorem Codec.Encodes.exists_row {codec : Codec} {texts : List Text} {rows : List Bytes}
    (encoded : codec.Encodes texts rows) {text : Text} (member : text ∈ texts) :
    ∃ row, codec.encode text = .ok row := by
  obtain ⟨front, back, rfl⟩ := List.append_of_mem member
  cases here : codec.encode text with
  | error fault => exact (encoded.not_fails here).elim
  | ok row => exact ⟨row, rfl⟩

namespace Charset

variable {charset : Charset} {text : Text}

theorem codec_ok_iff {row : Bytes} : charset.codec.encode text = .ok row ↔
    charset.encode text = .ok row := by
  simp only [codec]
  cases charset.encode text with
  | ok octets => simp only [Except.mapError, Except.ok.injEq]
  | error fault => exact ⟨nofun, nofun⟩

theorem codec_error_iff {fault : Codec.Fault} : charset.codec.encode text = .error fault ↔
    ∃ cause, fault = .range cause ∧ charset.encode text = .error cause := by
  simp only [codec]
  cases charset.encode text with
  | ok octets => exact ⟨nofun, fun ⟨_, _, failed⟩ => nomatch failed⟩
  | error cause =>
    constructor
    · rintro ⟨⟩
      exact ⟨cause, rfl, rfl⟩
    · rintro ⟨_, rfl, ⟨⟩⟩
      rfl

/-- **The row of a text** that is covered is that of its code points, behind the byte-order mark. -/
theorem codec_of_covers (covered : charset.Covers text) :
    charset.codec.encode text = .ok (charset.mark ++ charset.row text) :=
  codec_ok_iff.mpr (encode_of_covers covered)

theorem encodes_of_covers {texts : List Text} (covered : ∀ text ∈ texts, charset.Covers text) :
    charset.codec.Encodes texts (texts.map fun text => charset.mark ++ charset.row text) := by
  refine List.forall₂_map_right_iff.mpr (List.forall₂_same.mpr ?_)
  exact fun text member => codec_of_covers (covered text member)

end Charset

/-! ### Chunks -/

/-- A text as a chunk of octets, its byte-order mark in front. -/
def Charset.chunk (charset : Charset) (text : Text) : Chunk :=
  .octets (charset.mark ++ charset.row text)

/-- The octets that an outlet has taken, when it was handed rows of octets. -/
theorem taken_marksOf (outlet : Outlet) (rows : List Bytes) :
    Command.taken ((rows.map Chunk.octets).flatMap outlet.marksOf) = rows.flatten := by
  unfold Command.taken
  rw [List.flatMap_map, List.flatMap_assoc, List.flatten_eq_flatMap]
  refine List.flatMap_congr fun row _ => ?_
  unfold Outlet.marksOf
  split
  · exact List.append_nil row
  · exact List.append_nil row

/-- Without byte-order marks, the octets of texts are those of the texts in one piece. -/
theorem flatMap_row_of_unmarked {charset : Charset} (unmarked : charset.mark = []) (texts : List Text) :
    (texts.flatMap fun text => charset.mark ++ charset.row text) = charset.row texts.flatten := by
  rw [Charset.row_flatten]
  exact List.flatMap_congr fun text _ => by rw [unmarked, List.nil_append]

section Chunks

variable [Codecs] {name : Text} {codec : Codec} {charset : Charset}

theorem Codecs.ne_nil_of_named (found : Codecs.named name = .ok (.codec codec)) : name ≠ [] := by
  rintro rfl
  rw [Codecs.named_nil] at found
  cases found

theorem Codecs.named_charset (found : Charset.named name = .ok (.charset charset)) :
    Codecs.named name = .ok (.codec charset.codec) := Codecs.named_of_known found

theorem Codecs.ofName_eq (found : Codecs.named name = .ok (.codec codec)) (advice : String) :
    Codecs.ofName name advice = .ok codec := by
  unfold Codecs.ofName
  rw [found]

/-- **A chunk in the encoding of a name.** -/
theorem chunkOf_eq (found : Codecs.named name = .ok (.codec codec)) (text : Text) :
    chunkOf (some name) text =
      ((codec.encode text).map Chunk.octets).mapError Failure.unencodable := by
  cases name with
  | nil => exact (Codecs.ne_nil_of_named found rfl).elim
  | cons first rest =>
    unfold chunkOf
    simp only [Codecs.ofName_eq found]
    cases codec.encode text with
    | error fault => rfl
    | ok row => rfl

theorem chunkOf_of_ok (found : Codecs.named name = .ok (.codec codec)) {text : Text} {row : Bytes}
    (encoded : codec.encode text = .ok row) : chunkOf (some name) text = .ok (.octets row) := by
  rw [chunkOf_eq found, encoded]
  rfl

theorem chunkOf_of_error (found : Codecs.named name = .ok (.codec codec)) {text : Text}
    {fault : Codec.Fault} (failed : codec.encode text = .error fault) :
    chunkOf (some name) text = .error (.unencodable fault) := by
  rw [chunkOf_eq found, failed]
  rfl

theorem Outlet.takes_of_encodes {outlet : Outlet} (accepting : outlet.Accepting)
    (found : Codecs.named name = .ok (.codec codec)) (writes : Nat) {texts : List Text}
    {rows : List Bytes} (encoded : codec.Encodes texts rows) :
    outlet.Takes (some name) writes texts (rows.map .octets) := by
  induction encoded generalizing writes with
  | nil => exact .nil writes
  | cons here _ ih =>
    refine .cons (chunkOf_of_ok found here) (accepting.writes writes) ?_ (ih (writes + 1))
    cases drains : outlet.refusesDrain with
    | none => rfl
    | some refuses => exact accepting.drains refuses drains writes

end Chunks

/-! ### Deliveries -/

namespace Draft

variable {draft : Draft} {context : Context} {history : History} {outlet : Outlet} {text : Text}

/-- Texts come out of an emission only if its edits have a plan. -/
theorem exists_plan_of_chunks {chunk : Text} (member : chunk ∈ draft.chunks context history) :
    ∃ kept, draft.plan.result = .ok kept := by
  unfold chunks at member
  split at member
  · exact (List.not_mem_nil member).elim
  · exact ⟨_, by assumption⟩

section Named

variable [Codecs] {name : Text} {codec : Codec} (accepting : outlet.Accepting)
  (found : Codecs.named name = .ok (.codec codec))

include accepting found

/-- **A delivery that encodes every chunk** is an emission otherwise like that of the text. -/
theorem deliverTo_of_encodes {rows : List Bytes}
    (encoded : codec.Encodes (draft.chunks context history) rows) :
    draft.deliverTo context (some name) outlet history =
      ⟨(draft.render context history).events, (draft.render context history).asked,
        (rows.map Chunk.octets).flatMap outlet.marksOf,
        (draft.render context history).result.map fun _ =>
          (draft.chunks context history).length⟩ := by
  cases planned : draft.plan.result with
  | error clash =>
    rw [deliverTo_of_error planned, render_of_error planned]
    simp only [chunks, planned] at encoded ⊢
    cases encoded
    rfl
  | ok kept =>
    simp only [chunks, planned] at encoded ⊢
    rw [deliverTo_of_takes planned (Outlet.takes_of_encodes accepting found 0 encoded),
      render_eq_course planned]
    simp only [Course.map_outcome, List.length_map]

/-- **A delivery that comes to a chunk it cannot encode** stops there. -/
theorem deliverTo_of_fails {front back : List Text} {chunk : Text} {rows : List Bytes}
    {fault : Codec.Fault} (parts : draft.chunks context history = front ++ chunk :: back)
    (encoded : codec.Encodes front rows) (failed : codec.encode chunk = .error fault) :
    (draft.deliverTo context (some name) outlet history).result = .error (.unencodable fault) ∧
      (draft.deliverTo context (some name) outlet history).marks =
        (rows.map Chunk.octets).flatMap outlet.marksOf := by
  obtain ⟨kept, planned⟩ : ∃ kept, draft.plan.result = .ok kept :=
    exists_plan_of_chunks (parts ▸ List.mem_append_right _ List.mem_cons_self)
  simp only [chunks, planned] at parts
  obtain ⟨before, others, whole, rfl, tail⟩ := List.map_eq_append_iff.mp parts
  obtain ⟨portion, after, rfl, rfl, -⟩ := List.map_eq_cons_iff.mp tail
  rw [deliverTo_of_failed planned whole (Outlet.takes_of_encodes accepting found 0 encoded)
    (Outlet.take_of_unencodable (chunkOf_of_error found failed))]
  exact ⟨rfl, List.append_nil _⟩

/-- **A delivery comes to its end** if the text can be rendered and each of its chunks can be encoded,
and only then. -/
theorem deliverTo_ok_iff :
    (∃ writes, (draft.deliverTo context (some name) outlet history).result = .ok writes) ↔
      (∃ text, (draft.render context history).result = .ok text) ∧
        ∃ rows, codec.Encodes (draft.chunks context history) rows := by
  rcases codec.encodes_or_fails (draft.chunks context history) with
    ⟨rows, encoded⟩ | ⟨front, chunk, back, rows, fault, parts, before, fails⟩
  · rw [deliverTo_of_encodes accepting found encoded]
    constructor
    · rintro ⟨writes, complete⟩
      cases rendered : (draft.render context history).result with
      | error failure =>
        rw [rendered] at complete
        cases complete
      | ok text => exact ⟨⟨text, rfl⟩, rows, encoded⟩
    · rintro ⟨⟨text, rendered⟩, -⟩
      rw [rendered]
      exact ⟨_, rfl⟩
  · rw [(deliverTo_of_fails accepting found parts before fails).1]
    constructor
    · rintro ⟨writes, complete⟩
      cases complete
    · rintro ⟨-, others, all⟩
      rw [parts] at all
      exact (all.not_fails fails).elim

end Named

section Known

variable [Codecs] {name : Text} {charset : Charset} (accepting : outlet.Accepting)
  (found : Charset.named name = .ok (.charset charset))

include accepting found

/-- A delivery in a well-known encoding that covers every chunk. -/
theorem deliverTo_of_covers (covered : ∀ chunk ∈ draft.chunks context history, charset.Covers chunk) :
    draft.deliverTo context (some name) outlet history =
      ⟨(draft.render context history).events, (draft.render context history).asked,
        ((draft.chunks context history).map charset.chunk).flatMap outlet.marksOf,
        (draft.render context history).result.map fun _ =>
          (draft.chunks context history).length⟩ := by
  rw [deliverTo_of_encodes accepting (Codecs.named_charset found)
    (Charset.encodes_of_covers covered), List.map_map]
  rfl

/-- **A delivery beside the encoding of the whole text.** Let all replacements that take effect give
a text, and let the encoding put no byte-order mark anywhere. The outlet, blocking or asynchronous,
is handed the chunks of the text one after another, each in the encoding, and

* comes to its end just when the whole text can be encoded, and fails to encode just when it cannot;
* has then taken the octets of the whole text;
* otherwise has taken the chunks in front of one that cannot be encoded, and the code points of these,
  together with the offset reported in that chunk, are as many as the offset that is reported for the
  whole text. -/
theorem delivery_encodes_text (unmarked : charset.mark = [])
    (rendered : (draft.render context history).result = .ok text) :
    let delivery := draft.deliverTo context (some name) outlet history
    ∃ chunks : List Text,
      (draft.deliverTo context none outlet history).marks =
        (chunks.map Chunk.text).flatMap outlet.marksOf ∧
      text = chunks.flatten ∧
      ((∃ fault, delivery.result = .error (.unencodable fault)) ↔
        ∃ fault, charset.encode text = .error fault) ∧
      (∀ octets, charset.encode text = .ok octets →
        delivery.result = .ok chunks.length ∧ Command.taken delivery.marks = octets) ∧
      ∀ fault, charset.encode text = .error fault →
        ∃ front chunk back fault', chunks = front ++ chunk :: back ∧
          delivery.result = .error (.unencodable (.range fault')) ∧
          delivery.marks = (front.map fun other => .octets (charset.row other)).flatMap
            outlet.marksOf ∧
          charset.encode chunk = .error fault' ∧ fault'.point = fault.point ∧
          front.flatten.length + fault'.first = fault.first := by
  intro delivery
  have plain := deliverTo_eq_render accepting draft context history
  obtain rfl := render_eq_chunks draft context history text rendered
  have named := Codecs.named_charset found
  have complete : ∀ octets, charset.encode (draft.chunks context history).flatten = .ok octets →
      delivery.result = .ok (draft.chunks context history).length ∧
        Command.taken delivery.marks = octets := by
    intro octets encoded
    obtain ⟨covered, rfl⟩ := Charset.encode_ok_iff.mp encoded
    have whole := deliverTo_of_encodes accepting named
      (Charset.encodes_of_covers (Charset.covers_flatten.mp covered))
    rw [rendered] at whole
    refine ⟨congrArg Delivery.result whole, ?_⟩
    rw [show delivery.marks = _ from congrArg Delivery.marks whole, taken_marksOf,
      ← List.flatMap_def, flatMap_row_of_unmarked unmarked, unmarked, List.nil_append]
  have stopped : ∀ fault, charset.encode (draft.chunks context history).flatten = .error fault →
      ∃ front chunk back fault', draft.chunks context history = front ++ chunk :: back ∧
        delivery.result = .error (.unencodable (.range fault')) ∧
        delivery.marks = (front.map fun other => .octets (charset.row other)).flatMap
          outlet.marksOf ∧
        charset.encode chunk = .error fault' ∧ fault'.point = fault.point ∧
        front.flatten.length + fault'.first = fault.first := by
    intro fault failed
    obtain ⟨front, chunk, back, fault', parts, covered, fails, same, first⟩ :=
      Charset.encode_flatten_error failed
    obtain ⟨result, marks⟩ := deliverTo_of_fails accepting named parts
      (Charset.encodes_of_covers covered) (Charset.codec_error_iff.mpr ⟨fault', rfl, fails⟩)
    -- without a mark, the row of a chunk is nothing but the octets of its code points
    simp only [unmarked, List.nil_append, List.map_map] at marks
    exact ⟨front, chunk, back, fault', parts, result, marks, fails, same.symm, first.symm⟩
  refine ⟨draft.chunks context history, congrArg Delivery.marks plain, rfl, ⟨?_, ?_⟩, complete,
    stopped⟩
  · rintro ⟨fault, unencodable⟩
    cases encoded : charset.encode (draft.chunks context history).flatten with
    | error other => exact ⟨other, rfl⟩
    | ok octets =>
      rw [(complete octets encoded).1] at unencodable
      cases unencodable
  · rintro ⟨fault, failed⟩
    obtain ⟨-, -, -, fault', -, result, -⟩ := stopped fault failed
    exact ⟨.range fault', result⟩

end Known

/-- A draft with a currency sign in a replacement and another one right behind it. -/
def pricedDraft : Draft := ⟨"ab€", [⟨⟨1, 2⟩, 1, .fixed "c€"⟩]⟩

theorem delivery_encodes_text_priced :
    (Outlet.async drainingSink).Accepting ∧ Charset.named "L1" = .ok (.charset .latin1) ∧
      Charset.latin1.mark = [] ∧ (pricedDraft.render none []).result = .ok "ac€€" ∧
      Charset.latin1.encode "ac€€" = .error ⟨.latin1, '€', 2, 2⟩ ∧
      (pricedDraft.deliverAsync none (some "L1") drainingSink []).marks =
        [.wrote (.octets [97]), .drained] ∧
      ∃ (front : List Text) (fault : Charset.Fault),
        (pricedDraft.deliverAsync none (some "L1") drainingSink []).marks =
          (front.map fun other => .octets (Charset.latin1.row other)).flatMap
            (Outlet.async drainingSink).marksOf ∧
        (pricedDraft.deliverAsync none (some "L1") drainingSink []).result =
          .error (.unencodable (.range fault)) ∧
        front.flatten.length + fault.first = 2 := by
  have accepting : (Outlet.async drainingSink).Accepting :=
    ⟨fun _ => rfl, fun refuses drains writes => by cases drains; rfl⟩
  have found : Charset.named "L1" = .ok (.charset .latin1) := rfl
  have rendered : (pricedDraft.render none []).result = .ok "ac€€" := by cbv
  have failed : Charset.latin1.encode "ac€€" = .error ⟨.latin1, '€', 2, 2⟩ := by decide
  have wrote : (pricedDraft.deliverAsync none (some "L1") drainingSink []).marks =
      [.wrote (.octets [97]), .drained] := by decide +kernel
  obtain ⟨chunks, -, -, -, -, stopped⟩ := delivery_encodes_text accepting found rfl rendered
  obtain ⟨front, chunk, back, fault, -, result, marks, -, -, first⟩ := stopped _ failed
  exact ⟨accepting, found, rfl, rendered, failed, wrote, front, fault, marks, result, first⟩

end Draft

end Splice
