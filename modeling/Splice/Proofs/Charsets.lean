/-
**Encodings work code point by code point.**

Apart from the byte-order mark in front, an encoding writes each code point on its own, up to the
first one that it has no octets for. Texts one after another can therefore be encoded in one piece or
piece by piece, and where encoding fails, it fails at the same code point both times.

* `Charset.Covers`, `Charset.row`: every code point has octets, and the octets one after another;
* `Charset.encode_ok_iff`, `Charset.encode_error_iff`: when a text can be encoded, and where it
  cannot be;
* `Charset.encode_flatten_error`: the fault of texts in one piece is that of one of them.
-/

import Mathlib
import Splice.Encoding.Name

namespace Splice

namespace Charset

/-- Every code point of the text has octets. -/
def Covers (charset : Charset) (text : Text) : Prop :=
  ∀ point ∈ text, (charset.octets? point).isSome = true

instance (charset : Charset) (text : Text) : Decidable (charset.Covers text) :=
  inferInstanceAs (Decidable (∀ point ∈ text, (charset.octets? point).isSome = true))

theorem isSome_ascii_iff {char : Char} :
    (ascii.octets? (.scalar char)).isSome = true ↔ char.toNat < 0x80 := by
  by_cases small : char.toNat < 0x80
  · simp [octets?, octet?, small]
  · simp [octets?, octet?, small]

/-- The octets of the code points of a text, one after another. -/
def row (charset : Charset) (text : Text) : Bytes :=
  text.flatMap fun point => (charset.octets? point).getD []

variable {charset : Charset} {text first second : Text} {point : CodePoint} {fault : Fault}

/-! ### Parts of a text -/

theorem covers_flatten {texts : List Text} :
    charset.Covers texts.flatten ↔ ∀ text ∈ texts, charset.Covers text := by
  unfold Covers
  simp only [List.mem_flatten]
  exact ⟨fun all text member point inside => all point ⟨text, member, inside⟩,
    fun all point ⟨text, member, inside⟩ => all text member point inside⟩

theorem row_append (charset : Charset) (first second : Text) :
    charset.row (first ++ second) = charset.row first ++ charset.row second :=
  List.flatMap_append

theorem row_flatten (charset : Charset) (texts : List Text) :
    charset.row texts.flatten = texts.flatMap charset.row := by
  induction texts with
  | nil => rfl
  | cons text rest ih => rw [List.flatten_cons, row_append, ih, List.flatMap_cons]

/-- A text is covered, or there is a first code point in it that has no octets. -/
theorem covers_or_bare (charset : Charset) (text : Text) : charset.Covers text ∨
    ∃ front point back, text = front ++ point :: back ∧ charset.Covers front ∧
      charset.octets? point = none := by
  induction text with
  | nil => exact Or.inl fun _ member => (List.not_mem_nil member).elim
  | cons head rest ih =>
    cases written : charset.octets? head with
    | none =>
      exact Or.inr ⟨[], head, rest, rfl, fun _ member => (List.not_mem_nil member).elim, written⟩
    | some octets =>
      have here : (charset.octets? head).isSome = true := by rw [written]; rfl
      rcases ih with covered | ⟨front, point, back, rfl, covered, bare⟩
      · exact Or.inl (List.forall_mem_cons.mpr ⟨here, covered⟩)
      · exact Or.inr ⟨head :: front, point, back, rfl, List.forall_mem_cons.mpr ⟨here, covered⟩, bare⟩

theorem not_covers_of_bare {front back : Text} (bare : charset.octets? point = none) :
    ¬ charset.Covers (front ++ point :: back) := by
  intro covered
  have here := covered point (List.mem_append_right _ List.mem_cons_self)
  rw [bare] at here
  cases here

/-! ### Encoding -/

/-- Covered code points in front only add their octets. -/
theorem encodeFrom_append {front : Text} (covered : charset.Covers front) (offset : Nat)
    (back : Text) : charset.encodeFrom offset (front ++ back) =
      (charset.encodeFrom (offset + front.length) back).map (charset.row front ++ ·) := by
  induction front generalizing offset with
  | nil =>
    rw [List.nil_append, List.length_nil, Nat.add_zero]
    cases charset.encodeFrom offset back <;> rfl
  | cons head rest ih =>
    obtain ⟨here, others⟩ := List.forall_mem_cons.mp covered
    obtain ⟨octets, written⟩ := Option.isSome_iff_exists.mp here
    have whole : charset.row (head :: rest) = octets ++ charset.row rest := by
      rw [row, List.flatMap_cons, written]
      rfl
    rw [List.cons_append, encodeFrom, written]
    simp only [ih others, whole, List.length_cons, Nat.add_assoc, Nat.add_comm 1]
    cases charset.encodeFrom (offset + (rest.length + 1)) back with
    | error fault => rfl
    | ok octets' => exact congrArg Except.ok (List.append_assoc _ _ _).symm

theorem encodeFrom_of_covers (covered : charset.Covers text) (offset : Nat) :
    charset.encodeFrom offset text = .ok (charset.row text) := by
  have whole := encodeFrom_append covered offset []
  rw [List.append_nil] at whole
  rw [whole]
  exact congrArg Except.ok (List.append_nil _)

/-- The fault at a code point that has no octets, when another text follows. -/
def faultAt (charset : Charset) (point : CodePoint) (offset : Nat) (back : Text) : Fault :=
  ⟨charset, point, offset,
    (if charset.reportsRuns then (back.takeWhile (charset.octets? · |>.isNone)).length else 0) + 1⟩

/-- Encoding goes on up to the first code point that has no octets. -/
theorem encodeFrom_of_bare {front back : Text} (covered : charset.Covers front)
    (bare : charset.octets? point = none) (offset : Nat) :
    charset.encodeFrom offset (front ++ point :: back) =
      .error (charset.faultAt point (offset + front.length) back) := by
  rw [encodeFrom_append covered, encodeFrom, bare]
  rfl

theorem encode_of_covers (covered : charset.Covers text) :
    charset.encode text = .ok (charset.mark ++ charset.row text) := by
  rw [encode, encodeFrom_of_covers covered]
  rfl

theorem encode_of_bare {front back : Text} (covered : charset.Covers front)
    (bare : charset.octets? point = none) :
    charset.encode (front ++ point :: back) =
      .error (charset.faultAt point front.length back) := by
  rw [encode, encodeFrom_of_bare covered bare, Nat.zero_add]
  rfl

/-- **What encoding gives**: the mark and the octets of all code points. -/
theorem encode_ok_iff {octets : Bytes} : charset.encode text = .ok octets ↔
    charset.Covers text ∧ octets = charset.mark ++ charset.row text := by
  rcases charset.covers_or_bare text with covered | ⟨front, point, back, rfl, covered, bare⟩
  · rw [encode_of_covers covered, Except.ok.injEq, and_iff_right covered]
    exact eq_comm
  · rw [encode_of_bare covered bare]
    exact ⟨nofun, fun both => (not_covers_of_bare bare both.1).elim⟩

/-- **Where encoding fails**: at the first code point that has no octets. -/
theorem encode_error_iff : charset.encode text = .error fault ↔
    ∃ front point back, text = front ++ point :: back ∧ charset.Covers front ∧
      charset.octets? point = none ∧ fault = charset.faultAt point front.length back := by
  constructor
  · intro failed
    rcases charset.covers_or_bare text with covered | ⟨front, point, back, rfl, covered, bare⟩
    · rw [encode_of_covers covered] at failed
      cases failed
    · rw [encode_of_bare covered bare] at failed
      exact ⟨front, point, back, rfl, covered, bare, (Except.error.inj failed).symm⟩
  · rintro ⟨front, point, back, rfl, covered, bare, rfl⟩
    exact encode_of_bare covered bare

theorem encodeFrom_flatten_error {texts : List Text} {offset : Nat}
    (failed : charset.encodeFrom offset texts.flatten = .error fault) :
    ∃ front text back fault', texts = front ++ text :: back ∧
      (∀ other ∈ front, charset.Covers other) ∧ charset.encode text = .error fault' ∧
      fault.point = fault'.point ∧ fault.first = offset + front.flatten.length + fault'.first := by
  induction texts generalizing offset with
  | nil => cases failed
  | cons head rest ih =>
    rw [List.flatten_cons] at failed
    -- the fault lies in the first text, or behind it in the others
    rcases charset.covers_or_bare head with covered | ⟨before, point, after, rfl, covered, bare⟩
    · rw [encodeFrom_append covered] at failed
      have later : charset.encodeFrom (offset + head.length) rest.flatten = .error fault := by
        cases others : charset.encodeFrom (offset + head.length) rest.flatten with
        | error other =>
          rw [others] at failed
          exact congrArg Except.error (Except.error.inj failed)
        | ok octets =>
          rw [others] at failed
          cases failed
      obtain ⟨front, text, back, fault', rfl, covers, fails, same, first⟩ := ih later
      refine ⟨head :: front, text, back, fault', rfl, List.forall_mem_cons.mpr ⟨covered, covers⟩,
        fails, same, ?_⟩
      rw [first, List.flatten_cons, List.length_append, Nat.add_assoc offset]
    · rw [List.append_assoc, List.cons_append, encodeFrom_of_bare covered bare] at failed
      obtain rfl := Except.error.inj failed
      exact ⟨[], _, rest, _, rfl, fun _ member => (List.not_mem_nil member).elim,
        encode_of_bare covered bare, rfl, rfl⟩

/-- **Texts in one piece** cannot be encoded just when one of them cannot be, and the first one that
cannot be gives the fault, counted from its own start. -/
theorem encode_flatten_error {texts : List Text}
    (failed : charset.encode texts.flatten = .error fault) :
    ∃ front text back fault', texts = front ++ text :: back ∧
      (∀ other ∈ front, charset.Covers other) ∧ charset.encode text = .error fault' ∧
      fault.point = fault'.point ∧ fault.first = front.flatten.length + fault'.first := by
  rw [encode] at failed
  cases encoded : charset.encodeFrom 0 texts.flatten with
  | ok octets =>
    rw [encoded] at failed
    cases failed
  | error other =>
    rw [encoded] at failed
    obtain rfl := Except.error.inj failed
    have first := encodeFrom_flatten_error encoded
    simpa only [Nat.zero_add] using first

end Charset

end Splice
