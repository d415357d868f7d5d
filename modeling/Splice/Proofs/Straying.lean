/-
**Ranges that do not lie in the text, of any size.**

Offsets and lengths are integers without bound. Three checks compare a range with the text: one in front
of every registration, one for the part that a template takes with it, and one for reading. Whatever the
numbers are, a range that does not lie in the text is refused and leaves the session as it was. The
refusal writes the two ends of the range, and so it names them only as long as both are short enough to
be written. A document gives no longer number itself, but the length of an entry may lead one digit
further.

* `Session.register_of_stray`, `Session.refuses_strays`: every operation that is given a range;
* `Session.load_unreported`: a document whose range is refused without its ends.
-/

import Splice.Proofs.Magnitudes
import Splice.Standard.Runtime

namespace Splice

namespace Session

variable {session : Session}

theorem register_of_stray {start length : Int} (replacement : Replacement)
    (stray : (Span.directed start length).within session.draft.text.length = false) :
    session.register start length replacement =
      ⟨session, [], .error (.outside (.directed start length) session.draft.text.length)⟩ := by
  rw [register, registerSpan_eq, if_neg (Bool.not_eq_true _ ▸ stray)]

/-- **Every range that does not lie in the text is refused**, however large its numbers are and in
whatever state a session is. Take any start and any signed length.

* If the range between the start and the offset that the length leads to does not lie in the text, no
  edit of it is registered, neither with a replacement of any kind, nor with a text, nor for a removal,
  nor by an entry with this start and reach: the range and the size of the text are reported as long as
  both ends can be written, and the session is as it was.
* If the start or the length is negative or the length leads behind the text, nothing is read, and the
  same is reported of the two offsets as they are.
* If the first stray range in the script of a document is that of an entry, loading the script reports
  this range as long as the offset to which the length leads can be written, and leaves what the entries
  before it leave. This offset can be written unless the entry has a length and no end. -/
theorem refuses_strays [Objects] [Limits] [Schema] (session : Session) (start length : Int) :
    let size := session.draft.text.length
    let refusal (span : Span) : Failure :=
      if writable span.start && writable span.stop then .range span size else .tooManyDigits
    let span : Span := ⟨min start (start + length), max start (start + length)⟩
    (¬ (0 ≤ span.start ∧ span.stop ≤ size) →
      (∀ replacement, session.register start length replacement =
        ⟨session, [], .error (refusal span)⟩) ∧
      (∀ text, session.replace start length text = ⟨session, [], .error (refusal span)⟩) ∧
      session.delete start length = ⟨session, [], .error (refusal span)⟩ ∧
      ∀ entry : Entry, entry.start = start → entry.reach = length →
        session.load [entry] = ⟨session, [], .error (refusal span)⟩) ∧
    (start < 0 ∨ length < 0 ∨ size < start + length →
      session.read start length = .error (refusal ⟨start, start + length⟩)) ∧
    ∀ (document : Text) (front back : Script) (entry : Entry),
      Script.parse document = .ok (front ++ entry :: back) →
      (∀ earlier ∈ front, earlier.InText size) → ¬ entry.InText size →
        let stop := entry.start + entry.reach
        let reply := session.load (front ++ entry :: back)
        reply.session = (session.load front).session ∧
          reply.result = .error (if writable stop then
            .range ⟨min entry.start stop, max entry.start stop⟩ size else .tooManyDigits) ∧
          (writable stop = false → entry.length.isSome = true ∧ entry.stop = none) := by
  intro size refusal span
  refine ⟨fun outside => ?_, fun outside => if_pos outside, fun document front back entry parsed
    inside outside => ?_⟩
  · have stray : (Span.directed start length).within size = false :=
      Bool.not_eq_true _ ▸ fun within => outside (Span.within_directed_iff.mp within)
    have registered (replacement : Replacement) : session.register start length replacement =
        ⟨session, [], .error (refusal span)⟩ := register_of_stray replacement stray
    refine ⟨registered, fun text => registered (.fixed text), registered (.fixed []), ?_⟩
    rintro entry rfl rfl
    exact (load_singleton session entry).trans (if_neg (Bool.not_eq_true _ ▸ stray))
  · intro stop reply
    have within : ∀ earlier ∈ front, earlier.span.within size = true :=
      fun earlier member => Entry.inText_iff.mp (inside earlier member)
    have stray : entry.span.within size = false :=
      Bool.not_eq_true _ ▸ fun within => outside (Entry.inText_iff.mpr within)
    have stopped : reply = _ := load_of_stray within stray
    obtain ⟨numbers, opened⟩ := Script.writable_of_parse parsed entry
      (List.mem_append_right _ List.mem_cons_self)
    have starts : writable entry.start = true := numbers _ List.mem_cons_self
    rw [stopped]
    exact ⟨rfl, congrArg Except.error (Failure.outside_directed_of_writable starts size), opened⟩

/-- The largest integer that can be written. -/
@[irreducible]
def greatest : Int := (Nat.pow 10 digitLimit - 1 : Nat)

theorem exists_greatest_eq : ∃ power : Nat, power = Nat.pow 10 digitLimit ∧ 10 ≤ power ∧
    greatest = (power - 1 : Nat) := by
  have ten : Nat.pow 10 1 ≤ Nat.pow 10 digitLimit := pow_ten_le (by decide)
  unfold greatest
  exact ⟨_, rfl, ten, rfl⟩

theorem three_lt_greatest : 3 < greatest := by
  obtain ⟨power, -, ten, same⟩ := exists_greatest_eq
  omega

theorem writable_greatest : writable greatest = true := by
  obtain ⟨power, whole, ten, same⟩ := exists_greatest_eq
  rw [writable_iff, ← whole]
  omega

theorem not_writable_greatest_add_one : writable (greatest + 1) = false := by
  obtain ⟨power, whole, ten, same⟩ := exists_greatest_eq
  refine Bool.not_eq_true _ ▸ fun short => ?_
  rw [writable_iff, ← whole] at short
  omega

/-- A range from in front of the text to as far behind it as can be written, and a document with an
entry for it behind another one. -/
theorem refuses_strays_far :
    let script : Script := [⟨0, some 1, none, [], false⟩, ⟨greatest, none, some (-1), [], true⟩]
    (¬ (0 ≤ min greatest (greatest + (-greatest - 1)) ∧
        max greatest (greatest + (-greatest - 1)) ≤ (6 : Nat))) ∧
      begunSession.delete greatest (-greatest - 1) =
        ⟨begunSession, [], .error (.range ⟨-1, greatest⟩ 6)⟩ ∧
      begunSession.read (-1) (greatest + 1) = .error (.range ⟨-1, greatest⟩ 6) ∧
      Script.parse (Json.spell script.value) = .ok script ∧
      (begunSession.load script).result = .error (.range ⟨-1, greatest⟩ 6) := by
  intro script
  have positive := three_lt_greatest
  have zero : writable 0 = true := Standard.writable_of_isWord (by decide)
  have one : writable 1 = true := Standard.writable_of_isWord (by decide)
  have minus : writable (-1) = true := Standard.writable_of_isWord (by decide)
  have back : min greatest (greatest + (-greatest - 1)) = -1 := by omega
  have ahead : max greatest (greatest + (-greatest - 1)) = greatest := by omega
  have refusal : Failure.outside ⟨-1, greatest⟩ 6 = .range ⟨-1, greatest⟩ 6 :=
    if_pos (by rw [minus, writable_greatest]; rfl)
  have outside : ¬ (0 ≤ min greatest (greatest + (-greatest - 1)) ∧
      max greatest (greatest + (-greatest - 1)) ≤ (6 : Nat)) := by omega
  have parsed : Script.parse (Json.spell script.value) = .ok script := by
    refine Script.parse_spell_value (by simp [script, Entry.disagreement?]) ?_
    simp [script, Entry.numbers, zero, one, minus, writable_greatest]
  obtain ⟨registering, reading, loading⟩ := refuses_strays begunSession greatest (-greatest - 1)
  refine ⟨outside, ?_, ?_, parsed, ?_⟩
  · obtain ⟨-, -, deleted, -⟩ := registering outside
    rw [deleted, ← refusal, back, ahead]
    rfl
  · have toStop : -1 + (greatest + 1) = greatest := by omega
    rw [(refuses_strays begunSession (-1) (greatest + 1)).2.1 (Or.inl (by decide)), ← refusal, toStop]
    rfl
  · have toStop : greatest + (-1 - greatest) = -1 := by omega
    have stray : ¬ Entry.InText 6 ⟨greatest, none, some (-1), [], true⟩ := by
      show ¬ (0 ≤ min greatest (greatest + (-1 - greatest)) ∧ _)
      omega
    obtain ⟨-, reported, -⟩ := loading _ [⟨0, some 1, none, [], false⟩] [] _ parsed (by decide) stray
    refine reported.trans (congrArg Except.error ?_)
    show (if writable (greatest + (-1 - greatest)) then
      Failure.range ⟨min greatest (greatest + (-1 - greatest)),
        max greatest (greatest + (-1 - greatest))⟩ 6 else .tooManyDigits) = _
    rw [toStop, if_pos minus, min_eq_right (by omega), max_eq_left (by omega)]

/-- An entry whose length leads from the largest integer that can be written to one more. Its document
is accepted, and its range does not lie in the text, but what is reported is not the range: neither
where the entry is loaded nor where the same range is registered or read. -/
theorem load_unreported :
    let entry : Entry := ⟨greatest, some 1, none, [], false⟩
    Script.parse (Json.spell (Script.value [entry])) = .ok [entry] ∧ ¬ entry.InText 3 ∧
      (ofText "abc").load [entry] = ⟨ofText "abc", [], .error .tooManyDigits⟩ ∧
      (∀ text, (ofText "abc").replace greatest 1 text =
        ⟨ofText "abc", [], .error .tooManyDigits⟩) ∧
      (ofText "abc").read greatest 1 = .error .tooManyDigits := by
  intro entry
  have one : writable 1 = true := Standard.writable_of_isWord (by decide)
  have long := not_writable_greatest_add_one
  have large := three_lt_greatest
  have outside : ¬ entry.InText 3 := by
    show ¬ (0 ≤ min greatest (greatest + 1) ∧ max greatest (greatest + 1) ≤ (3 : Nat))
    omega
  have stray : entry.span.within 3 = false :=
    Bool.not_eq_true _ ▸ fun within => outside (Entry.inText_iff.mpr within)
  have unreported : Failure.outside entry.span 3 = .tooManyDigits :=
    (Failure.outside_directed_of_writable writable_greatest 3).trans (if_neg (Bool.not_eq_true _ ▸ long))
  refine ⟨?_, outside, ?_, fun text => ?_, ?_⟩
  · refine Script.parse_spell_value (by simp [entry, Entry.disagreement?]) ?_
    simp [entry, Entry.numbers, one, writable_greatest]
  · rw [← unreported]
    exact (load_singleton (ofText "abc") entry).trans (if_neg (Bool.not_eq_true _ ▸ stray))
  · rw [← unreported]
    exact @register_of_stray (ofText "abc") greatest 1 (.fixed text) stray
  · have behind : (3 : Nat) < greatest + 1 := by omega
    have written : Failure.outside ⟨greatest, greatest + 1⟩ 3 = .tooManyDigits :=
      if_neg (by rw [long, Bool.and_false]; exact Bool.false_ne_true)
    rw [← written]
    exact if_pos (Or.inr (Or.inr behind))

end Session

end Splice
