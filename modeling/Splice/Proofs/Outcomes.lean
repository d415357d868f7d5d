/-
**Computations that may fail.**

A computation in two steps fails where one of its steps does. What holds of every fault of the steps holds
of every fault of the whole, so what a function can fail with is put together from what its parts can fail
with.

* `bind_ok_iff`, `bind_error_iff`, `map_eq_ok_iff`, `map_eq_error_iff`: the outcomes of two steps, and of a
  step that cannot fail behind another;
* `Raises`: a property of every fault with which a computation ends;
* `Raises.bind`, `raises_guard`: steps one after another, and a check in front.
-/

import Mathlib

namespace Splice

theorem eq_ok_of_toOption {Fault Result : Type} {outcome : Except Fault Result} {result : Result}
    (found : outcome.toOption = some result) : outcome = .ok result := by
  cases outcome with
  | error fault => cases found
  | ok other => exact congrArg Except.ok (Option.some.inj found)

/-! ### Steps -/

theorem map_eq_ok_iff {Fault Result Other : Type} {outcome : Except Fault Result}
    {change : Result → Other} {value : Other} :
    outcome.map change = .ok value ↔ ∃ result, outcome = .ok result ∧ change result = value := by
  cases outcome with
  | error fault => exact ⟨nofun, nofun⟩
  | ok result => simp [Except.map]

theorem map_eq_error_iff {Fault Result Other : Type} {outcome : Except Fault Result}
    {change : Result → Other} {fault : Fault} :
    outcome.map change = .error fault ↔ outcome = .error fault := by
  cases outcome <;> simp [Except.map]

section Steps

variable {Fault First Second : Type} {first : Except Fault First} {second : First → Except Fault Second}

/-- A sequence of two steps gives a value if both do. -/
theorem bind_ok_iff {value : Second} :
    (first >>= second) = .ok value ↔ ∃ middle, first = .ok middle ∧ second middle = .ok value := by
  cases first with
  | error fault => exact ⟨nofun, nofun⟩
  | ok middle =>
    refine ⟨fun same => ⟨middle, rfl, same⟩, ?_⟩
    rintro ⟨_, ⟨⟩, same⟩
    exact same

/-- A sequence of two steps fails if the first one does, or the second one behind it. -/
theorem bind_error_iff {fault : Fault} :
    (first >>= second) = .error fault ↔
      first = .error fault ∨ ∃ middle, first = .ok middle ∧ second middle = .error fault := by
  cases first with
  | error other =>
    refine ⟨fun same => Or.inl (congrArg Except.error (Except.error.inj same)), ?_⟩
    rintro (same | ⟨_, ⟨⟩, -⟩)
    exact congrArg Except.error (Except.error.inj same)
  | ok middle =>
    refine ⟨fun same => Or.inr ⟨middle, rfl, same⟩, ?_⟩
    rintro (⟨⟨⟩⟩ | ⟨_, ⟨⟩, same⟩)
    exact same

end Steps

/-! ### Faults -/

/-- Every fault with which a computation ends has the property. -/
def Raises {Fault Result : Type} (property : Fault → Prop) (outcome : Except Fault Result) : Prop :=
  ∀ fault, outcome = .error fault → property fault

section Raises

variable {Fault Result Other : Type} {property : Fault → Prop} {outcome : Except Fault Result}
  {fault : Fault}

theorem raises_ok (value : Result) : Raises property (.ok value) := nofun

theorem raises_pure (value : Result) : Raises property (pure value : Except Fault Result) := nofun

theorem raises_error (holds : property fault) :
    Raises property (.error fault : Except Fault Result) := by
  rintro _ ⟨⟩
  exact holds

theorem Raises.imp {weaker : Fault → Prop} (raises : Raises property outcome)
    (weakens : ∀ fault, property fault → weaker fault) : Raises weaker outcome :=
  fun fault failed => weakens fault (raises fault failed)

/-- **Steps one after another** raise what the first one raises, or what the others raise behind it. -/
theorem Raises.bind {next : Result → Except Fault Other} (first : Raises property outcome)
    (others : ∀ value, outcome = .ok value → Raises property (next value)) :
    Raises property (outcome >>= next) := by
  intro fault failed
  rcases bind_error_iff.mp failed with here | ⟨value, holds, later⟩
  · exact first fault here
  · exact others value holds fault later

/-- A check in front of a computation raises its own fault, or what the computation raises. -/
theorem raises_guard {condition : Prop} [Decidable condition] {next : Unit → Except Fault Result}
    (holds : property fault) (others : ¬ condition → Raises property outcome) :
    Raises property (if condition then throw fault >>= next else outcome) := by
  split
  · exact raises_error holds
  · exact others ‹_›

end Raises

end Splice
