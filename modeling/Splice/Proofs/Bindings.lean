/-
**The variables that bindings give.**

A command line gives variables in bindings, each a name and a value around an equals sign. The first
equals sign of a binding is the one that counts, so a value may hold more of them, and may be empty; a
name may not. Bindings are taken one after another into one record. The first that has no equals sign or
no name in front of it ends everything and is reported, and of several bindings of one name the last
counts.

* `Variable.Shapeless`, `Variable.parse?_eq_none_iff`: the texts that spell no variable;
* `Variable.LastGives`: the value that the last binding of a name gives it;
* `Variable.Gives.put`, `Variable.Gives.collect`: what a record holds after one binding, and after any
  number of them;
* `Variable.collect_error_iff`: the binding that is reported;
* `Command.contextOf_binds`: the context that bindings give, or what is said instead.
-/

import Splice.Proofs.Documents
import Splice.Proofs.Naming
import Splice.Proofs.Untouched

namespace Splice

/-! ### Records -/

namespace Record

variable {record : Record} {name : Text}

theorem map_fst_put_of_mem (known : name ∈ record.map Prod.fst) (value : Value) :
    (record.put name value).map Prod.fst = record.map Prod.fst := by
  induction record with
  | nil => exact (List.not_mem_nil known).elim
  | cons field rest ih =>
    obtain ⟨other, old⟩ := field
    rw [put]
    split
    · rename_i same
      rw [List.map_cons, List.map_cons, same]
    · rename_i distinct
      rw [List.map_cons, List.map_cons, ih ((List.mem_cons.mp known).resolve_left (Ne.symm distinct))]

/-- Setting a name makes no name stand twice. -/
theorem nodup_put (distinct : (record.map Prod.fst).Nodup) (name : Text) (value : Value) :
    ((record.put name value).map Prod.fst).Nodup := by
  by_cases known : name ∈ record.map Prod.fst
  · rwa [map_fst_put_of_mem known]
  · rw [put_of_not_mem known, List.map_append]
    refine List.nodup_append.mpr ⟨distinct, List.nodup_singleton _, fun other member new here => ?_⟩
    rw [List.mem_singleton.mp here]
    rintro rfl
    exact known member

/-- A name stands in a record just when it has a value there. -/
theorem mem_names_iff : name ∈ record.map Prod.fst ↔ ∃ value, record.find? name = some value := by
  rw [← Option.isSome_iff_exists, find?, List.lookup_isSome_iff, List.mem_map]
  exact exists_congr fun field => and_congr_right fun _ => by rw [beq_iff_eq, eq_comm]

end Record

namespace Variable

/-! ### One binding -/

variable {binding : Text} {pair other : Text × Text}

/-- The text spells no variable: it has no equals sign, or nothing in front of the first. -/
def Shapeless (binding : Text) : Prop :=
  .scalar '=' ∉ binding ∨ binding.head? = some (.scalar '=')

theorem Spells.not_shapeless (spells : Spells (some binding) pair) : ¬ Shapeless binding := by
  obtain ⟨sign, named⟩ := spells.shape
  exact fun shapeless => shapeless.elim (· sign) named

theorem exists_spells (shaped : ¬ Shapeless binding) : ∃ pair, Spells (some binding) pair := by
  obtain ⟨sign, named⟩ := not_or.mp shaped
  obtain ⟨name, value, rfl, absent⟩ := List.eq_append_cons_of_mem (not_not.mp sign)
  refine ⟨(name, value), rfl, ?_, absent⟩
  rintro rfl
  exact named rfl

/-- **What spells no variable**, and nothing else, is not read as one. -/
theorem parse?_eq_none_iff : parse? binding = none ↔ Shapeless binding := by
  constructor
  · intro unread
    by_contra shaped
    obtain ⟨pair, spells⟩ := exists_spells shaped
    rw [parse?_of_spells spells] at unread
    cases unread
  · intro shapeless
    cases read : parse? binding with
    | none => rfl
    | some pair => exact ((spells_of_parse? read).not_shapeless shapeless).elim

/-- A binding spells one name and one value. -/
theorem Spells.unique (spells : Spells (some binding) pair) (spells' : Spells (some binding) other) :
    pair = other :=
  Option.some.inj ((parse?_of_spells spells).symm.trans (parse?_of_spells spells'))

/-! ### Bindings in a row -/

variable {bindings seen : List Text} {record after : Record} {name value : Text}

/-- The last of the bindings that spell the name gives it the value. -/
def LastGives (bindings : List Text) (name value : Text) : Prop :=
  ∃ front binding back, bindings = front ++ binding :: back ∧ Spells (some binding) (name, value) ∧
    ∀ other ∈ back, ∀ value', ¬ Spells (some other) (name, value')

theorem lastGives_concat : LastGives (seen ++ [binding]) name value ↔
    Spells (some binding) (name, value) ∨
      (∀ value', ¬ Spells (some binding) (name, value')) ∧ LastGives seen name value := by
  constructor
  · rintro ⟨front, last, back, same, spells, silent⟩
    rcases List.eq_nil_or_concat' back with rfl | ⟨behind, final, rfl⟩
    · obtain ⟨-, here⟩ := List.append_inj' same rfl
      cases here
      exact Or.inl spells
    · rw [← List.cons_append, ← List.append_assoc] at same
      obtain ⟨rfl, here⟩ := List.append_inj' same rfl
      cases here
      exact Or.inr ⟨silent _ (List.mem_append_right _ (List.mem_singleton_self _)), front, last, behind,
        rfl, spells, fun other member => silent other (List.mem_append_left _ member)⟩
  · rintro (spells | ⟨own, front, last, back, rfl, spells, silent⟩)
    · exact ⟨seen, binding, [], rfl, spells, fun _ member => (List.not_mem_nil member).elim⟩
    · refine ⟨front, last, back ++ [binding], by simp, spells, ?_⟩
      exact List.forall_mem_append.mpr ⟨silent, List.forall_mem_singleton.mpr own⟩

/-- If any of the bindings spells a name, then there is a last one. -/
theorem exists_lastGives (member : binding ∈ bindings) (spells : Spells (some binding) (name, value)) :
    ∃ last, LastGives bindings name last := by
  induction bindings using List.reverseRecOn with
  | nil => exact (List.not_mem_nil member).elim
  | append_singleton front final ih =>
    by_cases own : ∃ last, Spells (some final) (name, last)
    · obtain ⟨last, spells'⟩ := own
      exact ⟨last, lastGives_concat.mpr (Or.inl spells')⟩
    · rcases List.mem_append.mp member with known | new
      · obtain ⟨last, gives⟩ := ih known
        exact ⟨last, lastGives_concat.mpr (Or.inr ⟨not_exists.mp own, gives⟩)⟩
      · obtain rfl := List.mem_singleton.mp new
        exact (own ⟨value, spells⟩).elim

/-- **What a record holds** after bindings: no name twice, and under each name the text that the last
binding of it gives. -/
structure Gives (seen : List Text) (record : Record) : Prop where
  distinct : (record.map Prod.fst).Nodup
  found : ∀ name held, record.find? name = some held ↔
    ∃ value, held = .text value ∧ LastGives seen name value

theorem Gives.start : Gives [] [] := by
  refine ⟨List.nodup_nil, fun name held => ⟨nofun, ?_⟩⟩
  rintro ⟨value, -, front, binding, back, empty, -⟩
  exact (List.append_ne_nil_of_right_ne_nil _ (List.cons_ne_nil _ _) empty.symm).elim

/-- **One binding** sets one name, and leaves the others as they were. -/
theorem Gives.put (gives : Gives seen record) (spells : Spells (some binding) pair) :
    Gives (seen ++ [binding]) (record.put pair.1 (.text pair.2)) := by
  refine ⟨Record.nodup_put gives.distinct _ _, fun name held => ?_⟩
  simp only [lastGives_concat]
  by_cases own : name = pair.1
  · subst own
    rw [Record.find?_put_self, Option.some.injEq]
    constructor
    · rintro rfl
      exact ⟨pair.2, rfl, Or.inl spells⟩
    · rintro ⟨value, rfl, spells' | ⟨silent, -⟩⟩
      · rw [spells.unique spells']
      · exact (silent pair.2 spells).elim
  · have silent (value : Text) : ¬ Spells (some binding) (name, value) := fun spells' =>
      own (congrArg Prod.fst (spells'.unique spells))
    rw [Record.find?_put_of_ne _ _ own, gives.found]
    simp only [silent, not_false_eq_true, implies_true, true_and, false_or]

/-- **Any number of bindings.** -/
theorem Gives.collect (gives : Gives seen record)
    (collected : Variable.collect record (bindings.map some) = .ok after) :
    Gives (seen ++ bindings) after := by
  induction bindings generalizing seen record with
  | nil =>
    obtain rfl := Except.ok.inj collected
    rwa [List.append_nil]
  | cons binding rest ih =>
    rw [List.map_cons, Variable.collect] at collected
    split at collected
    · cases collected
    · rename_i name value read
      rw [← List.singleton_append, ← List.append_assoc]
      exact ih (gives.put (spells_of_parse? read)) collected

/-- **The binding that is reported** is the first that spells no variable. -/
theorem collect_error_iff {fault : Fault} :
    collect record (bindings.map some) = .error fault ↔
      ∃ front binding back, bindings = front ++ binding :: back ∧
        (∀ other ∈ front, ¬ Shapeless other) ∧ Shapeless binding ∧ fault = .shapeless binding := by
  induction bindings generalizing record with
  | nil => exact ⟨nofun, fun ⟨_, _, _, empty, _⟩ =>
      (List.append_ne_nil_of_right_ne_nil _ (List.cons_ne_nil _ _) empty.symm).elim⟩
  | cons binding rest ih =>
    rw [List.map_cons, collect]
    cases read : parse? binding with
    | none =>
      have here := parse?_eq_none_iff.mp read
      constructor
      · intro failed
        exact ⟨[], binding, rest, rfl, fun _ member => (List.not_mem_nil member).elim, here,
          (Except.error.inj failed).symm⟩
      · rintro ⟨front, reported, back, same, shaped, -, rfl⟩
        cases front with
        | nil =>
          cases same
          rfl
        | cons first front =>
          cases same
          exact (shaped _ List.mem_cons_self here).elim
    | some pair =>
      have shaped := (spells_of_parse? read).not_shapeless
      rw [ih]
      constructor
      · rintro ⟨front, reported, back, rfl, others, rest⟩
        exact ⟨binding :: front, reported, back, rfl, List.forall_mem_cons.mpr ⟨shaped, others⟩, rest⟩
      · rintro ⟨front, reported, back, same, others, shapeless, rfl⟩
        cases front with
        | nil =>
          cases same
          exact (shaped shapeless).elim
        | cons first front =>
          cases same
          exact ⟨front, reported, back, rfl, (List.forall_mem_cons.mp others).2, shapeless, rfl⟩

/-- The names of a record are those that a binding spells. -/
theorem Gives.names_iff (gives : Gives seen record) : name ∈ record.map Prod.fst ↔
    ∃ binding ∈ seen, ∃ value, Spells (some binding) (name, value) := by
  rw [Record.mem_names_iff]
  constructor
  · rintro ⟨held, here⟩
    obtain ⟨value, -, front, binding, back, rfl, spells, -⟩ := (gives.found name held).mp here
    exact ⟨binding, List.mem_append_right _ List.mem_cons_self, value, spells⟩
  · rintro ⟨binding, member, value, spells⟩
    obtain ⟨last, given⟩ := exists_lastGives member spells
    exact ⟨.text last, (gives.found name _).mpr ⟨last, rfl, given⟩⟩

end Variable

namespace Command

open Variable (Shapeless Spells LastGives Gives)

variable {bindings : List Text} {halt : Halt}

/-- What is said of bindings names the first that spells no variable. -/
theorem contextOf_error_iff : contextOf (bindings.map some) = .error halt ↔
    ∃ front binding back, bindings = front ++ binding :: back ∧ (∀ other ∈ front, ¬ Shapeless other) ∧
      Shapeless binding ∧
      halt = errorLine (Text.concat ["Expected NAME=VALUE, got '", binding, "'"]) := by
  unfold contextOf Variable.parseAll
  constructor
  · intro failed
    cases collected : Variable.collect [] (bindings.map some) with
    | error fault =>
      obtain ⟨front, binding, back, same, shaped, shapeless, rfl⟩ :=
        Variable.collect_error_iff.mp collected
      rw [collected] at failed
      exact ⟨front, binding, back, same, shaped, shapeless, (Except.error.inj failed).symm⟩
    | ok record =>
      rw [collected] at failed
      cases failed
  · rintro ⟨front, binding, back, same, shaped, shapeless, rfl⟩
    rw [Variable.collect_error_iff.mpr ⟨front, binding, back, same, shaped, shapeless, rfl⟩]

/-- Bindings all of which spell a variable have a context. -/
theorem contextOf_of_shaped (shaped : ∀ binding ∈ bindings, ¬ Shapeless binding) :
    ∃ record, contextOf (bindings.map some) = .ok (some record) ∧ Gives bindings record := by
  unfold contextOf Variable.parseAll
  cases collected : Variable.collect [] (bindings.map some) with
  | error fault =>
    obtain ⟨front, binding, back, rfl, -, shapeless, -⟩ := Variable.collect_error_iff.mp collected
    exact (shaped binding (List.mem_append_right _ List.mem_cons_self) shapeless).elim
  | ok record => exact ⟨record, rfl, Gives.start.collect collected⟩

theorem shaped_of_contextOf {context : Context} (bound : contextOf (bindings.map some) = .ok context) :
    ∀ binding ∈ bindings, ¬ Shapeless binding := by
  intro binding member
  obtain ⟨pair, spells⟩ := spells_of_contextOf bound _ (List.mem_map_of_mem member)
  exact spells.not_shapeless

/-- **The context that bindings give.** For any texts as bindings:

* there is no context just when one of them has no equals sign or begins with one, and then the first
  such text is named;
* otherwise the names of the context are those in front of the first equals sign of a binding, none of
  them twice, and each has everything behind that sign in the last binding of the name;
* so a name that is not empty and has no equals sign is read back with any value behind one, whatever
  else is given, as long as the name does not come again. -/
theorem contextOf_binds (bindings : List Text) :
    let context := contextOf (bindings.map some)
    ((∃ halt, context = .error halt) ↔ ∃ binding ∈ bindings, Shapeless binding) ∧
      (∀ halt, context = .error halt → ∃ front binding back, bindings = front ++ binding :: back ∧
        (∀ other ∈ front, ¬ Shapeless other) ∧ Shapeless binding ∧
        halt = errorLine (Text.concat ["Expected NAME=VALUE, got '", binding, "'"])) ∧
      (∀ given, context = .ok given → ∃ record, given = some record ∧ (record.map Prod.fst).Nodup ∧
        (∀ name, name ∈ record.map Prod.fst ↔
          ∃ binding ∈ bindings, ∃ value, Spells (some binding) (name, value)) ∧
        ∀ name held, record.find? name = some held ↔
          ∃ value, held = .text value ∧ LastGives bindings name value) ∧
      ∀ front back name value, bindings = front ++ (name ++ .scalar '=' :: value) :: back →
        name ≠ [] → .scalar '=' ∉ name → (∀ other ∈ front ++ back, ¬ Shapeless other) →
        (∀ other ∈ back, ∀ value', ¬ Spells (some other) (name, value')) →
        ∃ record, context = .ok (some record) ∧ record.find? name = some (.text value) := by
  intro context
  refine ⟨⟨?_, ?_⟩, fun halt => contextOf_error_iff.mp, fun given bound => ?_, ?_⟩
  · rintro ⟨halt, failed⟩
    obtain ⟨front, binding, back, rfl, -, shapeless, -⟩ := contextOf_error_iff.mp failed
    exact ⟨binding, List.mem_append_right _ List.mem_cons_self, shapeless⟩
  · rintro ⟨binding, member, shapeless⟩
    cases bound : context with
    | error halt => exact ⟨halt, rfl⟩
    | ok given => exact (shaped_of_contextOf bound binding member shapeless).elim
  · obtain ⟨record, bound', gives⟩ := contextOf_of_shaped (shaped_of_contextOf bound)
    exact ⟨record, Except.ok.inj (bound.symm.trans bound'), gives.distinct, fun _ => gives.names_iff,
      gives.found⟩
  · intro front back name value same named absent others silent
    have spells : Spells (some (name ++ .scalar '=' :: value)) (name, value) := ⟨rfl, named, absent⟩
    obtain ⟨before, behind⟩ := List.forall_mem_append.mp others
    have shaped : ∀ binding ∈ bindings, ¬ Shapeless binding := by
      rw [same]
      exact List.forall_mem_append.mpr ⟨before, List.forall_mem_cons.mpr ⟨spells.not_shapeless, behind⟩⟩
    obtain ⟨record, bound, gives⟩ := contextOf_of_shaped shaped
    exact ⟨record, bound, (gives.found name _).mpr ⟨value, rfl, front, _, back, same, spells, silent⟩⟩

/-- A name given twice, a value with an equals sign, and an empty one. -/
example : contextOf (["a=1", "b=", "a=2=3"].map (some ∘ Text.ofString)) =
    .ok (some [("a", .text "2=3"), ("b", .text "")]) := rfl

end Command

end Splice
