/-
**Files written and read.**

Writing a file puts octets at the path that its name leads to. No folder becomes anything else by it,
so names lead where they led before, the file itself included; and no other path gets other octets.

* `Tree.writeFile_ok_iff`: when a file can be written, and the tree in which it is;
* `Tree.readFile_of_writeFile`: a file that has been written holds what was written;
* `Tree.writeFile_writeFile`: only what is written last counts;
* `Tree.readFile_of_ne`: the files at other paths are as they were.
-/

import Mathlib
import Splice.Command.Tree

namespace Splice

namespace Tree

variable {tree after emptied : Tree} {path goal here : Path} {node : Node} {name : PathName}
  {octets others : Bytes}

/-! ### A node at a path -/

theorem put_cons (head : Path × Node) (rest : Tree) (path : Path) (node : Node) :
    put (head :: rest) path node =
      if head.1 = path then (path, node) :: rest else head :: put rest path node := rfl

@[simp] theorem lookup_put_self (tree : Tree) (path : Path) (node : Node) :
    (tree.put path node).lookup path = some node := by
  induction tree with
  | nil => simp [put]
  | cons head rest ih =>
    rw [put_cons]
    split
    · exact List.lookup_cons_self
    · rename_i other
      rw [List.lookup_cons, beq_eq_false_iff_ne.mpr (Ne.symm other)]
      exact ih

theorem lookup_put_of_ne (other : here ≠ path) :
    (tree.put path node).lookup here = tree.lookup here := by
  induction tree with
  | nil =>
    rw [put, List.lookup_cons, beq_eq_false_iff_ne.mpr other]
  | cons head rest ih =>
    rw [put_cons]
    split
    · rename_i same
      rw [List.lookup_cons, List.lookup_cons, show head.1 = path from same,
        beq_eq_false_iff_ne.mpr other]
    · rw [List.lookup_cons, List.lookup_cons, ih]

/-- A path that leads on to something still does. -/
theorem any_put (below : tree.any (here.isPrefixOf ·.1) = true) :
    (tree.put path node).any (here.isPrefixOf ·.1) = true := by
  induction tree with
  | nil => cases below
  | cons head rest ih =>
    rw [List.any_cons, Bool.or_eq_true] at below
    rw [put_cons]
    split
    · rename_i same
      rw [List.any_cons, Bool.or_eq_true, ← same]
      exact below
    · rw [List.any_cons, Bool.or_eq_true]
      exact below.imp_right ih

@[simp] theorem node?_put_self (tree : Tree) (path : Path) (node : Node) :
    (tree.put path node).node? path = some node := by
  unfold node?
  rw [lookup_put_self]

/-- **Folders stay folders.** -/
theorem folder_put (free : tree.node? path ≠ some .folder)
    (folder : tree.node? here = some .folder) : (tree.put path node).node? here = some .folder := by
  have other : here ≠ path := fun same => free (same ▸ folder)
  unfold node? at folder ⊢
  rw [lookup_put_of_ne other]
  cases found : tree.lookup here with
  | some node =>
    rw [found] at folder
    exact folder
  | none =>
    simp only [found] at folder ⊢
    split at folder
    · rename_i way
      exact if_pos (way.imp_right (Or.imp_right any_put))
    · cases folder

/-- The files at other paths are as they were. -/
theorem file_put_iff (other : here ≠ path) :
    (tree.put path node).node? here = some (.file others) ↔
      tree.node? here = some (.file others) := by
  have file_iff (tree : Tree) :
      tree.node? here = some (.file others) ↔ tree.lookup here = some (.file others) := by
    unfold node?
    cases tree.lookup here with
    | some found => rfl
    | none =>
      refine ⟨fun folder => ?_, nofun⟩
      simp only at folder
      split at folder
      · cases folder
      · cases folder
  rw [file_iff, file_iff, lookup_put_of_ne other]

@[simp] theorem put_put (tree : Tree) (path : Path) (first second : Node) :
    (tree.put path first).put path second = tree.put path second := by
  induction tree with
  | nil => simp [put]
  | cons head rest ih =>
    rw [put_cons, put_cons]
    split
    · rw [put_cons, if_pos rfl]
    · rename_i other
      rw [put_cons, if_neg other, ih]

/-! ### Names -/

/-- File names lead where they led before. -/
theorem walk_put (free : tree.node? path ≠ some .folder) {parts : List FileName}
    (leads : walk tree here parts = .ok goal) : walk (tree.put path node) here parts = .ok goal := by
  -- the walk asks for nothing but folders, and these are still there
  induction parts generalizing here with
  | nil => exact leads
  | cons part rest ih =>
    rw [walk] at leads
    split at leads
    · cases leads
    · cases leads
    · rename_i folder
      rw [walk, folder_put free folder]
      simp only
      split at leads
      · cases leads
      · rename_i short
        rw [if_neg short]
        split at leads
        · rename_i up
          rw [if_pos up]
          exact ih leads
        · rename_i down
          rw [if_neg down]
          exact ih leads

/-- **Names lead where they led before.** -/
theorem locate_put (free : tree.node? path ≠ some .folder) (leads : tree.locate name = .ok goal) :
    (tree.put path node).locate name = .ok goal := by
  unfold locate at leads ⊢
  split at leads
  · cases leads
  · split at leads
    · cases leads
    · rename_i clean
      rw [if_neg clean]
      split at leads
      · cases leads
      · rename_i short
        rw [if_neg short]
        exact walk_put free leads

/-! ### Files -/

theorem readFile_ok_iff : tree.readFile name = .ok octets ↔
    ∃ path, tree.locate name = .ok path ∧ tree.node? path = some (.file octets) := by
  unfold readFile
  cases tree.locate name with
  | error fault => exact ⟨nofun, nofun⟩
  | ok path =>
    simp only [Except.ok.injEq, exists_eq_left']
    cases tree.node? path with
    | none => exact ⟨nofun, nofun⟩
    | some node =>
      cases node with
      | folder => exact ⟨nofun, nofun⟩
      | file found => simp

/-- What can be read is there. -/
theorem leadsSomewhere_of_readFile (holds : tree.readFile name = .ok octets) :
    tree.leadsSomewhere name = .ok true := by
  obtain ⟨path, leads, found⟩ := readFile_ok_iff.mp holds
  unfold leadsSomewhere
  simp only [leads, found, Option.isSome_some]

/-- **When a file can be written**: its name leads to a path at which no folder stands. -/
theorem writeFile_ok_iff : tree.writeFile name octets = .ok after ↔
    ∃ path, tree.locate name = .ok path ∧ tree.node? path ≠ some .folder ∧
      after = tree.put path (.file octets) := by
  unfold writeFile
  cases tree.locate name with
  | error fault => exact ⟨nofun, nofun⟩
  | ok path =>
    simp only [Except.ok.injEq, exists_eq_left']
    split
    · rename_i folder
      exact ⟨nofun, fun both => (both.1 folder).elim⟩
    · rename_i free
      rw [Except.ok.injEq, eq_comm]
      exact ⟨fun same => ⟨free, same⟩, And.right⟩

/-- Whether a file can be written does not depend on what is to be written. -/
theorem exists_writeFile_of_ok (others : Bytes) (wrote : tree.writeFile name octets = .ok after) :
    ∃ after', tree.writeFile name others = .ok after' := by
  obtain ⟨path, leads, free, -⟩ := writeFile_ok_iff.mp wrote
  exact ⟨_, writeFile_ok_iff.mpr ⟨path, leads, free, rfl⟩⟩

/-- **A file that has been written** holds what was written. -/
theorem readFile_of_writeFile (wrote : tree.writeFile name octets = .ok after) :
    after.readFile name = .ok octets := by
  obtain ⟨path, leads, free, rfl⟩ := writeFile_ok_iff.mp wrote
  exact readFile_ok_iff.mpr ⟨path, locate_put free leads, node?_put_self tree path _⟩

/-- **Only what is written last counts.** -/
theorem writeFile_writeFile (wrote : tree.writeFile name others = .ok emptied) (octets : Bytes) :
    emptied.writeFile name octets = tree.writeFile name octets := by
  obtain ⟨path, leads, free, rfl⟩ := writeFile_ok_iff.mp wrote
  have again : (tree.put path (.file others)).writeFile name octets =
      .ok ((tree.put path (.file others)).put path (.file octets)) :=
    writeFile_ok_iff.mpr ⟨path, locate_put free leads, by rw [node?_put_self]; nofun, rfl⟩
  rw [again, put_put]
  exact (writeFile_ok_iff.mpr ⟨path, leads, free, rfl⟩).symm

/-- **The files at other paths** are as they were. -/
theorem readFile_of_ne (wrote : tree.writeFile name octets = .ok after) {name' : PathName}
    (apart : tree.locate name' ≠ tree.locate name) (holds : tree.readFile name' = .ok others) :
    after.readFile name' = .ok others := by
  obtain ⟨path, leads, free, rfl⟩ := writeFile_ok_iff.mp wrote
  obtain ⟨path', leads', found⟩ := readFile_ok_iff.mp holds
  have other : path' ≠ path := fun same => apart (by rw [leads, leads', same])
  exact readFile_ok_iff.mpr ⟨path', locate_put free leads', (file_put_iff other).mpr found⟩

end Tree

end Splice
