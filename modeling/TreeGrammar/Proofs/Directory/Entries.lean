/-
# TreeGrammar.Proofs.Directory.Entries -- what stands where in a changed tree

A tree is known by what stands at each location, so a change is described by its
effect on `Tree.entryAt`: putting and erasing update it at one location below the
root (`entryAt_put`, `entryAt_erase`).

`Tree.Sound` says that everything stands in a directory; `Tree.Keeps` that every
directory of one tree is one of another, which is all that following a path
through directories depends on.
-/
import Mathlib.Data.List.Induction
import Mathlib.Logic.Function.Basic
import TreeGrammar.Directory.Tree

set_option autoImplicit false

namespace TreeGrammar

namespace Tree

theorem entryAt_root (tree : Tree) : tree.entryAt [] = some .directory := by
  simp [entryAt]

theorem ne_root_of_entryAt (tree : Tree) {location : Location}
    (other : tree.entryAt location ≠ some .directory) : location ≠ [] := by
  rintro rfl
  exact other tree.entryAt_root

theorem entryAt_put (tree : Tree) {location : Location} (entry : Entry) (below : location ≠ []) :
    (tree.put location entry).entryAt = Function.update tree.entryAt location (some entry) := by
  funext other
  by_cases here : other = location
  · subst here
    simp [entryAt, put, below, Keyed.get?_put]
  · rw [Function.update_of_ne here]
    simp [entryAt, put, Keyed.get?_put, Ne.symm here]

theorem entryAt_erase (tree : Tree) {location : Location} (below : location ≠ []) :
    (tree.erase location).entryAt = Function.update tree.entryAt location none := by
  funext other
  by_cases here : other = location
  · subst here
    simp only [entryAt, erase, below, if_false, Function.update_self, Keyed.get?_filter_ne, if_true]
  · rw [Function.update_of_ne here]
    simp only [entryAt, erase, Keyed.get?_filter_ne, here, if_false]

theorem entryAt_erase_root (tree : Tree) : (tree.erase []).entryAt = tree.entryAt := by
  funext other
  by_cases root : other = []
  · simp [entryAt, root]
  · simp only [entryAt, erase, Keyed.get?_filter_ne, root, if_false]

/-- A file stands only where there is an entry for it. -/
theorem mem_entries_of_file {tree : Tree} {location : Location} {content : Text.Octets}
    (there : tree.entryAt location = some (.file content)) :
    (location, .file content) ∈ tree.entries := by
  by_cases root : location = []
  · simp [entryAt, root] at there
  · rw [entryAt, if_neg root] at there
    exact Keyed.mem_of_get? there

/-- Everything stands in a directory. -/
def Sound (tree : Tree) : Prop :=
  ∀ location name, tree.entryAt (location ++ [name]) ≠ none →
    tree.entryAt location = some .directory

/-- Every directory of the tree is one of the other tree too. -/
def Keeps (tree other : Tree) : Prop :=
  ∀ location, tree.entryAt location = some .directory → other.entryAt location = some .directory

theorem Keeps.refl (tree : Tree) : tree.Keeps tree :=
  fun _ there => there

/-- Above a location where something stands there are directories only. -/
theorem Sound.above {tree : Tree} (sound : tree.Sound) {location : Location}
    (there : tree.entryAt location ≠ none) : tree.entryAt location.dropLast = some .directory := by
  rcases List.eq_nil_or_concat location with rfl | ⟨front, name, rfl⟩
  · exact tree.entryAt_root
  · rw [List.concat_eq_append, List.dropLast_concat] at *
    exact sound front name there

/-- The names on the way to a directory lead to directories. -/
theorem Sound.directory_of_prefix {tree : Tree} (sound : tree.Sound) {location front : Location}
    (isPrefix : front <+: location) (stands : tree.entryAt location = some .directory) :
    tree.entryAt front = some .directory := by
  obtain ⟨rest, rfl⟩ := isPrefix
  induction rest using List.reverseRecOn with
  | nil => rwa [List.append_nil] at stands
  | append_singleton rest name ih =>
      rw [← List.append_assoc] at stands
      exact ih (sound _ name (by rw [stands]; simp))

end Tree

end TreeGrammar
