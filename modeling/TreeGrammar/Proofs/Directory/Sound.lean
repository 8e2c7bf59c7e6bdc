/-
# TreeGrammar.Proofs.Directory.Sound -- what no operation breaks

Every operation puts something into a directory, takes a file away or takes a
directory away that nothing stands in.  So a sound tree stays sound
(`Tree.Sound`), and all but the last kind keep the directories that are there
(`Tree.Keeps`).  All but the making of a directory add none.
-/
import TreeGrammar.Proofs.Directory.Operations

set_option autoImplicit false

namespace TreeGrammar.Tree

variable {tree after other : Tree} {path source target : Path} {location : Location}
variable {content : Text.Octets}

theorem Keeps.trans (first : tree.Keeps after) (second : after.Keeps other) : tree.Keeps other :=
  fun place there => second place (first place there)

/-! ## One entry changed -/

theorem keeps_of_update {entry : Option Entry} (standing : tree.entryAt location ≠ some .directory)
    (changed : after.entryAt = Function.update tree.entryAt location entry) :
    tree.Keeps after := by
  intro place there
  have elsewhere : place ≠ location := by
    rintro rfl
    exact standing there
  rw [changed, Function.update_of_ne elsewhere, there]

theorem sound_of_put {entry : Entry} (sound : tree.Sound)
    (housed : tree.entryAt location = none →
      ∃ above name, location = above ++ [name] ∧ tree.entryAt above = some .directory)
    (standing : tree.entryAt location ≠ some .directory)
    (changed : after.entryAt = Function.update tree.entryAt location (some entry)) :
    after.Sound := by
  have kept := keeps_of_update standing changed
  intro above name there
  apply kept
  by_cases here : above ++ [name] = location
  · cases stands : tree.entryAt location with
    | some old => exact sound above name (by rw [here, stands]; simp)
    | none =>
        obtain ⟨front, last, split, directory⟩ := housed stands
        rw [(List.append_inj' (here.trans split) rfl).1, directory]
  · rw [changed, Function.update_of_ne here] at there
    exact sound above name there

theorem sound_of_erase (sound : tree.Sound)
    (childless : ∀ name, tree.entryAt (location ++ [name]) = none)
    (changed : after.entryAt = Function.update tree.entryAt location none) : after.Sound := by
  intro above name there
  by_cases here : above ++ [name] = location
  · rw [changed, here, Function.update_self] at there
    exact absurd rfl there
  · rw [changed, Function.update_of_ne here] at there
    have elsewhere : above ≠ location := by
      rintro rfl
      exact there (childless name)
    rw [changed, Function.update_of_ne elsewhere, sound above name there]

/-- Nothing stands in a file. -/
theorem Sound.file_childless (sound : tree.Sound)
    (stands : tree.entryAt location = some (.file content)) (name : Text) :
    tree.entryAt (location ++ [name]) = none := by
  by_contra there
  simp [sound location name there] at stands

/-- Whatever but a directory is put somewhere, no directory comes. -/
theorem keeps_of_put {entry : Option Entry} (other : entry ≠ some .directory)
    (changed : after.entryAt = Function.update tree.entryAt location entry) :
    after.Keeps tree := by
  intro place there
  rw [changed] at there
  by_cases here : place = location
  · rw [here, Function.update_self] at there
    exact absurd there other
  · rwa [Function.update_of_ne here] at there

/-! ## The operations -/

theorem exists_place {α : Type} {result : α} {next : Place → Except Refusal.Reason α}
    (done : tree.resolve path >>= next = .ok result) :
    ∃ there, tree.Finds path true there ∧ (tree.entryAt there = none →
      ∃ above name, there = above ++ [name] ∧ tree.entryAt above = some .directory) := by
  cases found : tree.resolve path with
  | error reason => simp [found, bind, Except.bind] at done
  | ok place => exact resolve_place found

theorem link_changes (linked : tree.link source target = .ok after) :
    ∃ here there content, tree.Finds source true here ∧ tree.Finds target true there ∧
      tree.entryAt here = some (.file content) ∧
      (tree.entryAt there = none ∧
        ∃ above name, there = above ++ [name] ∧ tree.entryAt above = some .directory) ∧
      after.entryAt = Function.update tree.entryAt there (some (.file content)) := by
  obtain ⟨here, finds, -⟩ := exists_place linked
  obtain ⟨-, found⟩ := finds.onward linked
  unfold placeAt at found
  cases stands : tree.entryAt here with
  | none => simp [stands, throw, throwThe, MonadExceptOf.throw] at found
  | some entry =>
      simp only [stands] at found
      obtain ⟨there, findsToo, housed⟩ := exists_place found
      obtain ⟨-, -, content, file, free, changed⟩ := link_ok finds findsToo linked
      exact ⟨here, there, content, finds, findsToo, stands ▸ file, ⟨free, housed free⟩, changed⟩

theorem rename_changes (moved : tree.rename source target = .ok after) :
    ∃ here there content, tree.Finds source true here ∧ tree.Finds target true there ∧
      tree.entryAt here = some (.file content) ∧ tree.entryAt there ≠ some .directory ∧
      (tree.entryAt there = none →
        ∃ above name, there = above ++ [name] ∧ tree.entryAt above = some .directory) ∧
      after.entryAt =
        Function.update (Function.update tree.entryAt here none) there (some (.file content)) := by
  obtain ⟨here, finds, -⟩ := exists_place moved
  obtain ⟨-, found⟩ := finds.onward moved
  unfold placeAt at found
  rcases stands : tree.entryAt here with _ | _ | content
  · simp [stands, throw, throwThe, MonadExceptOf.throw] at found
  · simp [stands, throw, throwThe, MonadExceptOf.throw] at found
  · simp only [stands] at found
    obtain ⟨there, findsToo, housed⟩ := exists_place found
    obtain ⟨-, -, other, file, standing, changed⟩ := rename_ok finds findsToo moved
    exact ⟨here, there, other, finds, findsToo, stands ▸ file, standing, housed, changed⟩

/-- A change that keeps the directories and leaves a sound tree sound. -/
structure Preserves (tree after : Tree) : Prop where
  keeps : tree.Keeps after
  sound : tree.Sound → after.Sound

theorem Preserves.refl (tree : Tree) : tree.Preserves tree :=
  ⟨Keeps.refl tree, id⟩

/-- What something is put in place of is not a directory, and stands in one. -/
theorem preserves_of_put {entry : Entry}
    (housed : tree.entryAt location = none →
      ∃ above name, location = above ++ [name] ∧ tree.entryAt above = some .directory)
    (standing : tree.entryAt location ≠ some .directory)
    (changed : after.entryAt = Function.update tree.entryAt location (some entry)) :
    tree.Preserves after :=
  ⟨keeps_of_update standing changed, fun sound => sound_of_put sound housed standing changed⟩

theorem preserves_of_erase (stands : tree.entryAt location = some (.file content))
    (changed : after.entryAt = Function.update tree.entryAt location none) :
    tree.Preserves after :=
  ⟨keeps_of_update (by simp [stands]) changed,
    fun sound => sound_of_erase sound (sound.file_childless stands) changed⟩

theorem makeDirectory_preserves (made : tree.makeDirectory path = .ok after) :
    tree.Preserves after := by
  obtain ⟨there, finds, housed⟩ := exists_place made
  obtain ⟨-, stands, changed⟩ := makeDirectory_ok finds made
  exact preserves_of_put housed (by simp [stands]) changed

theorem createFile_preserves (made : tree.createFile path = .ok after) :
    tree.Preserves after := by
  obtain ⟨there, finds, housed⟩ := exists_place made
  obtain ⟨-, stands, changed⟩ := createFile_ok finds made
  exact preserves_of_put housed (by simp [stands]) changed

theorem writeFile_preserves (written : tree.writeFile path content = .ok after) :
    tree.Preserves after := by
  obtain ⟨there, finds, housed⟩ := exists_place written
  obtain ⟨-, standing, changed⟩ := writeFile_ok finds written
  exact preserves_of_put housed standing changed

theorem link_preserves (linked : tree.link source target = .ok after) : tree.Preserves after := by
  obtain ⟨-, there, content, -, -, -, ⟨free, housed⟩, changed⟩ := link_changes linked
  exact preserves_of_put (fun _ => housed) (by simp [free]) changed

theorem rename_preserves (moved : tree.rename source target = .ok after) :
    tree.Preserves after := by
  obtain ⟨here, there, content, -, -, stands, standing, housed, changed⟩ := rename_changes moved
  by_cases same : there = here
  · subst same
    rw [Function.update_idem] at changed
    exact preserves_of_put housed standing changed
  · -- the source goes first, and then something is put at the target
    have gone : (tree.erase here).entryAt = Function.update tree.entryAt here none :=
      entryAt_erase tree (ne_root_of_entryAt tree (by simp [stands]))
    have elsewhere : (tree.erase here).entryAt there = tree.entryAt there := by
      rw [gone, Function.update_of_ne same]
    have first : tree.Preserves (tree.erase here) := preserves_of_erase stands gone
    have second : (tree.erase here).Preserves after := by
      refine preserves_of_put (fun free => ?_) (elsewhere ▸ standing) (by rw [changed, gone])
      obtain ⟨above, name, split, directory⟩ := housed (elsewhere ▸ free)
      exact ⟨above, name, split, first.keeps above directory⟩
    exact ⟨first.keeps.trans second.keeps, fun sound => second.sound (first.sound sound)⟩

theorem removeFile_preserves (removed : tree.removeFile path = .ok after) :
    tree.Preserves after := by
  obtain ⟨there, finds, -⟩ := exists_place removed
  obtain ⟨-, content, stands, changed⟩ := removeFile_ok finds removed
  exact preserves_of_erase stands changed

theorem removeDirectory_sound (removed : tree.removeDirectory path = .ok after)
    (sound : tree.Sound) : after.Sound := by
  obtain ⟨there, finds, -⟩ := exists_place removed
  obtain ⟨-, -, childless, rfl⟩ := removeDirectory_ok finds removed
  by_cases root : there = []
  · subst root
    unfold Sound
    rwa [entryAt_erase_root]
  · exact sound_of_erase sound (entryAt_of_hasChildren childless) (entryAt_erase tree root)

theorem removeDirectory_adds_none (removed : tree.removeDirectory path = .ok after) :
    after.Keeps tree := by
  obtain ⟨there, finds, -⟩ := exists_place removed
  obtain ⟨-, -, -, rfl⟩ := removeDirectory_ok finds removed
  by_cases root : there = []
  · subst root
    exact fun place stands => (congrFun (entryAt_erase_root tree) place).symm.trans stands
  · exact keeps_of_put (by simp) (entryAt_erase tree root)

theorem rename_adds_none (moved : tree.rename source target = .ok after) : after.Keeps tree := by
  obtain ⟨here, there, content, -, -, stands, -, -, changed⟩ := rename_changes moved
  have gone : (tree.erase here).entryAt = Function.update tree.entryAt here none :=
    entryAt_erase tree (ne_root_of_entryAt tree (by simp [stands]))
  rw [← gone] at changed
  have first : (tree.erase here).Keeps tree := keeps_of_put (by simp) gone
  exact (keeps_of_put (by simp) changed).trans first

end TreeGrammar.Tree
