/-
# TreeGrammar.Proofs.Publish.Strewn -- where an attempt leaves files, and that they go again

Whatever an attempt is given to publish, it puts files at the places of known paths only:
its temporary files, its backups and the targets that it moved (`attempt_strewn`).  Taking
back empties these places again, unless a removal fails (`rollBack_strewn`): a target that
was moved has its backup given back to it, and stood where a file was, or it is removed.

Nothing is supposed of the names of the files here.  They may be the same, lead through
directories, or be the names of temporary files.
-/
import TreeGrammar.Proofs.Directory.Growth
import TreeGrammar.Proofs.Publish.TakingBack

set_option autoImplicit false

namespace TreeGrammar.Publish

variable {base : Tree} {world : World} {paths more : List Path} {path : Path}

/-- No directory has come or gone, and a file stands only where one stood before or where one of
the paths leads. -/
structure Strewn (base : Tree) (paths : List Path) (tree : Tree) : Prop where
  start : base.Sound
  sound : tree.Sound
  keeps : base.Keeps tree
  adds_none : tree.Keeps base
  files : ∀ location content, tree.entryAt location = some (.file content) →
    (∃ old, base.entryAt location = some (.file old)) ∨
      ∃ path ∈ paths, base.Finds path true location

/-- The path leads to where a file stood before, or where one of the paths leads. -/
def Held (base : Tree) (paths : List Path) (path : Path) : Prop :=
  ∃ place, base.Finds path true place ∧ ((∃ old, base.entryAt place = some (.file old)) ∨
    ∃ other ∈ paths, base.Finds other true place)

theorem Held.mono (held : Held base paths path) (within : paths ⊆ more) : Held base more path := by
  obtain ⟨place, finds, there⟩ := held
  exact ⟨place, finds, there.imp_right fun ⟨other, member, same⟩ => ⟨other, within member, same⟩⟩

namespace Strewn

variable {tree after : Tree} {place : Location} {content : Text.Octets}

theorem refl (sound : base.Sound) : Strewn base [] base :=
  ⟨sound, sound, Tree.Keeps.refl _, Tree.Keeps.refl _, fun _ content there => .inl ⟨content, there⟩⟩

/-- The same files, those that are new accounted for by other paths. -/
theorem recount (strewn : Strewn base paths tree)
    (files : ∀ location content, tree.entryAt location = some (.file content) →
      ∀ path ∈ paths, base.Finds path true location →
        (∃ old, base.entryAt location = some (.file old)) ∨
          ∃ path ∈ more, base.Finds path true location) : Strewn base more tree := by
  refine ⟨strewn.start, strewn.sound, strewn.keeps, strewn.adds_none,
    fun location content there => ?_⟩
  rcases strewn.files location content there with old | ⟨path, member, finds⟩
  · exact .inl old
  · exact files location content there path member finds

theorem mono (strewn : Strewn base paths tree) (within : paths ⊆ more) :
    Strewn base more tree :=
  strewn.recount fun _ _ _ path member finds => .inr ⟨path, within member, finds⟩

theorem finds (strewn : Strewn base paths tree) (there : tree.Finds path true place) :
    base.Finds path true place :=
  there.keeps strewn.sound strewn.adds_none

/-- A change that puts files where one of the paths leads, and takes files away anywhere. -/
theorem change (strewn : Strewn base paths tree) (preserves : tree.Preserves after)
    (adds : after.Keeps tree)
    (files : ∀ location content, after.entryAt location = some (.file content) →
      tree.entryAt location = some (.file content) ∨
        ∃ path ∈ paths, tree.Finds path true location) : Strewn base paths after := by
  refine ⟨strewn.start, preserves.sound strewn.sound, strewn.keeps.trans preserves.keeps,
    adds.trans strewn.adds_none, fun location content there => ?_⟩
  rcases files location content there with same | ⟨path, member, finds⟩
  · exact strewn.files location content same
  · exact .inr ⟨path, member, strewn.finds finds⟩

theorem put (strewn : Strewn base paths tree) (preserves : tree.Preserves after)
    (finds : tree.Finds path true place)
    (changed : after.entryAt = Function.update tree.entryAt place (some (.file content))) :
    Strewn base (path :: paths) after := by
  refine (strewn.mono (List.subset_cons_self path paths)).change preserves
    (Tree.keeps_of_put (by simp) changed) fun location other there => ?_
  by_cases here : location = place
  · exact .inr ⟨path, List.mem_cons_self, here ▸ finds⟩
  · rw [changed, Function.update_of_ne here] at there
    exact .inl there

theorem createFile (strewn : Strewn base paths tree) (made : tree.createFile path = .ok after) :
    Strewn base (path :: paths) after := by
  obtain ⟨there, finds, -⟩ := Tree.exists_place made
  exact strewn.put (Tree.createFile_preserves made) finds (Tree.createFile_ok finds made).2.2

theorem writeFile (strewn : Strewn base paths tree) (listed : path ∈ paths)
    (written : tree.writeFile path content = .ok after) : Strewn base paths after := by
  obtain ⟨there, finds, -⟩ := Tree.exists_place written
  refine (strewn.put (Tree.writeFile_preserves written) finds
    (Tree.writeFile_ok finds written).2.2).mono ?_
  exact List.cons_subset.2 ⟨listed, List.Subset.refl _⟩

theorem link {source : Path} (strewn : Strewn base paths tree)
    (linked : tree.link source path = .ok after) :
    Strewn base (path :: paths) after ∧ Held base paths source := by
  obtain ⟨here, there, content, finds, findsToo, stands, -, changed⟩ := Tree.link_changes linked
  exact ⟨strewn.put (Tree.link_preserves linked) findsToo changed,
    here, strewn.finds finds, strewn.files here content stands⟩

theorem rename {source : Path} (strewn : Strewn base paths tree)
    (moved : tree.rename source path = .ok after) : Strewn base (path :: paths) after := by
  obtain ⟨here, there, content, -, findsToo, -, -, -, changed⟩ := Tree.rename_changes moved
  refine (strewn.mono (List.subset_cons_self path paths)).change (Tree.rename_preserves moved)
    (Tree.rename_adds_none moved) fun location other stands => ?_
  by_cases same : location = there
  · exact .inr ⟨path, List.mem_cons_self, same ▸ findsToo⟩
  · rw [changed, Function.update_of_ne same] at stands
    by_cases sameToo : location = here
    · rw [sameToo, Function.update_self] at stands
      exact absurd stands (by simp)
    · rw [Function.update_of_ne sameToo] at stands
      exact .inl stands

/-- What a held path leads to needs no mention. -/
theorem of_held (strewn : Strewn base (path :: paths) tree) (held : Held base paths path) :
    Strewn base paths tree := by
  obtain ⟨place, finds, there⟩ := held
  refine strewn.recount fun location content stands other member findsToo => ?_
  rcases List.mem_cons.1 member with rfl | listed
  · rw [← finds.unique findsToo]
    exact there
  · exact .inr ⟨other, listed, findsToo⟩

/-- Where nothing is left at a path, it needs no mention. -/
theorem of_free (strewn : Strewn base (path :: paths) tree)
    (free : ∀ location content, tree.entryAt location = some (.file content) →
      ¬ base.Finds path true location) : Strewn base paths tree := by
  refine strewn.recount fun location content stands other member finds => ?_
  rcases List.mem_cons.1 member with rfl | listed
  · exact absurd finds (free location content stands)
  · exact .inr ⟨other, listed, finds⟩

end Strewn

/-! ## Removals that do not fail -/

/-- No removal of a file is denied, and the tree refuses one only for want of the file. -/
def Unlinks {α : Type} (script : Script α) (world : World) : Prop :=
  ∀ step ∈ script.calls world, ∀ path, step.2 = .removeFile path →
    step.1.denial step.2 = none ∧
      ∀ reason, step.1.tree.removeFile path = .error reason → reason = .missing

theorem Strewn.removeFile (strewn : Strewn base (path :: paths) world.tree)
    (free : world.denial (.removeFile path) = none)
    (missing : ∀ reason, world.tree.removeFile path = .error reason → reason = .missing) :
    Strewn base paths (world.answer (.removeFile path)).2.tree ∧
      ∀ cause, (world.answer (.removeFile path)).1 = .error cause → cause.reason = .missing := by
  cases removed : world.tree.removeFile path with
  | ok after =>
      rw [World.answer_of_attempt free
        (show world.attempt _ = .ok ((), after) by rw [World.attempt, removed]; rfl)]
      obtain ⟨there, finds, -⟩ := Tree.exists_place removed
      obtain ⟨-, content, -, changed⟩ := Tree.removeFile_ok finds removed
      have still : Strewn base (path :: paths) after := by
        refine strewn.change (Tree.removeFile_preserves removed)
          (Tree.keeps_of_put (by simp) changed) fun location other stands => .inl ?_
        by_cases here : location = there
        · rw [changed, here, Function.update_self] at stands
          exact absurd stands (by simp)
        · rwa [changed, Function.update_of_ne here] at stands
      refine ⟨still.of_free fun location other stands findsToo => ?_, by simp⟩
      rw [findsToo.unique (strewn.finds finds), changed, Function.update_self] at stands
      exact absurd stands (by simp)
  | error reason =>
      obtain rfl := missing reason removed
      rw [World.answer_of_refusal free
        (show world.attempt _ = .error .missing by rw [World.attempt, removed]; rfl)]
      refine ⟨strewn.of_free fun location content stands finds => ?_, ?_⟩
      · have possible := Tree.removeFile_of_file (finds.keeps strewn.start strewn.keeps) stands
        exact absurd (removed.symm.trans possible) (by simp)
      · intro cause same
        rw [← Except.error.inj same]

/-- Files are removed one after the other. -/
theorem discardAll_strewn (strewn : Strewn base (paths ++ more) world.tree)
    (unlinks : Unlinks (discardAll paths) world) :
    Strewn base more ((discardAll paths).run world).2.tree ∧
      ((discardAll paths).run world).1 = .ok () := by
  induction paths generalizing world with
  | nil => exact ⟨strewn, rfl⟩
  | cons path rest ih =>
      obtain ⟨free, missing⟩ := unlinks _ List.mem_cons_self path rfl
      obtain ⟨first, refusal⟩ := strewn.removeFile free missing
      rcases world.answer_cases (.removeFile path) with
        ⟨cause, refused⟩ | ⟨_, after, granted, -⟩
      · rw [refused] at first refusal
        have goesOn := refusal cause rfl
        rw [discardAll, Script.run_call refused]
        simp only [goesOn, if_true]
        refine ih first fun step member => unlinks step ?_
        rw [discardAll, Script.calls_call refused]
        simp only [goesOn, if_true]
        exact List.mem_cons_of_mem _ member
      · rw [granted] at first
        rw [discardAll, Script.run_call granted]
        refine ih first fun step member => unlinks step ?_
        rw [discardAll, Script.calls_call granted]
        exact List.mem_cons_of_mem _ member

/-! ## The passes of an attempt -/

theorem stageOne_strewn (strewn : Strewn base paths world.tree) (directory : Path)
    (name text : Text) :
    let outcome := (stageOne directory name text).run world
    Strewn base (outcome.1.1.toList.map Staged.temp ++ paths) outcome.2.tree ∧
      ∀ staged ∈ outcome.1.1.toList, staged.backup = none := by
  intro outcome
  rcases stageOne_cases directory name text world with
    ⟨halt, result, same⟩ | ⟨created, made, reached⟩
  · rw [result, same]
    exact ⟨strewn, by simp⟩
  · have begun := strewn.createFile made
    rcases reached with ⟨halt, result, same⟩ | ⟨halt, written, wrote, result, same⟩
    · rw [result, same]
      exact ⟨begun, by simp⟩
    · rw [result, same]
      exact ⟨begun.writeFile List.mem_cons_self wrote, by simp⟩

theorem stageAll_strewn (strewn : Strewn base paths world.tree) (directory : Path)
    (files : List (Text × Text)) :
    let outcome := (stageAll directory files).run world
    Strewn base (outcome.1.1.map Staged.temp ++ paths) outcome.2.tree ∧
      ∀ staged ∈ outcome.1.1, staged.backup = none := by
  induction files generalizing world paths with
  | nil => exact ⟨strewn, by simp [stageAll, Script.run]⟩
  | cons file rest ih =>
      intro outcome
      simp only [outcome, stageAll, Script.run_bind]
      obtain ⟨first, plain⟩ := stageOne_strewn strewn directory file.1 file.2
      generalize (stageOne directory file.1 file.2).run world = between at first plain
      rcases between with ⟨⟨staged, _ | halt⟩, next⟩
      · obtain ⟨later, restPlain⟩ := ih first
        simp only [Script.run_bind]
        refine ⟨later.mono ?_, ?_⟩
        · simp only [Script.run, List.map_append]
          intro path member
          simp only [List.mem_append] at member ⊢
          tauto
        · simp only [Script.run, List.mem_append]
          rintro each (here | there)
          · exact plain each here
          · exact restPlain each there
      · exact ⟨first, plain⟩

/-- Backups come beside what is strewn, and what is backed up is held. -/
theorem backUpAll_strewn (strewn : Strewn base paths world.tree) {entries : List Staged}
    (plain : ∀ entry ∈ entries, entry.backup = none) :
    let outcome := (backUpAll entries).run world
    Strewn base (outcome.1.1.filterMap Staged.backup ++ paths) outcome.2.tree ∧
      outcome.1.1.map Staged.temp = entries.map Staged.temp ∧
      (outcome.1.2 = none → ∀ entry ∈ outcome.1.1, entry.backup ≠ none →
        Held base (outcome.1.1.filterMap Staged.backup ++ paths) entry.target) := by
  induction entries generalizing world paths with
  | nil => exact ⟨strewn, rfl, by simp [backUpAll, Script.run]⟩
  | cons entry rest ih =>
      obtain ⟨entryPlain, restPlain⟩ := List.forall_mem_cons.1 plain
      -- the entry has no backup, and the pass goes on
      have onward : ∀ next : World, next.tree = world.tree →
          let later := (backUpAll rest).bind fun outcome => .done (entry :: outcome.1, outcome.2)
          let outcome := later.run next
          Strewn base (outcome.1.1.filterMap Staged.backup ++ paths) outcome.2.tree ∧
            outcome.1.1.map Staged.temp = (entry :: rest).map Staged.temp ∧
            (outcome.1.2 = none → ∀ entry ∈ outcome.1.1, entry.backup ≠ none →
              Held base (outcome.1.1.filterMap Staged.backup ++ paths) entry.target) := by
        intro next same
        obtain ⟨restStrewn, temps, held⟩ := ih (same ▸ strewn) restPlain
        simp only [Script.run_bind, Script.run, List.filterMap_cons, entryPlain, List.map_cons,
          temps]
        refine ⟨restStrewn, trivial, fun whole => List.forall_mem_cons.2 ⟨?_, held whole⟩⟩
        exact fun saved => absurd entryPlain saved
      intro outcome
      simp only [outcome, backUpAll]
      rcases world.answer_cases (.exists entry.target) with
        ⟨cause, refused⟩ | ⟨there, tree, probed, looked, -⟩
      · rw [Script.run_call refused]
        exact onward world.tick rfl
      · obtain ⟨-, -, -, rfl⟩ := World.attempt_exists looked
        rw [Script.run_call probed]
        cases there with
        | false => exact onward (world.changed world.tree) rfl
        | true =>
            simp only
            rcases (world.changed world.tree).answer_cases
              (.link entry.target (backupPath entry.temp)) with
              ⟨cause, refused⟩ | ⟨_, after, granted, made, -⟩
            · rw [Script.run_call refused]
              refine ⟨strewn.mono (List.subset_append_right _ _), rfl, ?_⟩
              exact fun whole => absurd whole (by simp [Script.run])
            · rw [Script.run_call granted]
              obtain ⟨linked, entryHeld⟩ := strewn.link (World.attempt_link made)
              obtain ⟨restStrewn, temps, held⟩ :=
                @ih ((world.changed world.tree).changed after) (backupPath entry.temp :: paths)
                  linked restPlain
              have within : ∀ backups : List Path, backups ++ backupPath entry.temp :: paths ⊆
                  backupPath entry.temp :: backups ++ paths := by
                intro backups path member
                simp only [List.mem_append, List.mem_cons] at member ⊢
                tauto
              simp only [Script.run_bind, Script.run, List.filterMap_cons, List.map_cons, temps]
              refine ⟨restStrewn.mono (within _), trivial, fun whole =>
                List.forall_mem_cons.2 ⟨fun _ => entryHeld.mono (List.subset_append_right _ _),
                  fun each member saved => (held whole each member saved).mono (within _)⟩⟩

theorem replaceAll_strewn (strewn : Strewn base paths world.tree) (entries : List Staged) :
    let outcome := (replaceAll entries).run world
    Strewn base (outcome.1.1.map Staged.target ++ paths) outcome.2.tree ∧
      ∀ entry ∈ outcome.1.1, entry ∈ entries := by
  induction entries generalizing world paths with
  | nil => exact ⟨strewn, by simp [replaceAll, Script.run]⟩
  | cons entry rest ih =>
      intro outcome
      simp only [outcome, replaceAll]
      rcases world.answer_cases (.replace entry.temp entry.target) with
        ⟨cause, refused⟩ | ⟨_, after, granted, made, -⟩
      · rw [Script.run_call refused]
        exact ⟨strewn, by simp [Script.run]⟩
      · rw [Script.run_call granted]
        obtain ⟨later, within⟩ := @ih (world.changed after) (entry.target :: paths)
          (strewn.rename (World.attempt_replace made))
        simp only [Script.run, Script.run_bind, List.map_cons]
        refine ⟨later.mono ?_, List.forall_mem_cons.2 ⟨List.mem_cons_self, fun each moved =>
          List.mem_cons_of_mem _ (within each moved)⟩⟩
        intro path member
        simp only [List.mem_append, List.mem_cons] at member ⊢
        tauto

/-! ## Taking back -/

theorem restoreOne_strewn {entry : Staged}
    (strewn : Strewn base (entry.target :: paths) world.tree)
    (held : entry.backup ≠ none → Held base paths entry.target)
    (unlinks : Unlinks (restoreOne entry) world) :
    Strewn base paths ((restoreOne entry).run world).2.tree := by
  cases saved : entry.backup with
  | some backup =>
      have entryHeld := held (by simp [saved])
      rw [run_restoreOne, Staged.restoration_of_backup saved]
      rcases world.answer_cases (.replace backup entry.target) with
        ⟨cause, refused⟩ | ⟨_, after, granted, made, -⟩
      · rw [refused]
        exact strewn.of_held entryHeld
      · rw [granted]
        exact ((strewn.of_held entryHeld).rename (World.attempt_replace made)).of_held entryHeld
  | none =>
      simp only [restoreOne, saved] at unlinks
      obtain ⟨free, missing⟩ := unlinks _ List.mem_cons_self entry.target rfl
      rw [run_restoreOne, Staged.restoration_of_none saved]
      exact (strewn.removeFile free missing).1

theorem restoreAll_strewn {entries : List Staged}
    (strewn : Strewn base (entries.map Staged.target ++ paths) world.tree)
    (held : ∀ entry ∈ entries, entry.backup ≠ none → Held base paths entry.target)
    (unlinks : Unlinks (restoreAll entries) world) :
    Strewn base paths ((restoreAll entries).run world).2.tree := by
  induction entries generalizing world with
  | nil => exact strewn
  | cons entry rest ih =>
      obtain ⟨entryHeld, restHeld⟩ := List.forall_mem_cons.1 held
      rw [restoreAll, Script.run_bind]
      refine ih (restoreOne_strewn strewn (fun saved => ?_) fun step member =>
        unlinks step (Script.mem_calls_left member)) restHeld fun step member =>
        unlinks step (Script.mem_calls_right member)
      exact (entryHeld saved).mono (List.subset_append_right _ _)

/-! ## An attempt and its taking back -/

/-- Everything that is staged and backed up is litter in the end. -/
theorem strewn_subset_litter (staged : List Staged) :
    staged.map Staged.temp ++ staged.filterMap Staged.backup ⊆ litter staged := by
  intro path member
  rw [litter, List.mem_flatMap]
  rcases List.mem_append.1 member with temp | backup
  · obtain ⟨entry, listed, rfl⟩ := List.mem_map.1 temp
    exact ⟨entry, listed, List.mem_cons_self⟩
  · obtain ⟨entry, listed, saved⟩ := List.mem_filterMap.1 backup
    exact ⟨entry, listed, List.mem_cons_of_mem _ (by simp [saved])⟩

/-- **What an attempt leaves** of files can be taken back: the temporary files, the backups and
the targets that were moved, of which those with a backup stood where a file was. -/
theorem attempt_strewn (sound : world.tree.Sound) (files : List (Text × Text))
    (directory : Path) :
    let outcome := (attempt files directory).run world
    Strewn world.tree (outcome.1.2.1.map Staged.target ++ litter outcome.1.1) outcome.2.tree ∧
      ∀ entry ∈ outcome.1.2.1, entry.backup ≠ none →
        Held world.tree (litter outcome.1.1) entry.target := by
  intro outcome
  simp only [outcome, attempt, Script.run_bind]
  obtain ⟨first, plain⟩ := stageAll_strewn (Strewn.refl sound) directory files
  generalize (stageAll directory files).run world = between at first plain
  rcases between with ⟨⟨staged, halt | _⟩, next⟩
  · rw [List.append_nil] at first
    simp only [Script.run_bind]
    obtain ⟨second, temps, held⟩ := backUpAll_strewn first plain
    rw [← temps] at second held
    generalize (backUpAll staged).run next = behind at second held
    have within : behind.1.1.filterMap Staged.backup ++ behind.1.1.map Staged.temp ⊆
        litter behind.1.1 := fun path member =>
      strewn_subset_litter _ (List.perm_append_comm.subset member)
    rcases behind with ⟨⟨saved, halt | _⟩, last⟩
    · simp only [Script.run_bind, Script.run] at second held within ⊢
      obtain ⟨third, moved⟩ := replaceAll_strewn (second.mono within) saved
      exact ⟨third, fun entry member kept =>
        (held trivial entry (moved entry member) kept).mono within⟩
    · exact ⟨second.mono within, by simp [Script.run]⟩
  · rw [List.append_nil] at first
    exact ⟨first.mono fun path member => strewn_subset_litter _ (List.mem_append_left _ member),
      by simp [Script.run]⟩

/-- **Taking back** puts everything away, unless a removal fails: no file is left where none
stood, and nothing but the directories that were made is left to be removed. -/
theorem rollBack_strewn {staged moved : List Staged} (created : List Path)
    (strewn : Strewn base (moved.map Staged.target ++ litter staged) world.tree)
    (held : ∀ entry ∈ moved, entry.backup ≠ none → Held base (litter staged) entry.target)
    (unlinks : Unlinks (rollBack staged moved created) world) :
    ∃ between : World, Strewn base [] between.tree ∧
      (rollBack staged moved created).run world =
        (.ok (), ((removeDirectories created).run between).2) ∧
      ∀ step ∈ (removeDirectories created).calls between,
        step ∈ (rollBack staged moved created).calls world := by
  have backwards : Strewn base (moved.reverse.map Staged.target ++ litter staged) world.tree := by
    refine strewn.mono fun path member => ?_
    simpa using member
  have restored := restoreAll_strewn backwards
    (fun entry member => held entry (List.mem_reverse.1 member))
    fun step member => unlinks step (Script.mem_calls_left member)
  rw [← List.append_nil (litter staged)] at restored
  obtain ⟨discarded, done⟩ := discardAll_strewn restored fun step member =>
    unlinks step (Script.mem_calls_right (Script.mem_calls_left member))
  refine ⟨_, discarded, ?_, fun step member => ?_⟩
  · rw [rollBack, Script.run_bind, Script.run_bind, done, Script.run_bind]
    rfl
  · refine Script.mem_calls_right (Script.mem_calls_right ?_)
    rw [done]
    exact Script.mem_calls_left member

end TreeGrammar.Publish
