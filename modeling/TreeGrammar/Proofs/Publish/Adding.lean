/-
# TreeGrammar.Proofs.Publish.Adding -- staging and backing up only add files

The first two passes of an attempt keep all that is there and add files at places where
nothing stood (`Added`): each temporary file and each backup is made at a place that was free
(`stageAll_added`, `backUpAll_added`).  Nothing is supposed of the names of the files; a place
that is not free is one where the pass is stopped.

No directory is made or removed, so paths lead to the same places before and behind (`Alike`).
-/
import TreeGrammar.Proofs.Directory.Growth
import TreeGrammar.Proofs.Publish.Strewn

set_option autoImplicit false

namespace TreeGrammar.Publish

variable {base tree between after : Tree} {world : World} {path : Path} {place : Location}
variable {paths more : List Path} {content : Text.Octets}

/-! ## Trees with the same directories -/

/-- The trees have the same directories, so paths lead to the same places in both. -/
structure Alike (base tree : Tree) : Prop where
  start : base.Sound
  sound : tree.Sound
  keeps : base.Keeps tree
  adds_none : tree.Keeps base

namespace Alike

theorem refl (sound : base.Sound) : Alike base base :=
  ⟨sound, sound, Tree.Keeps.refl _, Tree.Keeps.refl _⟩

theorem finds_iff (alike : Alike base tree) :
    tree.Finds path true place ↔ base.Finds path true place :=
  ⟨fun there => there.keeps alike.sound alike.adds_none,
    fun there => there.keeps alike.start alike.keeps⟩

/-- A change that keeps what is no file and adds no directory. -/
theorem change (alike : Alike base tree) (preserves : tree.Preserves after)
    (addsNone : after.Keeps tree) : Alike base after :=
  ⟨alike.start, preserves.sound alike.sound, alike.keeps.trans preserves.keeps,
    addsNone.trans alike.adds_none⟩

/-- A call that neither makes nor removes a directory. -/
theorem attempt (alike : Alike base world.tree) {asked : Call} {result : asked.Answer}
    (noRemoval : ∀ path, asked ≠ .removeDirectory path)
    (noMaking : ∀ path, asked ≠ .makeDirectory path)
    (done : world.attempt asked = .ok (result, after)) : Alike base after :=
  alike.change (world.attempt_preserves asked noRemoval done)
    (world.attempt_adds_none asked noMaking done)

end Alike

/-! ## Adding files -/

/-- Everything is kept, and what is new stands where one of the paths leads. -/
structure Added (base : Tree) (paths : List Path) (tree : Tree) : Prop extends Alike base tree where
  kept : ∀ location entry, base.entryAt location = some entry →
    tree.entryAt location = some entry
  added : ∀ location, base.entryAt location = none → tree.entryAt location ≠ none →
    ∃ path ∈ paths, base.Finds path true location

namespace Added

theorem refl (sound : base.Sound) : Added base [] base :=
  ⟨Alike.refl sound, fun _ _ there => there, fun _ free there => absurd free there⟩

theorem mono (adds : Added base paths tree) (within : paths ⊆ more) : Added base more tree := by
  refine ⟨adds.toAlike, adds.kept, fun location free there => ?_⟩
  obtain ⟨path, member, finds⟩ := adds.added location free there
  exact ⟨path, within member, finds⟩

/-- Where none of the paths leads, nothing has changed. -/
theorem elsewhere (adds : Added base paths tree) {location : Location}
    (apart : ∀ path ∈ paths, ¬ base.Finds path true location) :
    tree.entryAt location = base.entryAt location := by
  cases stood : base.entryAt location with
  | some entry => exact adds.kept location entry stood
  | none =>
      by_contra there
      obtain ⟨path, member, finds⟩ := adds.added location stood there
      exact apart path member finds

/-- A file is put where nothing stood before. -/
theorem put (adds : Added base paths tree) (alike : Alike base after)
    (finds : base.Finds path true place) (free : base.entryAt place = none)
    (changed : after.entryAt = Function.update tree.entryAt place (some (.file content))) :
    Added base (path :: paths) after := by
  refine ⟨alike, fun location entry stood => ?_, fun location stood there => ?_⟩
  · have elsewhere : location ≠ place := by
      rintro rfl
      exact absurd (free.symm.trans stood) (by simp)
    rw [changed, Function.update_of_ne elsewhere, adds.kept location entry stood]
  · by_cases here : location = place
    · exact ⟨path, List.mem_cons_self, here ▸ finds⟩
    · rw [changed, Function.update_of_ne here] at there
      obtain ⟨other, member, findsOther⟩ := adds.added location stood there
      exact ⟨other, List.mem_cons_of_mem _ member, findsOther⟩

theorem free_of_free (adds : Added base paths tree) (free : tree.entryAt place = none) :
    base.entryAt place = none := by
  cases stood : base.entryAt place with
  | none => rfl
  | some entry => exact absurd (free.symm.trans (adds.kept place entry stood)) (by simp)

theorem createFile (adds : Added base paths tree) (made : tree.createFile path = .ok after) :
    ∃ place, base.Finds path true place ∧ base.entryAt place = none ∧
      Added base (path :: paths) after := by
  obtain ⟨place, finds, -⟩ := Tree.exists_place made
  obtain ⟨-, vacant, begun⟩ := Tree.createFile_ok finds made
  have findsBase := adds.finds_iff.1 finds
  have free := adds.free_of_free vacant
  have alike := adds.toAlike.change (Tree.createFile_preserves made)
    (Tree.keeps_of_put (by simp) begun)
  exact ⟨place, findsBase, free, adds.put alike findsBase free begun⟩

/-- A file that is new gets another content. -/
theorem writeFile (adds : Added base paths tree) (listed : path ∈ paths)
    (finds : base.Finds path true place) (free : base.entryAt place = none)
    (written : tree.writeFile path content = .ok after) : Added base paths after := by
  obtain ⟨-, -, filled⟩ := Tree.writeFile_ok (adds.finds_iff.2 finds) written
  have alike := adds.toAlike.change (Tree.writeFile_preserves written)
    (Tree.keeps_of_put (by simp) filled)
  exact (adds.put alike finds free filled).mono
    (List.cons_subset.2 ⟨listed, List.Subset.refl _⟩)

theorem trans (first : Added base paths between) (second : Added between more after)
    (within : paths ⊆ more) : Added base more after := by
  refine ⟨⟨first.start, second.sound, first.keeps.trans second.keeps,
    second.adds_none.trans first.adds_none⟩, fun location entry stood =>
      second.kept _ _ (first.kept _ _ stood), fun location stood there => ?_⟩
  by_cases middle : between.entryAt location = none
  · obtain ⟨path, member, finds⟩ := second.added location middle there
    exact ⟨path, member, first.finds_iff.1 finds⟩
  · obtain ⟨path, member, finds⟩ := first.added location stood middle
    exact ⟨path, within member, finds⟩

end Added

/-! ## Staging -/

theorem stageOne_added (adds : Added base paths world.tree) (directory : Path) (name text : Text) :
    let outcome := (stageOne directory name text).run world
    Added base (outcome.1.1.toList.map Staged.temp ++ paths) outcome.2.tree := by
  intro outcome
  rcases stageOne_cases directory name text world with
    ⟨halt, result, same⟩ | ⟨created, made, reached⟩
  · rw [result, same]
    exact adds
  · obtain ⟨place, finds, free, begun⟩ := adds.createFile made
    rcases reached with ⟨halt, result, same⟩ | ⟨halt, written, wrote, result, same⟩
    · rw [result, same]
      exact begun
    · rw [result, same]
      exact begun.writeFile List.mem_cons_self finds free wrote

theorem stageAll_added (adds : Added base paths world.tree) (directory : Path)
    (files : List (Text × Text)) :
    let outcome := (stageAll directory files).run world
    Added base (outcome.1.1.map Staged.temp ++ paths) outcome.2.tree := by
  induction files generalizing world paths with
  | nil => exact adds
  | cons file rest ih =>
      intro outcome
      simp only [outcome, stageAll, Script.run_bind]
      have first := stageOne_added adds directory file.1 file.2
      generalize (stageOne directory file.1 file.2).run world = between at first
      rcases between with ⟨⟨staged, _ | halt⟩, next⟩
      · simp only [Script.run_bind, Script.run, List.map_append]
        refine (ih first).mono fun path member => ?_
        simp only [List.mem_append] at member ⊢
        tauto
      · exact first

/-! ## Backing up -/

/-- The target and its backup are two places with one content. -/
def BackedAt (base tree : Tree) (entry : Staged) (backup : Path) : Prop :=
  ∃ place target content, base.Finds backup true place ∧ base.Finds entry.target true target ∧
    place ≠ target ∧ tree.entryAt place = some (.file content) ∧
    tree.entryAt target = some (.file content)

/-- No backup of the later one is the target of the earlier one, if that has a backup too. -/
def Ordered (base : Tree) (earlier later : Staged) : Prop :=
  ∀ backup, later.backup = some backup → earlier.backup ≠ none →
    ∀ place, base.Finds backup true place → ¬ base.Finds earlier.target true place

/-- What is there is backed up, one target after the other. -/
structure Backed (base tree : Tree) (entries : List Staged) : Prop where
  backups : ∀ entry ∈ entries, ∀ backup, entry.backup = some backup →
    BackedAt base tree entry backup
  ordered : entries.Pairwise (Ordered base)

theorem Backed.of_prefix {entries first : List Staged} (backed : Backed base tree entries)
    (isPrefix : first <+: entries) : Backed base tree first :=
  ⟨fun entry member => backed.backups entry (isPrefix.subset member),
    backed.ordered.sublist isPrefix.sublist⟩

/-- The places of the backups are free. -/
def Vacant (base tree : Tree) (entries : List Staged) : Prop :=
  ∀ entry ∈ entries, ∀ backup, entry.backup = some backup →
    ∀ place, base.Finds backup true place → tree.entryAt place = none

/-- An entry without a backup in front. -/
theorem Backed.cons_plain {entry : Staged} {rest : List Staged} (plain : entry.backup = none)
    (backed : Backed base tree rest) : Backed base tree (entry :: rest) := by
  refine ⟨List.forall_mem_cons.2 ⟨fun backup saved => ?_, backed.backups⟩,
    List.pairwise_cons.2 ⟨fun later _ backup _ saved => absurd plain saved, backed.ordered⟩⟩
  exact absurd (plain.symm.trans saved) (by simp)

/-- An entry in front whose backup has just been made. -/
theorem Backed.cons_linked {entry : Staged} {rest : List Staged} {backup : Path}
    (saved : entry.backup = some backup) (backedAt : BackedAt base after entry backup)
    (stands : ∃ target content, base.Finds entry.target true target ∧
      tree.entryAt target = some (.file content))
    (vacant : Vacant base tree rest) (backed : Backed base after rest) :
    Backed base after (entry :: rest) := by
  refine ⟨List.forall_mem_cons.2 ⟨fun other same => ?_, backed.backups⟩,
    List.pairwise_cons.2 ⟨fun later member other isSaved _ place finds aimed => ?_,
      backed.ordered⟩⟩
  · exact Option.some.inj (saved.symm.trans same) ▸ backedAt
  · -- the target of the entry was there when the later backup was made
    obtain ⟨target, content, findsTarget, there⟩ := stands
    have free := vacant later member other isSaved place finds
    rw [aimed.unique findsTarget, there] at free
    exact absurd free (by simp)

theorem backUpAll_added (alike : Alike base world.tree) {entries : List Staged}
    (plain : ∀ entry ∈ entries, entry.backup = none) :
    let outcome := (backUpAll entries).run world
    Added world.tree (outcome.1.1.filterMap Staged.backup) outcome.2.tree ∧
      outcome.1.1.map Staged.temp = entries.map Staged.temp ∧
      (outcome.1.2 = none → Vacant base world.tree outcome.1.1 ∧
        Backed base outcome.2.tree outcome.1.1) := by
  induction entries generalizing world with
  | nil =>
      refine ⟨Added.refl alike.sound, rfl, fun _ => ⟨?_, ?_, List.Pairwise.nil⟩⟩ <;>
        simp [backUpAll, Script.run, Vacant]
  | cons entry rest ih =>
      obtain ⟨entryPlain, restPlain⟩ := List.forall_mem_cons.1 plain
      -- the entry has no backup, and the pass goes on
      have onward : ∀ next : World, next.tree = world.tree →
          let later := (backUpAll rest).bind fun outcome => .done (entry :: outcome.1, outcome.2)
          let outcome := later.run next
          Added world.tree (outcome.1.1.filterMap Staged.backup) outcome.2.tree ∧
            outcome.1.1.map Staged.temp = (entry :: rest).map Staged.temp ∧
            (outcome.1.2 = none → Vacant base world.tree outcome.1.1 ∧
              Backed base outcome.2.tree outcome.1.1) := by
        intro next same
        obtain ⟨adds, temps, whole⟩ := ih (same ▸ alike) restPlain
        rw [same] at adds whole
        simp only [Script.run_bind, Script.run, List.filterMap_cons, entryPlain, List.map_cons,
          temps]
        refine ⟨adds, trivial, fun done => ?_⟩
        obtain ⟨vacant, backed⟩ := whole done
        refine ⟨List.forall_mem_cons.2 ⟨fun backup saved => ?_, vacant⟩,
          backed.cons_plain entryPlain⟩
        exact absurd (entryPlain.symm.trans saved) (by simp)
      intro outcome
      simp only [outcome, backUpAll]
      rcases world.answer_cases (.exists entry.target) with
        ⟨cause, refused⟩ | ⟨there, tree, probed, looked, -⟩
      · rw [Script.run_call refused]
        exact onward world.tick rfl
      · obtain ⟨-, -, -, rfl⟩ := World.attempt_exists looked
        rw [Script.run_call probed]
        cases there with
        | false => exact onward (world.changed world.tree) rfl
        | true =>
            simp only
            rcases (world.changed world.tree).answer_cases
              (.link entry.target (backupPath entry.temp)) with
              ⟨cause, refused⟩ | ⟨_, after, granted, made, -⟩
            · rw [Script.run_call refused]
              exact ⟨(Added.refl alike.sound).mono (List.nil_subset _), rfl,
                fun whole => absurd whole (by simp [Script.run])⟩
            · rw [Script.run_call granted]
              obtain ⟨here, place, content, finds, findsToo, stands, ⟨free, -⟩, changed⟩ :=
                Tree.link_changes (World.attempt_link made)
              simp only [World.changed_tree] at finds findsToo stands free changed
              have apart : here ≠ place := by
                rintro rfl
                exact absurd (free.symm.trans stands) (by simp)
              have alikeNow : Alike base (world.changed world.tree).tree := alike
              have itself : Alike world.tree (world.changed world.tree).tree :=
                Alike.refl alike.sound
              have alikeThen := alikeNow.attempt (by simp) (by simp) made
              have first := (Added.refl alike.sound).put
                (itself.attempt (by simp) (by simp) made) findsToo free changed
              obtain ⟨adds, temps, whole⟩ :=
                @ih ((world.changed world.tree).changed after) alikeThen restPlain
              simp only [World.changed_tree] at adds whole
              simp only [Script.run_bind, Script.run, List.filterMap_cons, List.map_cons, temps]
              refine ⟨first.trans (adds.mono (List.subset_cons_self _ _))
                (List.cons_subset.2 ⟨List.mem_cons_self, List.nil_subset _⟩), trivial,
                fun done => ?_⟩
              obtain ⟨vacant, backed⟩ := whole done
              have atTarget : after.entryAt here = some (.file content) := by
                rw [changed, Function.update_of_ne apart, stands]
              have atBackup : after.entryAt place = some (.file content) := by
                rw [changed, Function.update_self]
              refine ⟨List.forall_mem_cons.2 ⟨fun backup saved other findsOther => ?_, ?_⟩, ?_⟩
              · rw [← Option.some.inj saved] at findsOther
                rw [← (alike.finds_iff.1 findsToo).unique findsOther]
                exact free
              · exact fun later member backup saved other findsOther =>
                  first.free_of_free (vacant later member backup saved other findsOther)
              · exact backed.cons_linked rfl ⟨place, here, content, alike.finds_iff.1 findsToo,
                  alike.finds_iff.1 finds, apart.symm, adds.kept _ _ atBackup,
                  adds.kept _ _ atTarget⟩ ⟨here, content, alike.finds_iff.1 finds, atTarget⟩
                  vacant

end TreeGrammar.Publish
