/-
# TreeGrammar.Proofs.Publish.Success -- what a run that succeeds has changed

When publishing gives paths, these are the targets in the order of the files, each of them
holds its whole text, and nothing else has changed but that directories on the way of the
output directory have been made (`publish_succeeds`).  No temporary file and no backup is
left.

Calls may have been refused all the same: a question whether something is at a target, or a
directory that was there already.  Only a removal that is refused because nothing were
there, although something is, would go unnoticed; that the system never says so is a
hypothesis (`Truthful`).  That the names for temporary files and backups are free is needed for
the last promise alone: `publish_written` says the others without it, since a run that meets a
name that is taken gives no paths.
-/
import TreeGrammar.Proofs.Publish.Adding
import TreeGrammar.Proofs.Publish.Making
import TreeGrammar.Proofs.Publish.Readiness

set_option autoImplicit false

namespace TreeGrammar.Publish

open TreeGrammar.Tree (child)

variable {base : Tree} {directory : Path} {stamps : Nat → Text} {names : List Text}
variable {here location : Location} {world : World} {files : List (Text × Text)}

/-! ## Removals that succeed -/

/-- The system denies no removal with the reason that there is nothing to be removed. -/
def Truthful {α : Type} (script : Script α) (world : World) : Prop :=
  ∀ step ∈ script.calls world, ∀ path, step.2 = .removeFile path →
    ∀ cause, step.1.denial step.2 = some cause → cause.reason ≠ .missing

/-- What is not there does not come while files are removed. -/
theorem discarding_absent {folder : Path} {listed : List Text}
    (free : world.tree.entryAt location = none) :
    ((discarding folder listed).run world).2.tree.entryAt location = none := by
  have always : ∀ tree ∈ (discarding folder listed).moments world,
      tree.entryAt location = none := by
    refine (discardAll_asks _).invariant free ?_
    rintro between asked result after ⟨path, -, rfl⟩ absent done
    have removed := World.attempt_removeFile done
    obtain ⟨place, finds, -⟩ := Tree.exists_place removed
    obtain ⟨-, content, -, changed⟩ := Tree.removeFile_ok finds removed
    rw [changed]
    by_cases same : location = place
    · rw [same, Function.update_self]
    · rw [Function.update_of_ne same, absent]
  exact always _ (Script.end_mem_moments _ _)

/-- A removal that is refused for want of a file finds nothing. -/
theorem free_of_refused {path : Path} {short : Bool} {cause : Refusal}
    (truthful : ∀ cause, world.denial (.removeFile path) = some cause → cause.reason ≠ .missing)
    (finds : world.tree.Finds path short location)
    (refused : world.answer (.removeFile path) = (.error cause, world.tick))
    (missing : cause.reason = .missing) : world.tree.entryAt location = none := by
  cases denied : world.denial (.removeFile path) with
  | some other =>
      have same := (World.answer_of_denial denied).symm.trans refused
      rw [Prod.mk.injEq, Except.error.injEq] at same
      exact absurd (same.1 ▸ missing) (truthful other denied)
  | none =>
      cases removed : world.tree.removeFile path with
      | ok after =>
          have granted := World.answer_of_attempt denied
            (show world.attempt _ = .ok ((), _) by rw [World.attempt, removed]; rfl)
          exact absurd (refused.symm.trans granted) (by simp)
      | error reason =>
          have answered := World.answer_of_refusal denied
            (show world.attempt _ = .error reason by rw [World.attempt, removed]; rfl)
          have same := answered.symm.trans refused
          rw [Prod.mk.injEq, Except.error.injEq] at same
          rw [← same.1] at missing
          exact Tree.free_of_removeFile finds (missing ▸ removed)

/-- **Removing** that is not stopped leaves none of the files. -/
theorem discarding_ok {folder : Path} (houses : world.tree.Houses folder here)
    {listed : List Text} (single : ∀ name ∈ listed, Path.IsComponent name)
    (truthful : Truthful (discarding folder listed) world)
    (done : ((discarding folder listed).run world).1 = .ok ()) :
    ∀ name ∈ listed,
      ((discarding folder listed).run world).2.tree.entryAt (child here name) = none := by
  induction listed generalizing world with
  | nil => simp
  | cons name rest ih =>
      obtain ⟨nameSingle, restSingle⟩ := List.forall_mem_cons.1 single
      have finds := houses.finds nameSingle
      rw [discarding, List.map_cons, discardAll] at done truthful ⊢
      rcases world.answer_cases (.removeFile (folder.join name)) with
        ⟨cause, refused⟩ | ⟨_, after, granted, made, -⟩
      · rw [Script.run_call refused] at done ⊢
        have goesOn : cause.reason = .missing := by
          by_contra other
          simp [other, Script.run] at done
        simp only [goesOn, if_true] at done ⊢
        have free := free_of_refused
          (fun other => truthful _ List.mem_cons_self _ rfl other) finds refused goesOn
        refine List.forall_mem_cons.2 ⟨@discarding_absent _ world.tick _ _ free, ?_⟩
        refine @ih world.tick houses restSingle (fun step member => truthful step ?_) done
        rw [Script.calls_call refused]
        simp only [goesOn, if_true]
        exact List.mem_cons_of_mem _ member
      · rw [Script.run_call granted] at done ⊢
        have removed := World.attempt_removeFile made
        obtain ⟨-, content, -, changed⟩ := Tree.removeFile_ok finds removed
        have gone : (world.changed after).tree.entryAt (child here name) = none := by
          rw [World.changed_tree, changed, Function.update_self]
        refine List.forall_mem_cons.2 ⟨discarding_absent gone, ?_⟩
        refine @ih (world.changed after)
          (houses.keeps (Tree.removeFile_preserves removed).keeps) restSingle
          (fun step member => truthful step ?_) done
        rw [Script.calls_call granted]
        exact List.mem_cons_of_mem _ member

/-! ## An attempt that succeeds -/

theorem conclude_ok {created paths : List Path} {staged moved : List Staged} {halt : Option Halt}
    (done : ((conclude created (staged, moved, halt)).run world).1 = .ok paths) :
    halt = none ∧ paths = staged.map Staged.target ∧
      ((discardAll (staged.filterMap Staged.backup)).run world).1 = .ok () ∧
      ((conclude created (staged, moved, halt)).run world).2 =
        ((discardAll (staged.filterMap Staged.backup)).run world).2 := by
  rcases halt with _ | ⟨target, cause⟩ | _
  · rw [conclude, Script.run_bind] at done ⊢
    cases discarded : ((discardAll (staged.filterMap Staged.backup)).run world).1 with
    | error cause =>
        rw [discarded] at done
        exact absurd done (by simp [Script.run])
    | ok _ =>
        rw [discarded] at done
        exact ⟨rfl, (Except.ok.inj done).symm, rfl, rfl⟩
  · rw [conclude, Script.run_bind] at done
    revert done
    generalize ((rollBack staged moved created).run world).1 = result
    cases result <;> exact fun done => absurd done (by simp [Script.run])
  · exact absurd done (by simp [conclude, Script.run])

section Moved

variable {moved : List Job} {tree ready after : Tree}

/-- When all is moved, nothing has changed but the targets and the backups. -/
theorem Prepared.elsewhere
    (prepared : Prepared files directory stamps names (fun _ => False) here moved tree ready)
    (passed : Over here moved (Moves directory) ready.entryAt after.entryAt)
    (noTarget : ∀ job ∈ moved, location ≠ child here job.name)
    (noBackup : ∀ name ∈ moved.flatMap Job.backups, location ≠ child here name) :
    after.entryAt location = tree.entryAt location := by
  have both := prepared.passed.comp passed
  by_cases inside : ∃ job ∈ moved, location ∈ job.places here
  · obtain ⟨job, member, mine⟩ := inside
    obtain ⟨between, ⟨middle, stages, saves⟩, moves⟩ := both.inside job member
    simp only [Job.places, List.mem_cons, List.not_mem_nil, or_false] at mine
    rcases mine with rfl | rfl | rfl
    · exact moves.temp.trans stages.free.symm
    · cases saved : job.saved with
      | true => exact absurd rfl (noBackup job.backup
          (List.mem_flatMap.2 ⟨job, member, by simp [Job.backups, saved]⟩))
      | false => exact moves.backup.trans ((saves.unsaved saved).1.trans stages.backup)
    · exact absurd rfl (noTarget job member)
  · exact both.outside location fun job member mine => inside ⟨job, member, mine⟩

/-- What an attempt that succeeds leaves: the targets have their texts, and nothing else has
changed. -/
structure Written (files : List (Text × Text)) (directory : Path) (here : Location)
    (tree after : Tree) : Prop where
  keeps : tree.Keeps after
  targets : ∀ file ∈ files, directory.fits file.1 = true ∧
    after.entryAt (child here file.1) = some (.file (Text.encode file.2))
  elsewhere : ∀ location, (∀ file ∈ files, location ≠ child here file.1) →
    after.entryAt location = tree.entryAt location

/-- Once the backups are removed, nothing has changed but the targets, if the backups were made
where nothing stood. -/
theorem Prepared.written (fresh : Fresh base directory stamps names)
    (houses : tree.Houses directory here)
    (prepared : Prepared files directory stamps names (fun _ => False) here moved tree ready)
    (passed : Over here moved (Moves directory) ready.entryAt world.tree.entryAt)
    (keeps : tree.Keeps world.tree)
    (free : ∀ job ∈ moved, job.saved = true → tree.entryAt (child here job.backup) = none)
    (truthful : Truthful (discarding directory.collapsed (moved.flatMap Job.backups)) world)
    (done : ((discarding directory.collapsed (moved.flatMap Job.backups)).run world).1 = .ok ()) :
    Written files directory here tree
      ((discarding directory.collapsed (moved.flatMap Job.backups)).run world).2.tree := by
  have housesThen := houses.keeps keeps
  have single := listed_single fresh prepared.allFor backups_sublist
  have discardEnd := Script.end_mem_moments
    (discarding directory.collapsed (moved.flatMap Job.backups)) world
  refine ⟨keeps.trans (discarding_keeps _ _ _ _ discardEnd), fun file member => ?_,
    fun location noTarget => ?_⟩
  · obtain ⟨job, isMoved, name, text⟩ := exists_job prepared.pairs member
    have moves := passed.inside job isMoved
    rw [← name, ← text]
    refine ⟨moves.fits, ?_⟩
    rw [listed_untouched fresh housesThen prepared.allFor backups_sublist _ discardEnd job.name
      (prepared.allFor job isMoved).named]
    exact ((prepared.passed.inside job isMoved).moved moves).1
  · by_cases listed : ∃ name ∈ moved.flatMap Job.backups, location = child here name
    · -- a backup is gone, and was not there before
      obtain ⟨name, member, rfl⟩ := listed
      rw [discarding_ok housesThen.collapsed single truthful done name member]
      obtain ⟨job, isMoved, mine⟩ := List.mem_flatMap.1 member
      cases saved : job.saved with
      | true =>
          have same : name = job.backup := by simpa [Job.backups, saved] using mine
          exact same ▸ (free job isMoved saved).symm
      | false => simp [Job.backups, saved] at mine
    · have noBackup : ∀ name ∈ moved.flatMap Job.backups, location ≠ child here name :=
        fun name member same => listed ⟨name, member, same⟩
      rw [discarding_untouched housesThen.collapsed single noBackup _ discardEnd]
      refine prepared.elsewhere passed
        (fun job isMoved => noTarget (job.name, job.text) ?_) noBackup
      rw [← prepared.pairs]
      exact List.mem_map_of_mem isMoved

/-- Every backup of an attempt that is not stopped was made where nothing stood before it. -/
theorem attempt_vacant (sound : world.tree.Sound) {staged entries : List Staged}
    (passed : ((attempt files directory).run world).1 = (staged, entries, none)) :
    Vacant world.tree world.tree staged := by
  rw [attempt, Script.run_bind] at passed
  have first := stageAll_added (Added.refl sound) directory files
  have plain := (stageAll_strewn (Strewn.refl sound) directory files).2
  rcases stagedThen : (stageAll directory files).run world with ⟨⟨begun, _ | halt⟩, next⟩
  · rw [stagedThen] at first plain passed
    have second := (backUpAll_added first.toAlike plain).2.2
    rcases savedThen : (backUpAll begun).run next with ⟨⟨saved, _ | halt⟩, last⟩
    · simp only [Script.run_bind, savedThen, Script.run, Prod.mk.injEq] at passed second
      obtain ⟨vacant, -⟩ := second trivial
      intro entry member backup isSaved place finds
      exact first.free_of_free (vacant entry (passed.1 ▸ member) backup isSaved place finds)
    · simp [Script.run_bind, savedThen, Script.run] at passed
  · simp [stagedThen, Script.run] at passed

theorem attempt_succeeds (sound : world.tree.Sound)
    (fresh : Fresh base directory world.stamps names) (houses : world.tree.Houses directory here)
    (named : files.map Prod.fst = names)
    {created paths : List Path}
    (truthful : Truthful ((attempt files directory).bind (conclude created)) world)
    (done : (((attempt files directory).bind (conclude created)).run world).1 = .ok paths) :
    paths = files.map (fun file => directory.join file.1) ∧
      Written files directory here world.tree
        (((attempt files directory).bind (conclude created)).run world).2.tree := by
  rw [Script.run_bind] at done ⊢
  have untold : ∀ name, (fun _ : Text => False) name →
      Answers (attempt files directory) world (directory.join name) := fun _ none => absurd none id
  rcases attempt_cases fresh houses rfl untold named with
    ⟨jobs, halt, results, -⟩ | ⟨saved, early, ready, prepared, -, -, -, results⟩
  · rw [results] at done
    exact absurd (conclude_ok done).1 (by simp)
  · have keeps := Script.run_keeps (attempt_asks files directory) world
    obtain ⟨moved, rest, halt, replaced, rfl, all, passed, -⟩ :=
      replaceAll_over fresh (houses.keeps prepared.keeps) prepared.allFor prepared.distinct
    have concluding : ∀ step ∈ (conclude created ((attempt files directory).run world).1).calls
        ((attempt files directory).run world).2, ∀ path, step.2 = .removeFile path →
          ∀ cause, step.1.denial step.2 = some cause → cause.reason ≠ .missing :=
      fun step member => truthful step (Script.mem_calls_right member)
    rw [results, replaced] at done concluding ⊢
    rw [results] at keeps
    obtain ⟨rfl, rfl, discarded, same⟩ := conclude_ok done
    obtain rfl := all rfl
    have vacant := attempt_vacant sound (by rw [results, replaced])
    simp only [List.append_nil] at prepared passed keeps discarded same concluding vacant ⊢
    rw [same]
    rw [backups_staged] at discarded ⊢
    refine ⟨?_, prepared.written fresh houses passed keeps (fun job isMoved saved => ?_)
      (fun step member => ?_) discarded⟩
    · rw [← prepared.pairs, List.map_map, List.map_map]
      rfl
    · obtain ⟨middle, stages, -⟩ := prepared.passed.inside job isMoved
      have finds := finds_backup fresh (prepared.allFor job isMoved) houses
      rw [stages.fits] at finds
      exact vacant _ (List.mem_map_of_mem isMoved) _ (by simp [Job.staged, saved]) _ finds
    · refine concluding step (Script.mem_calls_left ?_)
      rwa [backups_staged]

end Moved

/-! ## A run that succeeds -/

/-- What a run that gives paths has done to the tree before it. -/
structure Succeeds (files : List (Text × Text)) (directory : Path) (stamps : Nat → Text)
    (paths : List Path) (before after : Tree) : Prop where
  /-- The paths are those of the targets, in the order of the files. -/
  paths_eq : paths = files.map fun file => directory.join file.1
  /-- Each target has its text. -/
  reads : ∀ file ∈ files, after.read (directory.join file.1) = .ok (Text.encode file.2)
  /-- Where no target is, nothing has changed but for directories made on the way. -/
  elsewhere : ∀ location,
    (∀ file ∈ files, ¬ after.Finds (directory.join file.1) true location) →
      after.entryAt location = before.entryAt location ∨
        (before.entryAt location = none ∧ after.entryAt location = some .directory ∧
          ∃ path ∈ directory :: directory.ancestors, after.Finds path true location)
  /-- No temporary file and no backup is left. -/
  tidy : ∀ file ∈ files, ∀ time entry,
    after.look (tempPath directory file.1 (stamps time)) ≠ .ok (some entry) ∧
      after.look (savedPath directory file.1 (stamps time)) ≠ .ok (some entry)

variable {before made after : Tree}

/-- A name that was free in the directory and is no target is free when all is written. -/
theorem Written.vacant (written : Written files directory here before after)
    (houses : before.Houses directory here) {name : Text} (single : Path.IsComponent name)
    (noTarget : name ∉ files.map Prod.fst)
    (vacant : ∀ entry, before.look (directory.collapsed.join name) ≠ .ok (some entry))
    (entry : Entry) : after.look (directory.collapsed.join name) ≠ .ok (some entry) := by
  rw [Tree.look_eq ((houses.keeps written.keeps).collapsed.finds single),
    written.elsewhere _ fun file member same => noTarget ?_,
    ← Tree.look_eq (houses.collapsed.finds single)]
  · exact vacant entry
  · exact Tree.child_injective same ▸ List.mem_map_of_mem member

theorem Written.reads (written : Written files directory here made after)
    (houses : made.Houses directory here) {file : Text × Text} (member : file ∈ files)
    (single : Path.IsComponent file.1) :
    after.read (directory.join file.1) = .ok (Text.encode file.2) :=
  (Tree.read_eq_ok ((houses.keeps written.keeps).finds single)).2 (written.targets file member)

/-- Away from the targets a run has made directories on the way of the output directory, and done
nothing else. -/
theorem Written.apart (written : Written files directory here made after) (sound : made.Sound)
    (grown : Tree.Grown (directory :: directory.ancestors) before made)
    (houses : made.Houses directory here) (single : ∀ file ∈ files, Path.IsComponent file.1)
    (noTarget : ∀ file ∈ files, ¬ after.Finds (directory.join file.1) true location) :
    after.entryAt location = before.entryAt location ∨
      (before.entryAt location = none ∧ after.entryAt location = some .directory ∧
        ∃ path ∈ directory :: directory.ancestors, after.Finds path true location) := by
  have same := written.elsewhere location fun file member here => noTarget file member (by
    have finds := (houses.keeps written.keeps).finds (single file member)
    rwa [(written.targets file member).1, ← here] at finds)
  rcases grown.cases location with kept | ⟨free, directory, path, onWay, finds⟩
  · exact .inl (same.trans kept)
  · exact .inr ⟨free, same.trans directory, path, onWay, finds.keeps sound written.keeps⟩

theorem Written.succeeds (sound : made.Sound)
    (grown : Tree.Grown (directory :: directory.ancestors) before made)
    (fresh : Fresh made directory stamps (files.map Prod.fst)) (houses : made.Houses directory here)
    (written : Written files directory here made after) :
    Succeeds files directory stamps (files.map fun file => directory.join file.1) before after := by
  have single : ∀ file ∈ files, Path.IsComponent file.1 := fun file member =>
    fresh.single _ (List.mem_map_of_mem member)
  refine ⟨rfl, fun file member => written.reads houses member (single file member),
    fun location => written.apart sound grown houses single, fun file member time entry => ?_⟩
  have named : file.1 ∈ files.map Prod.fst := List.mem_map_of_mem member
  obtain ⟨noTemp, noBackup⟩ := fresh.unused _ named time
  have plain := (fresh.plain time).2
  exact ⟨written.vacant houses (isComponent_tempName (single file member) plain) noTemp
      (fun other => (fresh.vacant _ named time other).1) entry,
    written.vacant houses (isComponent_backupName (single file member) plain) noBackup
      (fun other => (fresh.vacant _ named time other).2) entry⟩

/-- A run that gives paths has made the output directory and then written the targets.  It is not
supposed that the names for temporary files and backups are free: where one is not, the run does
not give paths. -/
theorem publish_written (sound : world.tree.Sound)
    (fresh : Fresh base directory world.stamps (files.map Prod.fst))
    (truthful : Truthful (publish files directory) world) {paths : List Path}
    (done : ((publish files directory).run world).1 = .ok paths) :
    ∃ made here, made = ((prepare directory).run world).2.tree ∧ made.Sound ∧
      Tree.Grown (directory :: directory.ancestors) world.tree made ∧
      made.Houses directory here ∧ paths = files.map (fun file => directory.join file.1) ∧
      Written files directory here made ((publish files directory).run world).2.tree := by
  cases nul : directory.hasNul with
  | true =>
      rw [publish_of_nul nul, lookThrough, Script.run_bind] at done
      revert done
      generalize ((missingAmong _).run world).1 = found
      cases found <;> exact fun done => absurd done (by simp [Script.run])
  | false =>
      cases prepared : ((prepare directory).run world).1 with
      | error failure =>
          rw [(publish_unprepared nul prepared).1] at done
          exact absurd done (by simp)
      | ok created =>
          obtain ⟨runs, calls, -⟩ := publish_prepared files nul prepared
          have madeEnd := Script.end_mem_moments (prepare directory) world
          obtain ⟨madeSound, grown⟩ := prepare_grown sound _ madeEnd
          obtain ⟨here, houses⟩ := prepare_houses sound prepared
          rw [← Script.run_stamps (prepare directory) world] at fresh
          rw [runs] at done ⊢
          obtain ⟨targets, written⟩ := attempt_succeeds madeSound fresh houses rfl
            (fun step called => truthful step (calls ▸ List.mem_append_right _ called)) done
          exact ⟨_, here, rfl, madeSound, grown, houses, targets, written⟩

/-- **Success.**  When a run gives paths, these are the paths of the targets in order, each target
has its text, and nothing else has changed but that directories on the way of the output directory
have been made. -/
theorem publish_succeeds (sound : world.tree.Sound)
    (fresh : Fresh ((prepare directory).run world).2.tree directory world.stamps
      (files.map Prod.fst))
    (truthful : Truthful (publish files directory) world) {paths : List Path}
    (done : ((publish files directory).run world).1 = .ok paths) :
    Succeeds files directory world.stamps paths world.tree
      ((publish files directory).run world).2.tree := by
  obtain ⟨made, here, rfl, madeSound, grown, houses, rfl, written⟩ :=
    publish_written sound fresh truthful done
  exact written.succeeds madeSound grown fresh houses

/-- One target is replaced and another one is made. -/
theorem sample_succeeds :
    let outcome := (publish sampleFiles sampleDirectory).run (sampleWorld [])
    outcome.1 = .ok [sampleDirectory.join ['a'], sampleDirectory.join ['b']] ∧
      Succeeds sampleFiles sampleDirectory (fun _ => ['s'])
        [sampleDirectory.join ['a'], sampleDirectory.join ['b']] sampleTree outcome.2.tree := by
  have done : ((publish sampleFiles sampleDirectory).run (sampleWorld [])).1 =
      .ok [sampleDirectory.join ['a'], sampleDirectory.join ['b']] := by decide +kernel
  have fresh : Fresh ((prepare sampleDirectory).run (sampleWorld [])).2.tree sampleDirectory
      (sampleWorld []).stamps (sampleFiles.map Prod.fst) := sample_fresh
  have calm : ∀ step ∈ (publish sampleFiles sampleDirectory).calls (sampleWorld []),
      step.1.denial step.2 = none := by decide +kernel
  have truthful : Truthful (publish sampleFiles sampleDirectory) (sampleWorld []) := by
    intro step called path _ cause denied
    rw [calm step called] at denied
    exact absurd denied (by simp)
  exact ⟨done, publish_succeeds sample_sound fresh truthful done⟩

end TreeGrammar.Publish
