/-
# TreeGrammar.Proofs.Publish.PassMoments -- what stands where while a pass is under way

At every moment of staging, backing up and removing, whatever is no temporary file and no
backup stands as it did before (`stageAll_untouched`, `backUpAll_untouched`,
`discarding_untouched`).  At every moment of replacing, the jobs moved are the first ones
(`replaceAll_moments`), and at every moment of restoring each target is restored or as it
was (`restoreAll_moments`).  Removing directories takes away directories and nothing else
(`removeDirectories_moments`).
-/
import TreeGrammar.Proofs.Publish.TakingBack
import TreeGrammar.Proofs.Script.Moments

set_option autoImplicit false

namespace TreeGrammar.Publish

open TreeGrammar.Tree (child)

variable {base : Tree} {directory : Path} {stamps : Nat → Text} {names : List Text}
variable {here location : Location} {world : World}

/-! ## Passes that leave a location alone -/

theorem stageOne_untouched (fresh : Fresh base directory stamps names)
    (houses : world.tree.Houses directory here) (stamped : world.stamps = stamps) {name : Text}
    (named : name ∈ names) (text : Text)
    (apart : ∀ time, location ≠ child here (tempName name (stamps time))) :
    ∀ tree ∈ (stageOne directory name text).moments world,
      tree.entryAt location = world.tree.entryAt location := by
  let job : Job := ⟨name, text, world.stamps world.clock, false⟩
  have isFor : job.For stamps names := ⟨named, world.clock, congrFun stamped world.clock⟩
  have elsewhere : location ≠ child here job.temp := by
    have other := apart world.clock
    rwa [← stamped] at other
  by_cases nul : (directory.join name).hasNul
  · simp only [stageOne_text, nul, if_true]
    exact List.forall_mem_singleton.2 rfl
  · simp only [stageOne_text, nul, Bool.false_eq_true, if_false]
    rcases world.answer_cases (.createTemp directory name) with
      ⟨cause, refused⟩ | ⟨path, created, granted, made, -⟩
    · rw [Script.moments_call refused]
      exact List.forall_mem_cons.2 ⟨rfl, List.forall_mem_singleton.2 rfl⟩
    · rw [Script.moments_call granted]
      obtain ⟨rfl, createdFile⟩ := World.attempt_createTemp made
      obtain ⟨-, -, begun⟩ := Tree.createFile_ok (finds_temp fresh isFor houses) createdFile
      have begunHere : created.entryAt location = world.tree.entryAt location := by
        rw [begun, Function.update_of_ne elsewhere]
      refine List.forall_mem_cons.2 ⟨rfl, ?_⟩
      have housesThen := houses.keeps (Tree.createFile_preserves createdFile).keeps
      rcases (world.changed created).answer_cases (.write (tempPath directory name
        (world.stamps world.clock)) (Text.encode text)) with
        ⟨cause, refused⟩ | ⟨_, written, granted, wrote, -⟩
      · rw [Script.moments_call refused]
        exact List.forall_mem_cons.2 ⟨begunHere, List.forall_mem_singleton.2 begunHere⟩
      · rw [Script.moments_call granted]
        obtain ⟨-, -, filled⟩ := Tree.writeFile_ok (finds_temp fresh isFor housesThen)
          (World.attempt_write wrote)
        have filledHere : written.entryAt location = world.tree.entryAt location := by
          rw [filled, Function.update_of_ne elsewhere]
          exact begunHere
        refine List.forall_mem_cons.2 ⟨begunHere, ?_⟩
        rcases ((world.changed created).changed written).answer_cases (.publish
          (tempPath directory name (world.stamps world.clock))) with
          ⟨cause, refused⟩ | ⟨_, published, granted, done, -⟩
        · rw [Script.moments_call refused]
          exact List.forall_mem_cons.2 ⟨filledHere, List.forall_mem_singleton.2 filledHere⟩
        · rw [Script.moments_call granted]
          have same := World.attempt_publish done
          subst same
          exact List.forall_mem_cons.2 ⟨filledHere, List.forall_mem_singleton.2 filledHere⟩

/-- **Staging** touches nothing but temporary files. -/
theorem stageAll_untouched (fresh : Fresh base directory stamps names)
    (houses : world.tree.Houses directory here) (stamped : world.stamps = stamps)
    {files : List (Text × Text)} (named : ∀ file ∈ files, file.1 ∈ names)
    (apart : ∀ name ∈ names, ∀ time, location ≠ child here (tempName name (stamps time))) :
    ∀ tree ∈ (stageAll directory files).moments world,
      tree.entryAt location = world.tree.entryAt location := by
  induction files generalizing world with
  | nil => exact List.forall_mem_singleton.2 rfl
  | cons file rest ih =>
      obtain ⟨name, text⟩ := file
      obtain ⟨nameNamed, restNamed⟩ := List.forall_mem_cons.1 named
      have first := stageOne_untouched fresh houses stamped nameNamed text (apart name nameNamed)
      have keeps := Script.run_keeps ((stageOne_asks directory name text).mono
        fun asked => Call.isStaging_keeps) world
      have behind := first _ (Script.end_mem_moments _ _)
      intro tree member
      rcases Script.mem_moments_bind member with early | late
      · exact first tree early
      · refine Eq.trans ?_ behind
        generalize outcome : ((stageOne directory name text).run world).1 = result at late
        rcases result with ⟨staged, _ | halt⟩
        · exact ih (houses.keeps keeps) (by rw [Script.run_stamps, stamped]) restNamed tree
            (Script.mem_moments_of_still (fun _ => ⟨_, rfl⟩) late)
        · rw [List.mem_singleton.1 late]

/-- **Backing up** touches nothing but backups. -/
theorem backUpAll_untouched (fresh : Fresh base directory stamps names)
    (houses : world.tree.Houses directory here) {jobs : List Job}
    (allFor : ∀ job ∈ jobs, job.For stamps names)
    (apart : ∀ job ∈ jobs, location ≠ child here job.backup) :
    ∀ tree ∈ (backUpAll (jobs.map (Job.staged directory))).moments world,
      tree.entryAt location = world.tree.entryAt location := by
  have both : ∀ tree ∈ (backUpAll (jobs.map (Job.staged directory))).moments world,
      tree.Houses directory here ∧ tree.entryAt location = world.tree.entryAt location := by
    refine (backUpAll_links _).invariant ⟨houses, rfl⟩ ?_
    rintro between asked result after (⟨path, rfl⟩ | ⟨entry, member, rfl⟩) ⟨still, same⟩ done
    · obtain ⟨-, -, -, rfl⟩ := World.attempt_exists done
      exact ⟨still, same⟩
    · obtain ⟨job, jobMember, rfl⟩ := List.mem_map.1 member
      obtain ⟨single, -, plain⟩ := single_of_for fresh (allFor job jobMember)
      have linked := World.attempt_link done
      simp only [Job.staged, backupPath_tempPath directory single plain] at linked
      obtain ⟨-, -, content, -, -, changed⟩ := Tree.link_ok
        (finds_target fresh (allFor job jobMember) still)
        (finds_backup fresh (allFor job jobMember) still) linked
      refine ⟨still.keeps (Tree.link_preserves linked).keeps, ?_⟩
      rw [changed, Function.update_of_ne (apart job jobMember), same]
  exact fun tree member => (both tree member).2

/-- **Removing** files of a directory touches nothing but these. -/
theorem discarding_untouched {folder : Path} (houses : world.tree.Houses folder here)
    {listed : List Text} (single : ∀ name ∈ listed, Path.IsComponent name)
    (apart : ∀ name ∈ listed, location ≠ child here name) :
    ∀ tree ∈ (discarding folder listed).moments world,
      tree.entryAt location = world.tree.entryAt location := by
  have both : ∀ tree ∈ (discarding folder listed).moments world,
      tree.Houses folder here ∧ tree.entryAt location = world.tree.entryAt location := by
    refine (discardAll_asks _).invariant ⟨houses, rfl⟩ ?_
    rintro between asked result after ⟨path, member, rfl⟩ ⟨still, same⟩ done
    obtain ⟨name, listedName, rfl⟩ := List.mem_map.1 member
    have removed := World.attempt_removeFile done
    obtain ⟨-, content, -, changed⟩ := Tree.removeFile_ok
      (still.finds (single name listedName)) removed
    refine ⟨still.keeps (Tree.removeFile_preserves removed).keeps, ?_⟩
    rw [changed, Function.update_of_ne (apart name listedName), same]
  exact fun tree member => (both tree member).2

/-! ## Passes over targets -/

/-- **Replacing.**  At every moment the jobs moved so far are the first ones. -/
theorem replaceAll_moments (fresh : Fresh base directory stamps names)
    (houses : world.tree.Houses directory here) {jobs : List Job}
    (allFor : ∀ job ∈ jobs, job.For stamps names) (distinct : (jobs.map Job.name).Nodup) :
    ∀ tree ∈ (replaceAll (jobs.map (Job.staged directory))).moments world,
      ∃ moved rest, jobs = moved ++ rest ∧
        Over here moved (Moves directory) world.tree.entryAt tree.entryAt := by
  induction jobs generalizing world with
  | nil => exact List.forall_mem_singleton.2 ⟨[], [], rfl, Over.refl (by simp)⟩
  | cons job others ih =>
      obtain ⟨isFor, othersFor⟩ := List.forall_mem_cons.1 allFor
      have start : ∃ moved rest, job :: others = moved ++ rest ∧
          Over here moved (Moves directory) world.tree.entryAt world.tree.entryAt :=
        ⟨[], job :: others, rfl, Over.refl (by simp)⟩
      rw [List.map_cons, replaceAll]
      rcases world.answer_cases (.replace (job.staged directory).temp (job.staged directory).target)
        with ⟨cause, refused⟩ | ⟨_, after, granted, made, -⟩
      · rw [Script.moments_call refused]
        exact List.forall_mem_cons.2 ⟨start, List.forall_mem_singleton.2 start⟩
      · rw [Script.moments_call granted]
        refine List.forall_mem_cons.2 ⟨start, fun tree member => ?_⟩
        have renamed := World.attempt_replace made
        have later : tree ∈ (replaceAll (others.map (Job.staged directory))).moments
            (world.changed after) := Script.mem_moments_of_still (fun _ => ⟨_, rfl⟩) member
        obtain ⟨moved, rest, rfl, passed⟩ := ih
          (houses.keeps (Tree.rename_preserves renamed).keeps) othersFor
          (List.nodup_cons.1 distinct).2 tree later
        have movedFor : ∀ each ∈ job :: moved, each.For stamps names := by
          refine List.forall_mem_cons.2 ⟨isFor, fun each moving => ?_⟩
          exact othersFor each (List.mem_append_left rest moving)
        have movedDistinct : ((job :: moved).map Job.name).Nodup := by
          rw [← List.cons_append, List.map_append] at distinct
          exact distinct.of_append_left
        exact ⟨job :: moved, rest, rfl,
          Over.cons fresh movedFor movedDistinct (moves_one fresh isFor houses renamed) passed⟩

theorem restoreOne_moments (entry : Staged) (world : World) :
    ∀ tree ∈ (restoreOne entry).moments world,
      tree = world.tree ∨ tree = ((restoreOne entry).run world).2.tree := by
  have reported : ∀ (target : Path) (answer : Except Refusal Unit) (after : World),
      (reportRefusal target answer).trees after = [] := by
    rintro target (cause | _) after <;> rfl
  unfold restoreOne
  cases entry.backup <;>
    simp only [Script.moments, Script.trees, Script.run, reported, run_reportRefusal] <;>
    simp

/-- **Restoring.**  At every moment each target is restored or has not changed yet. -/
theorem restoreAll_moments (fresh : Fresh base directory stamps names)
    (houses : world.tree.Houses directory here) {jobs : List Job}
    (allFor : ∀ job ∈ jobs, job.For stamps names) (distinct : (jobs.map Job.name).Nodup)
    (ready : ∀ job ∈ jobs, Restorable directory job (job.standing here world.tree.entryAt)) :
    ∀ tree ∈ (restoreAll (jobs.map (Job.staged directory))).moments world,
      Over here jobs (RestoredIf False) world.tree.entryAt tree.entryAt := by
  have still : ∀ (some : List Job) (view : View), Over here some (RestoredIf False) view view :=
    fun _ _ => Over.refl fun _ _ => .inr ⟨not_false, rfl⟩
  induction jobs generalizing world with
  | nil => exact List.forall_mem_singleton.2 (still [] _)
  | cons job rest ih =>
      obtain ⟨isFor, restFor⟩ := List.forall_mem_cons.1 allFor
      have first : Over here [job] (RestoredIf False) world.tree.entryAt
          ((restoreOne (job.staged directory)).run world).2.tree.entryAt :=
        restoreOne_over fresh isFor houses (by simp) (ready job List.mem_cons_self)
      have keeps := Script.run_keeps ((restoreOne_asks (job.staged directory)).mono
        (by rintro asked rfl; exact (job.staged directory).restoration_keeps)) world
      have readyThen : ∀ each ∈ rest, Restorable directory each (each.standing here
          ((restoreOne (job.staged directory)).run world).2.tree.entryAt) := by
        intro each member
        rw [first.untouched fresh (restFor each member) (by simpa using isFor)
          (by simpa using (Over.different_of_nodup distinct each member).symm)]
        exact ready each (List.mem_cons_of_mem _ member)
      intro tree member
      rw [List.map_cons, restoreAll] at member
      rcases Script.mem_moments_bind member with early | late
      · rcases restoreOne_moments _ _ tree early with rfl | rfl
        · exact still _ _
        · exact Over.cons fresh allFor distinct first (still rest _)
      · exact Over.cons fresh allFor distinct first (ih (houses.keeps keeps) restFor
          (List.nodup_cons.1 distinct).2 readyThen tree late)

/-! ## Removing directories -/

/-- Nothing has changed, but that directories are gone. -/
def Thinned (before after : Tree) : Prop :=
  ∀ location, after.entryAt location = before.entryAt location ∨
    (before.entryAt location = some .directory ∧ after.entryAt location = none)

theorem Thinned.keeps {before after : Tree} (thinned : Thinned before after) :
    after.Keeps before := by
  intro location stands
  rcases thinned location with same | ⟨-, gone⟩
  · exact same.symm.trans stands
  · exact absurd (gone.symm.trans stands) (by simp)

theorem removeDirectories_moments (paths : List Path) (world : World) :
    ∀ tree ∈ (removeDirectories paths).moments world, Thinned world.tree tree := by
  refine (removeDirectories_asks paths).invariant (fun _ => .inl rfl) ?_
  rintro between asked result after ⟨path, -, rfl⟩ thinned done
  have removed := World.attempt_removeDirectory done
  obtain ⟨place, finds, -⟩ := Tree.exists_place removed
  obtain ⟨-, stands, -, rfl⟩ := Tree.removeDirectory_ok finds removed
  intro location
  by_cases root : place = []
  · rw [root, Tree.entryAt_erase_root]
    exact thinned location
  · rw [Tree.entryAt_erase _ root]
    by_cases gone : location = place
    · subst gone
      rw [Function.update_self]
      rcases thinned location with same | ⟨stood, free⟩
      · exact .inr ⟨same.symm.trans stands, rfl⟩
      · exact absurd (free.symm.trans stands) (by simp)
    · rw [Function.update_of_ne gone]
      exact thinned location

end TreeGrammar.Publish
