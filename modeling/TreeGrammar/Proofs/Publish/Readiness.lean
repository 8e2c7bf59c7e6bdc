/-
# TreeGrammar.Proofs.Publish.Readiness -- an attempt up to the first replacement

Before the first target is replaced every text stands in a temporary file, and whatever
stands at a target has a second name (`Ready`).  An attempt that is stopped earlier has
touched no target; one that is not goes on from such a moment with replacing alone
(`attempt_cases`).

A target whose file the system does not tell about gets no second name, so what is said
of second names is said of the names that the system tells about (`told`).
-/
import TreeGrammar.Proofs.Publish.PassMoments
import TreeGrammar.Proofs.Publish.RollingBack

set_option autoImplicit false

namespace TreeGrammar.Publish

open TreeGrammar.Tree (child)

variable {base : Tree} {directory : Path} {stamps : Nat → Text} {names : List Text}
variable {here : Location} {world : World} {files : List (Text × Text)} {told : Text → Prop}

/-- Every text is written to a temporary file, and whatever stands at a target that the system
tells about has a second name beside it. -/
def Ready (files : List (Text × Text)) (directory : Path) (stamps : Nat → Text)
    (told : Text → Prop) (tree : Tree) : Prop :=
  ∀ file ∈ files, ∃ time,
    tree.read (tempPath directory file.1 (stamps time)) = .ok (Text.encode file.2) ∧
      (told file.1 → ∀ entry, tree.look (directory.join file.1) = .ok (some entry) →
        ∃ content, entry = .file content ∧
          tree.read (savedPath directory file.1 (stamps time)) = .ok content)

/-- The jobs are all there, and each of them is backed up. -/
structure Prepared (files : List (Text × Text)) (directory : Path) (stamps : Nat → Text)
    (names : List Text) (told : Text → Prop) (here : Location) (saved : List Job)
    (tree ready : Tree) : Prop where
  pairs : (saved.map fun job => (job.name, job.text)) = files
  allFor : ∀ job ∈ saved, job.For stamps names
  distinct : (saved.map Job.name).Nodup
  keeps : tree.Keeps ready
  passed : Over here saved (BackedUp directory true told) tree.entryAt ready.entryAt

/-- Nothing stands at a target that did not stand there before. -/
def Untouched (names : List Text) (here : Location) (tree after : Tree) : Prop :=
  ∀ name ∈ names, after.entryAt (child here name) = tree.entryAt (child here name)

theorem exists_job {saved : List Job} (pairs : (saved.map fun job => (job.name, job.text)) = files)
    {file : Text × Text} (member : file ∈ files) :
    ∃ job ∈ saved, job.name = file.1 ∧ job.text = file.2 := by
  rw [← pairs] at member
  obtain ⟨job, jobMember, rfl⟩ := List.mem_map.1 member
  exact ⟨job, jobMember, rfl, rfl⟩

theorem Prepared.ready {saved : List Job} {tree ready : Tree}
    (fresh : Fresh base directory stamps names) (houses : tree.Houses directory here)
    (prepared : Prepared files directory stamps names told here saved tree ready) :
    Ready files directory stamps told ready := by
  intro file member
  obtain ⟨job, jobMember, name, text⟩ := exists_job prepared.pairs member
  have isFor := prepared.allFor job jobMember
  obtain ⟨time, stamped⟩ := isFor.stamped
  obtain ⟨middle, stages, saves⟩ := prepared.passed.inside job jobMember
  have housesThen := houses.keeps prepared.keeps
  obtain ⟨content, written, whole⟩ := stages.written
  rw [← name, ← text]
  refine ⟨time, ?_, fun isTold entry looked => ?_⟩
  · rw [← stamped]
    refine (Tree.read_eq_ok (finds_temp fresh isFor housesThen)).2 ⟨stages.fits, ?_⟩
    rw [← whole rfl, ← written]
    exact saves.temp
  · rw [← stamped]
    rw [Tree.look_eq (finds_target fresh isFor housesThen)] at looked
    by_cases fits : job.targetFits directory = true
    · rw [if_pos fits, Except.ok.injEq] at looked
      have target : middle.target = some entry := saves.target.symm.trans looked
      cases saved : job.saved with
      | true =>
          obtain ⟨found, there, backup⟩ := (saves.saved saved).resolve_left (by simp)
          refine ⟨found, Option.some.inj (target.symm.trans there), ?_⟩
          exact (Tree.read_eq_ok (finds_backup fresh isFor housesThen)).2 ⟨stages.fits, backup⟩
      | false =>
          have free := (saves.unsaved saved).2 rfl isTold fits
          exact absurd (target.symm.trans free) (by simp)
    · rw [if_neg fits] at looked
      exact absurd looked (by simp)

theorem untouched_of_fresh (fresh : Fresh base directory stamps names) {name : Text}
    (named : name ∈ names) (time : Nat) {other : Text} (otherNamed : other ∈ names) :
    child here name ≠ child here (tempName other (stamps time)) ∧
      child here name ≠ child here (backupName other (stamps time)) := by
  obtain ⟨temp, backup⟩ := fresh.unused other otherNamed time
  refine ⟨fun same => temp ?_, fun same => backup ?_⟩
  · exact Tree.child_injective same ▸ named
  · exact Tree.child_injective same ▸ named

/-- The first two passes touch no target. -/
theorem stageAndBackUp_untouched (fresh : Fresh base directory stamps names)
    (houses : world.tree.Houses directory here) (stamped : world.stamps = stamps)
    (named : ∀ file ∈ files, file.1 ∈ names) (distinct : (files.map Prod.fst).Nodup) :
    ∀ tree ∈ (stageAndBackUp directory files).moments world,
      Untouched names here world.tree tree := by
  obtain ⟨jobs, halt, results, allFor, -⟩ := stageAll_over fresh houses stamped named distinct
  have keeps := Script.run_keeps ((stageAll_asks directory files).mono
    fun asked => Call.isStaging_keeps) world
  have staged : ∀ tree ∈ (stageAll directory files).moments world,
      Untouched names here world.tree tree := fun tree member name isNamed =>
    stageAll_untouched fresh houses stamped named (fun other otherNamed time =>
      (untouched_of_fresh fresh isNamed time otherNamed).1) tree member
  have stagedEnd := staged _ (Script.end_mem_moments _ _)
  intro tree member
  rcases Script.mem_moments_bind member with early | late
  · exact staged tree early
  · rw [results] at late
    cases halt with
    | some halt =>
        rw [List.mem_singleton.1 late]
        exact stagedEnd
    | none =>
        intro name isNamed
        rw [backUpAll_untouched fresh (houses.keeps keeps) (fun job member => (allFor job member).1)
          ?_ tree late]
        · exact stagedEnd name isNamed
        · intro job jobMember
          obtain ⟨time, jobStamped⟩ := (allFor job jobMember).1.stamped
          rw [Job.backup, jobStamped]
          exact (untouched_of_fresh fresh isNamed time (allFor job jobMember).1.named).2

/-- **An attempt up to the first replacement.**  It is stopped and has touched no target, or all is
prepared and what follows is replacing. -/
theorem attempt_cases (fresh : Fresh base directory stamps names)
    (houses : world.tree.Houses directory here) (stamped : world.stamps = stamps)
    (answers : ∀ name, told name → Answers (attempt files directory) world (directory.join name))
    (named : files.map Prod.fst = names) :
    let script := attempt files directory
    (∃ jobs : List Job, ∃ halt, (script.run world).1 = (jobs.map (Job.staged directory), [],
        some halt) ∧ (∀ job ∈ jobs, job.For stamps names) ∧ (jobs.map Job.name).Nodup ∧
        ∀ tree ∈ script.moments world, Untouched names here world.tree tree) ∨
    ∃ saved : List Job, ∃ early, ∃ ready : World,
      Prepared files directory stamps names told here saved world.tree ready.tree ∧
      ready.tree ∈ early ∧ (∀ tree ∈ early, Untouched names here world.tree tree) ∧
      script.moments world =
        early ++ (replaceAll (saved.map (Job.staged directory))).trees ready ∧
      let outcome := (replaceAll (saved.map (Job.staged directory))).run ready
      script.run world = ((saved.map (Job.staged directory), outcome.1), outcome.2) := by
  have allNamed : ∀ file ∈ files, file.1 ∈ names := fun file member =>
    named ▸ List.mem_map_of_mem member
  have filesDistinct : (files.map Prod.fst).Nodup := named ▸ fresh.distinct
  rw [attempt_eq] at answers
  obtain ⟨jobs, halt, results, allFor, first, all, passed⟩ :=
    stageAndBackUp_over fresh houses stamped (fun name isTold step member =>
      answers name isTold step (Script.mem_calls_left member)) allNamed filesDistinct
  have untouched := stageAndBackUp_untouched fresh houses stamped allNamed filesDistinct
  have jobsDistinct := nodup_names first filesDistinct
  have ended := Script.end_mem_moments (stageAndBackUp directory files) world
  intro script
  simp only [script, attempt_eq]
  cases halt with
  | some halt =>
      refine .inl ⟨jobs, halt, ?_, allFor, jobsDistinct, fun tree member => ?_⟩
      · rw [Script.run_bind, results]
        rfl
      · rcases Script.mem_moments_bind member with early | late
        · exact untouched tree early
        · rw [results] at late
          rw [List.mem_singleton.1 late]
          exact untouched _ ended
  | none =>
      have keeps := stageAndBackUp_keeps directory files world
      refine .inr ⟨jobs, (stageAndBackUp directory files).moments world, _,
        ⟨all rfl, allFor, jobsDistinct, keeps, passed⟩, ended, untouched, ?_, ?_⟩
      · simp only [Script.moments_bind, Script.trees_bind, results, Script.trees, List.append_nil]
      · simp only [Script.run_bind, results]
        rfl

/-! ## While temporary files and backups are removed -/

theorem discarding_keeps (folder : Path) (listed : List Text) (world : World) :
    ∀ tree ∈ (discarding folder listed).moments world, world.tree.Keeps tree := by
  refine Script.moments_keeps ((discardAll_asks _).mono ?_)
  rintro asked ⟨path, -, rfl⟩
  simp

/-- Temporary files and backups are no targets. -/
theorem listed_untouched (fresh : Fresh base directory stamps names)
    (houses : world.tree.Houses directory here) {jobs : List Job}
    (allFor : ∀ job ∈ jobs, job.For stamps names) {list : Job → List Text}
    (within : ∀ job : Job, (list job).Sublist [job.temp, job.backup]) :
    ∀ tree ∈ (discarding directory.collapsed (jobs.flatMap list)).moments world,
      Untouched names here world.tree tree := by
  intro tree member name named
  refine discarding_untouched houses.collapsed (listed_single fresh allFor within) ?_ tree member
  intro other listed same
  have isFor : (⟨name, [], stamps 0, false⟩ : Job).For stamps names := ⟨named, 0, rfl⟩
  exact name_not_listed fresh allFor isFor within (Tree.child_injective same ▸ listed)

/-! ## While targets are replaced -/

theorem BackedUp.target {job : Job} {old ready : Standing}
    (backedUp : BackedUp directory true told job old ready) : ready.target = old.target := by
  obtain ⟨middle, stages, saves⟩ := backedUp
  exact saves.target.trans stages.target

/-- The target of a job that has been moved shows the new text, and what was there can be given
back, or nothing can because the system did not tell about it. -/
theorem BackedUp.moved {job : Job} {old ready new : Standing}
    (backedUp : BackedUp directory true told job old ready)
    (moves : Moves directory job ready new) :
    new.target = some (.file (Text.encode job.text)) ∧ Restorable directory job new ∧
      ((if job.saved then new.backup else none) = old.target ∨
        (¬ told job.name ∧ (if job.saved then new.backup else none) = none)) := by
  obtain ⟨middle, stages, saves⟩ := backedUp
  obtain ⟨content, written, whole⟩ := stages.written
  have target : new.target = some (.file (Text.encode job.text)) := by
    rw [moves.target, saves.temp, written, whole rfl]
  have backup : job.saved = true →
      ∃ content, old.target = some (.file content) ∧ new.backup = some (.file content) := by
    intro saved
    obtain ⟨found, there, second⟩ := (saves.saved saved).resolve_left (by simp)
    exact ⟨found, stages.target ▸ there, moves.backup.trans second⟩
  refine ⟨target, ⟨stages.fits, moves.fits, ⟨_, target⟩, fun saved => ?_⟩, ?_⟩
  · obtain ⟨found, -, second⟩ := backup saved
    exact ⟨found, second⟩
  · cases saved : job.saved with
    | true =>
        obtain ⟨found, there, second⟩ := backup saved
        rw [if_pos rfl, second, there]
        exact .inl rfl
    | false =>
        rw [if_neg (by simp)]
        by_cases isTold : told job.name
        · exact .inl ((saves.unsaved saved).2 rfl isTold moves.fits ▸ stages.target)
        · exact .inr ⟨isTold, rfl⟩

/-- While files are moved onto their targets, each target shows what it showed or the new text. -/
theorem Prepared.replacing {moved rest : List Job} {tree ready after : Tree}
    (fresh : Fresh base directory stamps names)
    (prepared : Prepared files directory stamps names told here (moved ++ rest) tree ready)
    (passed : Over here moved (Moves directory) ready.entryAt after.entryAt) :
    ∀ file ∈ files,
      after.entryAt (child here file.1) = tree.entryAt (child here file.1) ∨
        after.entryAt (child here file.1) = some (.file (Text.encode file.2)) := by
  intro file isFile
  obtain ⟨job, member, name, text⟩ := exists_job prepared.pairs isFile
  rw [← name, ← text]
  have wide := passed.widen fresh prepared.allFor
    (fun each isMoved => List.mem_append_left rest isMoved) prepared.distinct
  have backedUp := prepared.passed.inside job member
  rcases wide.inside job member with ⟨-, moves⟩ | ⟨-, same⟩
  · exact .inr (backedUp.moved moves).1
  · exact .inl ((congrArg Standing.target same).trans backedUp.target)

theorem Prepared.restorable {moved rest : List Job} {tree ready after : Tree}
    (prepared : Prepared files directory stamps names told here (moved ++ rest) tree ready)
    (passed : Over here moved (Moves directory) ready.entryAt after.entryAt) :
    ∀ job ∈ moved, Restorable directory job (job.standing here after.entryAt) ∧
      ((if job.saved then after.entryAt (child here job.backup) else none) =
          tree.entryAt (child here job.name) ∨
        (¬ told job.name ∧
          (if job.saved then after.entryAt (child here job.backup) else none) = none)) := by
  intro job isMoved
  exact ((prepared.passed.inside job (List.mem_append_left rest isMoved)).moved
    (passed.inside job isMoved)).2

end TreeGrammar.Publish
