/-
# TreeGrammar.Proofs.Publish.Attempt -- what the three passes leave together

Staging and backing up leave each job with a temporary file and, if there is something at
its target, a second name for it (`stageAndBackUp_over`).  Whatever stops an attempt, each
job is either published, with its backup if there was something at the target, or still
waiting, with its target as it was (`attempt_over`).
-/
import TreeGrammar.Proofs.Publish.Passes

set_option autoImplicit false

namespace TreeGrammar.Publish

open TreeGrammar.Tree (child)

/-! ## The standing of the jobs -/

/-- The temporary file has become the target, and what was there has a backup. -/
structure Published (directory : Path) (job : Job) (old new : Standing) : Prop where
  fits : job.targetFits directory = true
  temp : new.temp = none
  target : new.target = some (.file (Text.encode job.text))
  saved : job.saved = true →
    ∃ content, old.target = some (.file content) ∧ new.backup = some (.file content)
  unsaved : job.saved = false → old.target = none ∧ new.backup = old.backup

/-- There is a temporary file, and the target is as it was. -/
structure Waiting (job : Job) (old new : Standing) : Prop where
  temp : ∃ content, new.temp = some (.file content)
  target : new.target = old.target
  saved : job.saved = true →
    new.backup = old.backup ∨ ∃ content, new.backup = some (.file content)
  unsaved : job.saved = false → new.backup = old.backup

/-- What an attempt leaves of a job, given the jobs that it moved. -/
structure Attempted (directory : Path) (moved : List Job) (job : Job) (old new : Standing) :
    Prop where
  fits : job.tempFits directory = true
  free : old.temp = none
  published : job ∈ moved → Published directory job old new
  waiting : job ∉ moved → Waiting job old new

section Attempt

variable {base : Tree} {directory : Path} {stamps : Nat → Text} {names : List Text}
variable {here : Location} {world : World}

theorem Stages.over_saved {saved jobs : List Job} {whole : Bool} {view after : View}
    (plains : saved.map Job.plain = jobs)
    (passed : Over here jobs (Stages directory whole) view after) :
    Over here saved (Stages directory whole) view after := by
  subst plains
  constructor
  · intro job member
    obtain ⟨fits, free, written, backup, target⟩ :=
      passed.inside job.plain (List.mem_map_of_mem member)
    exact ⟨fits, free, written, backup, target⟩
  · intro location apart
    refine passed.outside location fun job member => ?_
    obtain ⟨each, eachMember, rfl⟩ := List.mem_map.1 member
    exact apart each eachMember

/-! ## Staging and backing up -/

/-- The first two passes, up to the first refusal. -/
def stageAndBackUp (directory : Path) (files : List (Text × Text)) :
    Script (List Staged × Option Halt) :=
  (stageAll directory files).bind fun
    | (staged, some halt) => .done (staged, some halt)
    | (staged, none) => backUpAll staged

theorem attempt_eq (files : List (Text × Text)) (directory : Path) :
    attempt files directory = (stageAndBackUp directory files).bind fun
      | (staged, some halt) => .done (staged, [], some halt)
      | (saved, none) =>
          (replaceAll saved).bind fun (moved, halt) => .done (saved, moved, halt) := by
  rw [attempt, stageAndBackUp, Script.bind_assoc]
  congr
  funext ⟨staged, halt⟩
  cases halt <;> rfl

theorem stageAndBackUp_asks (directory : Path) (files : List (Text × Text)) :
    (stageAndBackUp directory files).Asks fun asked => asked.isStaging ∨ asked.isBackingUp := by
  refine Script.asks_bind ((stageAll_asks directory files).mono fun _ => .inl) ?_
  rintro ⟨staged, _ | halt⟩
  · exact (backUpAll_asks staged).mono fun _ => .inr
  · trivial

theorem stageAndBackUp_keeps (directory : Path) (files : List (Text × Text)) (world : World) :
    world.tree.Keeps ((stageAndBackUp directory files).run world).2.tree :=
  Script.run_keeps ((stageAndBackUp_asks directory files).mono fun _ sort =>
    sort.elim Call.isStaging_keeps Call.isBackingUp_keeps) world

/-- There is a temporary file and, if the job is marked so, a second name for what is at the
target. -/
def BackedUp (directory : Path) (whole : Bool) (answered : Text → Prop) (job : Job)
    (old new : Standing) : Prop :=
  ∃ middle, Stages directory whole job old middle ∧ Saves directory whole answered job middle new

/-- **The first two passes.**  The jobs are the first files, and all of them if nothing stops the
passes; each has a temporary file, and nothing else has changed but backups. -/
theorem stageAndBackUp_over (fresh : Fresh base directory stamps names)
    (houses : world.tree.Houses directory here) (stamped : world.stamps = stamps)
    {files : List (Text × Text)} {answered : Text → Prop}
    (answers : ∀ name, answered name →
      Answers (stageAndBackUp directory files) world (directory.join name))
    (named : ∀ file ∈ files, file.1 ∈ names) (distinct : (files.map Prod.fst).Nodup) :
    let outcome := (stageAndBackUp directory files).run world
    ∃ jobs : List Job, ∃ halt, outcome.1 = (jobs.map (Job.staged directory), halt) ∧
      (∀ job ∈ jobs, job.For stamps names) ∧
      (jobs.map fun job => (job.name, job.text)) <+: files ∧
      (halt = none → (jobs.map fun job => (job.name, job.text)) = files) ∧
      Over here jobs (BackedUp directory halt.isNone answered) world.tree.entryAt
        outcome.2.tree.entryAt := by
  intro outcome
  obtain ⟨jobs, halt, results, allFor, first, all, staged⟩ :=
    stageAll_over fresh houses stamped named distinct
  have keeps := Script.run_keeps ((stageAll_asks directory files).mono
    fun asked => Call.isStaging_keeps) world
  cases halt with
  | some halt =>
      simp only [outcome, stageAndBackUp, Script.run_bind, results]
      exact ⟨jobs, some halt, rfl, fun job member => (allFor job member).1, first, (by simp),
        staged.mono fun _ _ _ new stages => ⟨new, stages, Saves.refl new⟩⟩
  | none =>
      obtain ⟨saved, halt, savedResults, plains, savedOver⟩ := backUpAll_over fresh
        (houses.keeps keeps) (fun name isAnswered step member asked =>
          answers name isAnswered step (by
            refine Script.mem_calls_right ?_
            rw [results]
            exact member) asked) allFor (nodup_names first distinct)
      have pairs : (saved.map fun job => (job.name, job.text)) =
          jobs.map fun job => (job.name, job.text) := by
        rw [← plains, List.map_map]
        rfl
      simp only [outcome, stageAndBackUp, Script.run_bind, results, savedResults]
      refine ⟨saved, halt, rfl, for_of_plain plains fun job member => (allFor job member).1,
        pairs ▸ first, fun _ => pairs.trans (all rfl), ?_⟩
      refine ((Stages.over_saved plains staged).comp savedOver).mono
        fun job member old new both => ?_
      obtain ⟨middle, stages, saves⟩ := both
      exact ⟨middle, stages.mono, saves⟩

/-! ## All three passes -/

section Passed

variable {job : Job} {whole : Bool} {answered : Text → Prop} {old saved new : Standing}

theorem BackedUp.waiting (backedUp : BackedUp directory whole answered job old new) :
    Attempted directory [] job old new := by
  obtain ⟨middle, stages, saves⟩ := backedUp
  obtain ⟨content, written, -⟩ := stages.written
  refine ⟨stages.fits, stages.free, fun member => absurd member List.not_mem_nil,
    fun _ => ⟨⟨content, saves.temp.trans written⟩, saves.target.trans stages.target,
      fun saved => ?_, fun unsaved => (saves.unsaved unsaved).1.trans stages.backup⟩⟩
  rcases saves.saved saved with ⟨-, same⟩ | ⟨other, -, backup⟩
  · exact .inl (same.trans stages.backup)
  · exact .inr ⟨other, backup⟩

theorem BackedUp.published (backedUp : BackedUp directory true (fun _ => True) job old saved)
    (moves : Moves directory job saved new) : Published directory job old new := by
  obtain ⟨middle, stages, saves⟩ := backedUp
  obtain ⟨content, written, right⟩ := stages.written
  refine ⟨moves.fits, moves.temp, ?_, fun isSaved => ?_, fun unsaved => ?_⟩
  · rw [moves.target, saves.temp, written, right rfl]
  · obtain ⟨found, target, backup⟩ := (saves.saved isSaved).resolve_left (by simp)
    exact ⟨found, stages.target ▸ target, moves.backup.trans backup⟩
  · obtain ⟨same, free⟩ := saves.unsaved unsaved
    exact ⟨stages.target ▸ free rfl trivial moves.fits,
      moves.backup.trans (same.trans stages.backup)⟩

end Passed

theorem attempt_asks (files : List (Text × Text)) (directory : Path) :
    (attempt files directory).Asks fun asked => ∀ path, asked ≠ .removeDirectory path := by
  rw [attempt_eq]
  refine Script.asks_bind ((stageAndBackUp_asks directory files).mono fun _ sort =>
    sort.elim Call.isStaging_keeps Call.isBackingUp_keeps) ?_
  rintro ⟨saved, _ | halt⟩
  · refine Script.asks_bind ((replaceAll_asks saved).mono ?_) fun _ => trivial
    rintro asked ⟨entry, -, rfl⟩
    simp
  · trivial

/-- **An attempt.**  The jobs are the first files, and all of them if nothing stops the
attempt; those moved are published, the others are waiting, and nothing else has changed. -/
theorem attempt_over (fresh : Fresh base directory stamps names)
    (houses : world.tree.Houses directory here) (stamped : world.stamps = stamps)
    {files : List (Text × Text)} (honest : Honest (attempt files directory) world)
    (named : ∀ file ∈ files, file.1 ∈ names) (distinct : (files.map Prod.fst).Nodup) :
    let outcome := (attempt files directory).run world
    ∃ moved rest : List Job, ∃ halt,
      outcome.1 = ((moved ++ rest).map (Job.staged directory), moved.map (Job.staged directory),
        halt) ∧
      (∀ job ∈ moved ++ rest, job.For stamps names) ∧
      ((moved ++ rest).map fun job => (job.name, job.text)) <+: files ∧
      (halt = none → rest = [] ∧ (moved.map fun job => (job.name, job.text)) = files) ∧
      Over here (moved ++ rest) (Attempted directory moved) world.tree.entryAt
        outcome.2.tree.entryAt ∧
      ∀ asked : Call, asked.isLater →
        ((attempt files directory).Grants world asked ↔
          ∃ job ∈ moved, asked = job.replacement directory) := by
  intro outcome
  rw [attempt_eq] at honest
  obtain ⟨jobs, halt, results, allFor, first, all, passed⟩ :=
    stageAndBackUp_over fresh houses stamped (fun name (_ : True) =>
      Honest.answers (fun step member => honest step (Script.mem_calls_left member))
        (directory.join name)) named distinct
  have early : ∀ asked : Call, asked.isLater →
      ¬ (stageAndBackUp directory files).Grants world asked := fun asked later granted =>
    ((stageAndBackUp_asks directory files).of_grants granted).elim later.1 later.2
  simp only [outcome, attempt_eq, Script.run_bind, Script.grants_bind, results]
  cases halt with
  | some halt =>
      refine ⟨[], jobs, some halt, rfl, allFor, first, (by simp),
        passed.mono fun _ _ _ _ backedUp => backedUp.waiting, fun asked later => ?_⟩
      exact iff_of_false (not_or.2 ⟨early asked later, Script.not_grants_done⟩) (by simp)
  | none =>
      have jobsDistinct := nodup_names first distinct
      obtain ⟨moved, rest, halt, movedResults, rfl, allMoved, movedOver, grants⟩ :=
        replaceAll_over fresh (houses.keeps (stageAndBackUp_keeps directory files world)) allFor
          jobsDistinct
      simp only [Script.run_bind, Script.grants_bind, movedResults]
      refine ⟨moved, rest, halt, rfl, allFor, first, fun whole => ?_, ?_, fun asked later => ?_⟩
      · have noRest := allMoved whole
        rw [noRest, List.append_nil] at all
        exact ⟨noRest, all rfl⟩
      · have wide := movedOver.widen fresh allFor
          (fun job member => List.mem_append_left rest member) jobsDistinct
        refine (passed.comp wide).mono fun job member old new steps => ?_
        obtain ⟨saved, backedUp, ⟨isMoved, moves⟩ | ⟨isWaiting, rfl⟩⟩ := steps
        · have waiting := backedUp.waiting
          exact ⟨waiting.fits, waiting.free, fun _ => backedUp.published moves,
            fun isWaiting => absurd isMoved isWaiting⟩
        · have waiting := backedUp.waiting
          exact ⟨waiting.fits, waiting.free, fun isMoved => absurd isMoved isWaiting,
            fun _ => waiting.waiting List.not_mem_nil⟩
      · rw [or_iff_right (early asked later), or_iff_left Script.not_grants_done, grants]

end Attempt

end TreeGrammar.Publish
