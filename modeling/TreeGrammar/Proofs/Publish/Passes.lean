/-
# TreeGrammar.Proofs.Publish.Passes -- what the three passes do

Each pass is described job by job, whichever call stops it: staging writes temporary
files (`stageAll_over`), backing up gives the targets that are there a second name
(`backUpAll_over`), and replacing moves temporary files onto targets
(`replaceAll_over`).  A pass that is not stopped has dealt with every job.
-/
import TreeGrammar.Proofs.Publish.Job

set_option autoImplicit false

namespace TreeGrammar

/-! ## Sorts of calls -/

/-- Calls that write temporary files. -/
def Call.isStaging : Call → Bool
  | .createTemp _ _ => true
  | .write _ _ => true
  | .publish _ => true
  | _ => false

/-- Calls that back up targets. -/
def Call.isBackingUp : Call → Bool
  | .exists _ => true
  | .link _ _ => true
  | _ => false

/-- Calls that neither write temporary files nor back up targets. -/
def Call.isLater (asked : Call) : Prop :=
  asked.isStaging ≠ true ∧ asked.isBackingUp ≠ true

theorem Call.isStaging_keeps {asked : Call} (staging : asked.isStaging) (path : Path) :
    asked ≠ .removeDirectory path := by
  rintro rfl
  simp [isStaging] at staging

theorem Call.isBackingUp_keeps {asked : Call} (backingUp : asked.isBackingUp) (path : Path) :
    asked ≠ .removeDirectory path := by
  rintro rfl
  simp [isBackingUp] at backingUp

namespace Publish

open TreeGrammar.Tree (child)

section Asked

variable {ν τ : Type} [Text.Wording ν] [Text.Wording τ]

/-- One file asks for its temporary file, which is then written and gets its mode. -/
theorem stageOne_calls (directory : Path) (name : ν) (text : τ) :
    (stageOne directory name text).Asks fun asked =>
      (∃ stem, Text.Wording.text? name = some stem ∧ asked = .createTemp directory stem) ∨
        ∃ temp, (∃ content, Text.Wording.text? text = some content ∧
          asked = .write temp (Text.encode content)) ∨ asked = .publish temp := by
  unfold stageOne
  cases named : Text.Wording.text? name with
  | none => trivial
  | some stem =>
      by_cases nul : (directory.join stem).hasNul
      · simp only [nul, if_true]
        trivial
      · simp only [nul, Bool.false_eq_true, if_false]
        refine ⟨.inl ⟨stem, rfl, rfl⟩, fun created => ?_⟩
        rcases created with cause | temp
        · trivial
        · cases written : Text.Wording.text? text with
          | none => trivial
          | some content =>
              refine ⟨.inr ⟨temp, .inl ⟨content, rfl, rfl⟩⟩, fun answered => ?_⟩
              rcases answered with cause | _
              · trivial
              · refine ⟨.inr ⟨temp, .inr rfl⟩, fun published => ?_⟩
                cases published <;> trivial

theorem stageOne_asks (directory : Path) (name : ν) (text : τ) :
    (stageOne directory name text).Asks fun asked => asked.isStaging := by
  refine (stageOne_calls directory name text).mono ?_
  rintro asked (⟨stem, -, rfl⟩ | ⟨temp, ⟨content, -, rfl⟩ | rfl⟩) <;> rfl

theorem stageAll_asks (directory : Path) (files : List (ν × τ)) :
    (stageAll directory files).Asks fun asked => asked.isStaging := by
  induction files with
  | nil => trivial
  | cons file rest ih =>
      refine Script.asks_bind (stageOne_asks directory file.1 file.2) fun outcome => ?_
      rcases outcome with ⟨staged, _ | halt⟩
      · exact Script.asks_bind ih fun _ => trivial
      · trivial

end Asked

theorem backUpAll_links (entries : List Staged) :
    (backUpAll entries).Asks fun asked => (∃ path, asked = .exists path) ∨
      ∃ entry ∈ entries, asked = .link entry.target (backupPath entry.temp) := by
  induction entries with
  | nil => trivial
  | cons entry rest ih =>
      have later : (backUpAll rest).Asks fun asked => (∃ path, asked = .exists path) ∨
          ∃ each ∈ entry :: rest, asked = .link each.target (backupPath each.temp) := by
        refine ih.mono fun asked sort => sort.imp_right ?_
        rintro ⟨other, member, same⟩
        exact ⟨other, List.mem_cons_of_mem entry member, same⟩
      refine ⟨.inl ⟨entry.target, rfl⟩, fun probed => ?_⟩
      rcases probed with cause | _ | _
      · exact Script.asks_bind later fun _ => trivial
      · exact Script.asks_bind later fun _ => trivial
      · refine ⟨.inr ⟨entry, List.mem_cons_self, rfl⟩, fun linked => ?_⟩
        cases linked with
        | error cause => trivial
        | ok _ => exact Script.asks_bind later fun _ => trivial

theorem backUpAll_asks (entries : List Staged) :
    (backUpAll entries).Asks fun asked => asked.isBackingUp := by
  refine (backUpAll_links entries).mono ?_
  rintro asked (⟨path, rfl⟩ | ⟨entry, -, rfl⟩) <;> rfl

theorem replaceAll_asks (entries : List Staged) :
    (replaceAll entries).Asks fun asked =>
      ∃ entry ∈ entries, asked = .replace entry.temp entry.target := by
  induction entries with
  | nil => trivial
  | cons entry rest ih =>
      refine ⟨⟨entry, List.mem_cons_self, rfl⟩, fun moved => ?_⟩
      cases moved with
      | error cause => trivial
      | ok _ =>
          refine Script.asks_bind (ih.mono ?_) fun _ => trivial
          rintro asked ⟨other, member, same⟩
          exact ⟨other, List.mem_cons_of_mem entry member, same⟩

/-! ## Paths of a job -/

section Paths

variable {base tree : Tree} {directory : Path} {stamps : Nat → Text} {names : List Text}
variable {here : Location} {job : Job}

/-- Whether the paths of the temporary file and the backup are short enough. -/
def Job.tempFits (directory : Path) (job : Job) : Bool :=
  directory.collapsed.fits job.temp

/-- Whether the path of the target is short enough. -/
def Job.targetFits (directory : Path) (job : Job) : Bool :=
  directory.fits job.name

theorem finds_temp (fresh : Fresh base directory stamps names) (isFor : job.For stamps names)
    (houses : tree.Houses directory here) :
    tree.Finds (tempPath directory job.name job.stamp) (job.tempFits directory)
      (child here job.temp) := by
  obtain ⟨single, -, plain⟩ := single_of_for fresh isFor
  exact houses.collapsed.finds (isComponent_tempName single plain)

theorem finds_backup (fresh : Fresh base directory stamps names) (isFor : job.For stamps names)
    (houses : tree.Houses directory here) :
    tree.Finds (savedPath directory job.name job.stamp) (job.tempFits directory)
      (child here job.backup) := by
  obtain ⟨single, -, plain⟩ := single_of_for fresh isFor
  have found := houses.collapsed.finds (isComponent_backupName single plain)
  rwa [fits_backupName _ single plain] at found

theorem finds_target (fresh : Fresh base directory stamps names) (isFor : job.For stamps names)
    (houses : tree.Houses directory here) :
    tree.Finds (directory.join job.name) (job.targetFits directory) (child here job.name) :=
  houses.finds (single_of_for fresh isFor).1

end Paths

/-! ## Staging -/

section Passes

variable {base : Tree} {directory : Path} {stamps : Nat → Text} {names : List Text}
variable {here : Location} {world : World}

/-- A temporary file where there was none; a whole one has the text of the job. -/
structure Stages (directory : Path) (whole : Bool) (job : Job) (old new : Standing) : Prop where
  fits : job.tempFits directory = true
  free : old.temp = none
  written : ∃ content, new.temp = some (.file content) ∧
    (whole = true → content = Text.encode job.text)
  backup : new.backup = old.backup
  target : new.target = old.target

/-- What a pass changes for one job. -/
theorem over_one {change : Job → Standing → Standing → Prop} {job : Job} {view after : View}
    (changed : change job (job.standing here view) (job.standing here after))
    (outside : ∀ location, location ∉ job.places here → after location = view location) :
    Over here [job] change view after := by
  constructor
  · intro each member
    rw [List.mem_singleton.1 member]
    exact changed
  · exact fun location apart => outside location (apart job (List.mem_singleton_self job))

theorem stages_one (fresh : Fresh base directory stamps names) {job : Job}
    (isFor : job.For stamps names) {view : View} {whole : Bool} {content : Text.Octets}
    (fits : job.tempFits directory = true) (free : view (child here job.temp) = none)
    (right : whole = true → content = Text.encode job.text) :
    Over here [job] (Stages directory whole) view
      (Function.update view (child here job.temp) (some (.file content))) := by
  refine over_one ?_ fun _ apart => update_outside apart List.mem_cons_self
  rw [standing_update_temp fresh isFor]
  exact ⟨fits, free, ⟨content, rfl, right⟩, rfl, rfl⟩

/-- What becomes of one file: no temporary file is made, or an empty one, or one with the text. -/
theorem stageOne_cases (directory : Path) (name text : Text) (world : World) :
    let outcome := (stageOne directory name text).run world
    let temp := tempPath directory name (world.stamps world.clock)
    let staged : Staged := ⟨temp, directory.join name, none⟩
    (∃ halt, outcome.1 = (none, some halt) ∧ outcome.2.tree = world.tree) ∨
      ∃ created, world.tree.createFile temp = .ok created ∧
        ((∃ halt, outcome.1 = (some staged, some halt) ∧ outcome.2.tree = created) ∨
          ∃ halt written, created.writeFile temp (Text.encode text) = .ok written ∧
            outcome.1 = (some staged, halt) ∧ outcome.2.tree = written) := by
  intro outcome temp staged
  by_cases nul : (directory.join name).hasNul
  · exact .inl ⟨.nul, by simp [outcome, stageOne_text, nul, Script.run]⟩
  · simp only [outcome, stageOne_text, nul, Bool.false_eq_true, if_false]
    rcases world.answer_cases (.createTemp directory name) with
      ⟨cause, refused⟩ | ⟨path, created, granted, made, -⟩
    · rw [Script.run_call refused]
      exact .inl ⟨_, rfl, rfl⟩
    · obtain ⟨rfl, createdFile⟩ := World.attempt_createTemp made
      rw [Script.run_call granted]
      refine .inr ⟨created, createdFile, ?_⟩
      rcases (world.changed created).answer_cases (.write temp (Text.encode text)) with
        ⟨cause, refused⟩ | ⟨_, written, granted, wrote, -⟩
      · rw [Script.run_call refused]
        exact .inl ⟨_, rfl, rfl⟩
      · rw [Script.run_call granted]
        have wroteFile := World.attempt_write wrote
        rcases ((world.changed created).changed written).answer_cases (.publish temp) with
          ⟨cause, refused⟩ | ⟨_, published, granted, done, -⟩
        · rw [Script.run_call refused]
          exact .inr ⟨_, written, wroteFile, rfl, rfl⟩
        · rw [Script.run_call granted]
          exact .inr ⟨none, written, wroteFile, rfl, World.attempt_publish done⟩

theorem stageOne_over (fresh : Fresh base directory stamps names)
    (houses : world.tree.Houses directory here) (stamped : world.stamps = stamps) {name : Text}
    (named : name ∈ names) (text : Text) :
    let outcome := (stageOne directory name text).run world
    (∃ halt, outcome.1 = (none, some halt) ∧
      outcome.2.tree.entryAt = world.tree.entryAt) ∨
    ∃ job : Job, ∃ halt, outcome.1 = (some (job.staged directory), halt) ∧
      job.name = name ∧ job.text = text ∧ job.saved = false ∧ job.For stamps names ∧
      Over here [job] (Stages directory halt.isNone) world.tree.entryAt
        outcome.2.tree.entryAt := by
  intro outcome
  let job : Job := ⟨name, text, world.stamps world.clock, false⟩
  have isFor : job.For stamps names := ⟨named, world.clock, congrFun stamped world.clock⟩
  rcases stageOne_cases directory name text world with
    ⟨halt, result, same⟩ | ⟨created, createdFile, reached⟩
  · exact .inl ⟨halt, result, by rw [same]⟩
  · right
    obtain ⟨fits, free, begun⟩ := Tree.createFile_ok (finds_temp fresh isFor houses) createdFile
    have housesThen := houses.keeps (Tree.createFile_preserves createdFile).keeps
    rcases reached with ⟨halt, result, same⟩ | ⟨halt, written, wroteFile, result, same⟩
    · refine ⟨job, some halt, result, rfl, rfl, rfl, isFor, ?_⟩
      rw [same, begun]
      exact stages_one fresh isFor fits free (by simp)
    · refine ⟨job, halt, result, rfl, rfl, rfl, isFor, ?_⟩
      obtain ⟨-, -, filled⟩ := Tree.writeFile_ok (finds_temp fresh isFor housesThen) wroteFile
      rw [same, filled, begun, Function.update_idem]
      exact stages_one fresh isFor fits free fun _ => rfl

theorem Stages.mono {whole : Bool} {job : Job} {old new : Standing}
    (stages : Stages directory true job old new) : Stages directory whole job old new := by
  obtain ⟨content, stands, right⟩ := stages.written
  exact ⟨stages.fits, stages.free, ⟨content, stands, fun _ => right rfl⟩, stages.backup,
    stages.target⟩

theorem nodup_names {jobs : List Job} {files : List (Text × Text)}
    (first : (jobs.map fun job => (job.name, job.text)) <+: files)
    (distinct : (files.map Prod.fst).Nodup) : (jobs.map Job.name).Nodup := by
  have names := (first.map Prod.fst).sublist.nodup distinct
  rwa [List.map_map] at names

/-- **Staging.**  The files staged are the first ones, and all of them if nothing stops the
pass; each has a temporary file, and nothing else has changed. -/
theorem stageAll_over (fresh : Fresh base directory stamps names)
    (houses : world.tree.Houses directory here) (stamped : world.stamps = stamps)
    {files : List (Text × Text)} (named : ∀ file ∈ files, file.1 ∈ names)
    (distinct : (files.map Prod.fst).Nodup) :
    let outcome := (stageAll directory files).run world
    ∃ jobs : List Job, ∃ halt, outcome.1 = (jobs.map (Job.staged directory), halt) ∧
      (∀ job ∈ jobs, job.For stamps names ∧ job.saved = false) ∧
      (jobs.map fun job => (job.name, job.text)) <+: files ∧
      (halt = none → (jobs.map fun job => (job.name, job.text)) = files) ∧
      Over here jobs (Stages directory halt.isNone) world.tree.entryAt
        outcome.2.tree.entryAt := by
  induction files generalizing world with
  | nil =>
      exact ⟨[], none, rfl, (by simp), List.prefix_rfl, fun _ => rfl, Over.refl (by simp)⟩
  | cons file rest ih =>
      obtain ⟨name, text⟩ := file
      intro outcome
      simp only [outcome, stageAll, Script.run_bind]
      have keeps := Script.run_keeps ((stageOne_asks directory name text).mono
        fun asked => Call.isStaging_keeps) world
      rcases stageOne_over fresh houses stamped (named (name, text) (by simp)) text with
        ⟨halt, result, same⟩ | ⟨job, halt, result, rfl, rfl, plain, isFor, passed⟩
      · rw [result]
        refine ⟨[], some halt, rfl, (by simp), List.nil_prefix, (by simp), ?_⟩
        simp only [Script.run, same]
        exact Over.refl (by simp)
      · rw [result]
        cases halt with
        | some halt =>
            refine ⟨[job], some halt, rfl, ?_, ?_, (by simp), passed⟩
            · rintro each member
              rw [List.mem_singleton.1 member]
              exact ⟨isFor, plain⟩
            · exact ⟨rest, rfl⟩
        | none =>
            have distinctRest := (List.nodup_cons.1 distinct).2
            obtain ⟨jobs, halt, results, allFor, first, all, overRest⟩ :=
              ih (houses.keeps keeps) (by rw [Script.run_stamps, stamped])
                (fun other member => named other (List.mem_cons_of_mem _ member)) distinctRest
            have firstToo : (((job :: jobs).map fun each => (each.name, each.text)) <+:
                (job.name, job.text) :: rest) :=
              List.cons_prefix_cons.2 ⟨rfl, first⟩
            refine ⟨job :: jobs, halt, ?_, ?_, firstToo, ?_, ?_⟩
            · rw [Script.run_bind, results]
              rfl
            · exact List.forall_mem_cons.2 ⟨⟨isFor, plain⟩, allFor⟩
            · intro whole
              rw [List.map_cons, all whole]
            · rw [Script.run_bind]
              refine Over.cons fresh ?_ (nodup_names firstToo distinct)
                (passed.mono fun _ _ _ _ stages => stages.mono) overRest
              exact List.forall_mem_cons.2 ⟨isFor, fun each member => (allFor each member).1⟩

/-! ## Backing up -/

/-- The job before it is known whether there is something to back up. -/
def Job.plain (job : Job) : Job :=
  { job with saved := false }

theorem Job.plain_eq {job : Job} (unsaved : job.saved = false) : job.plain = job := by
  cases job
  simp only at unsaved
  rw [unsaved]
  rfl

theorem map_plain {jobs : List Job} (unsaved : ∀ job ∈ jobs, job.saved = false) :
    jobs.map Job.plain = jobs := by
  rw [List.map_congr_left fun job member => Job.plain_eq (unsaved job member), List.map_id']

/-- A second name for the file at a target, unless the pass ends with it.  A target without one
was free, if the question whether something is there has been answered. -/
structure Saves (directory : Path) (whole : Bool) (answered : Text → Prop) (job : Job)
    (old new : Standing) : Prop where
  temp : new.temp = old.temp
  target : new.target = old.target
  saved : job.saved = true → (whole = false ∧ new.backup = old.backup) ∨
    ∃ content, old.target = some (.file content) ∧ new.backup = some (.file content)
  unsaved : job.saved = false → new.backup = old.backup ∧
    (whole = true → answered job.name → job.targetFits directory = true → old.target = none)

section Saves

variable {whole : Bool} {answered : Text → Prop} {job : Job} {old new : Standing}

theorem Saves.mono (saves : Saves directory true answered job old new) :
    Saves directory whole answered job old new := by
  refine ⟨saves.temp, saves.target, fun saved => ?_, fun unsaved => ?_⟩
  · exact .inr ((saves.saved saved).resolve_left (by simp))
  · exact ⟨(saves.unsaved unsaved).1, fun _ => (saves.unsaved unsaved).2 rfl⟩

theorem Saves.refl (standing : Standing) :
    Saves directory false answered job standing standing :=
  ⟨rfl, rfl, fun _ => .inl ⟨rfl, rfl⟩, fun _ => ⟨rfl, (by simp)⟩⟩

/-- There is nothing to save. -/
theorem Saves.none_there (unsaved : job.saved = false)
    (free : answered job.name → job.targetFits directory = true → old.target = none) :
    Saves directory true answered job old old :=
  ⟨rfl, rfl, fun saved => absurd (unsaved.symm.trans saved) (by simp),
    fun _ => ⟨rfl, fun _ => free⟩⟩

end Saves

/-- No question whether something is at the path is denied. -/
def Answers {α : Type} (script : Script α) (world : World) (path : Path) : Prop :=
  ∀ step ∈ script.calls world, step.2 = .exists path → step.1.denial step.2 = none

/-- No question whether something is there is denied. -/
def Honest {α : Type} (script : Script α) (world : World) : Prop :=
  ∀ step ∈ script.calls world, ∀ path, step.2 = .exists path → step.1.denial step.2 = none

theorem Honest.answers {α : Type} {script : Script α} (honest : Honest script world)
    (path : Path) : Answers script world path :=
  fun step member asked => honest step member path asked

/-- The answer to whether something is there, if the system does not deny the question. -/
theorem answer_exists {path : Path} {location : Location}
    (free : world.denial (.exists path) = none) (finds : world.tree.Finds path true location) :
    world.answer (.exists path) = (.ok (world.tree.entryAt location).isSome, world.tick) := by
  have looked := Tree.look_eq finds
  rw [if_pos rfl] at looked
  exact World.answer_of_attempt free (by simp [World.attempt, looked, Except.map])

theorem staged_saved {job : Job} (fresh : Fresh base directory stamps names)
    (isFor : job.For stamps names) :
    (⟨(job.staged directory).temp, (job.staged directory).target,
      some (backupPath (job.staged directory).temp)⟩ : Staged) =
        ({ job with saved := true } : Job).staged directory := by
  obtain ⟨single, -, plain⟩ := single_of_for fresh isFor
  simp only [Job.staged, backupPath_tempPath directory single plain, if_true]

theorem for_of_plain {saved jobs : List Job} (plains : saved.map Job.plain = jobs)
    (allFor : ∀ job ∈ jobs, job.For stamps names) : ∀ job ∈ saved, job.For stamps names := by
  intro job member
  have isFor := allFor job.plain (plains ▸ List.mem_map_of_mem member)
  exact ⟨isFor.named, isFor.stamped⟩

theorem nodup_of_plain {saved jobs : List Job} (plains : saved.map Job.plain = jobs)
    (distinct : (jobs.map Job.name).Nodup) : (saved.map Job.name).Nodup := by
  rw [← plains, List.map_map] at distinct
  exact distinct

/-- **Backing up.**  Each target that is there gets a second name beside the temporary file,
up to the one that the pass is stopped at; nothing else changes. -/
theorem backUpAll_over (fresh : Fresh base directory stamps names)
    (houses : world.tree.Houses directory here) {jobs : List Job} {answered : Text → Prop}
    (answers : ∀ name, answered name →
      Answers (backUpAll (jobs.map (Job.staged directory))) world (directory.join name))
    (allFor : ∀ job ∈ jobs, job.For stamps names ∧ job.saved = false)
    (distinct : (jobs.map Job.name).Nodup) :
    let outcome := (backUpAll (jobs.map (Job.staged directory))).run world
    ∃ saved : List Job, ∃ halt, outcome.1 = (saved.map (Job.staged directory), halt) ∧
      saved.map Job.plain = jobs ∧
      Over here saved (Saves directory halt.isNone answered) world.tree.entryAt
        outcome.2.tree.entryAt := by
  induction jobs generalizing world with
  | nil => exact ⟨[], none, rfl, rfl, Over.refl (by simp)⟩
  | cons job rest ih =>
      intro outcome
      obtain ⟨⟨isFor, unsaved⟩, restFor⟩ := List.forall_mem_cons.1 allFor
      have findsTarget : world.tree.Finds (job.staged directory).target (job.targetFits directory)
          (child here job.name) := finds_target fresh isFor houses
      have plainJob := Job.plain_eq unsaved
      -- the job is dealt with, and the pass goes on
      have onward : ∀ (head : Job) (next : World), head.plain = job →
          next.tree.Houses directory here →
          Over here [head] (Saves directory true answered) world.tree.entryAt
            next.tree.entryAt →
          let later := (backUpAll (rest.map (Job.staged directory))).bind fun outcome =>
            .done (head.staged directory :: outcome.1, outcome.2)
          (∀ name, answered name → Answers later next (directory.join name)) →
          ∃ saved : List Job, ∃ halt,
            (later.run next).1 = (saved.map (Job.staged directory), halt) ∧
            saved.map Job.plain = job :: rest ∧
            Over here saved (Saves directory halt.isNone answered) world.tree.entryAt
              (later.run next).2.tree.entryAt := by
        intro head next same housesThen passed later answersThen
        obtain ⟨saved, halt, results, plains, overRest⟩ := ih housesThen
          (fun each isAnswered step member =>
            answersThen each isAnswered step (Script.mem_calls_left member)) restFor
          (List.nodup_cons.1 distinct).2
        have all : (head :: saved).map Job.plain = job :: rest := by
          rw [List.map_cons, same, plains]
        refine ⟨head :: saved, halt, ?_, all, ?_⟩
        · simp only [later, Script.run_bind, results]
          rfl
        · simp only [later, Script.run_bind]
          refine Over.cons fresh (for_of_plain all fun each member => (allFor each member).1)
            (nodup_of_plain all distinct) (passed.mono fun _ _ _ _ saves => saves.mono) overRest
      simp only [outcome, List.map_cons, backUpAll]
      rw [List.map_cons, backUpAll] at answers
      rcases world.answer_cases (.exists (job.staged directory).target) with
        ⟨cause, refused⟩ | ⟨there, tree, probed, looked, -⟩
      · rw [Script.run_call refused]
        refine onward job world.tick plainJob houses (over_one ?_ fun _ _ => rfl)
          fun each isAnswered step member => answers each isAnswered step ?_
        · -- an answered question is refused only for a path that is too long
          refine Saves.none_there unsaved fun isAnswered fits => ?_
          have free := answers job.name isAnswered _ List.mem_cons_self rfl
          rw [fits] at findsTarget
          exact absurd (refused.symm.trans (answer_exists free findsTarget)) (by simp)
        · rw [Script.calls_call refused]
          exact List.mem_cons_of_mem _ member
      · obtain ⟨found, foundThere, rfl, rfl⟩ := World.attempt_exists looked
        have fits : job.targetFits directory = true := by
          by_contra long
          rw [Tree.look_eq findsTarget, if_neg long] at foundThere
          exact absurd foundThere (by simp)
        rw [Tree.look_eq findsTarget, if_pos fits, Except.ok.injEq] at foundThere
        rw [Script.run_call probed]
        cases found with
        | none =>
            refine onward job _ plainJob houses (over_one ?_ fun _ _ => rfl)
              fun each isAnswered step member => answers each isAnswered step ?_
            · exact Saves.none_there unsaved fun _ _ => foundThere
            · rw [Script.calls_call probed]
              exact List.mem_cons_of_mem _ member
        | some entry =>
            let head : Job := { job with saved := true }
            have headFor : head.For stamps names := ⟨isFor.named, isFor.stamped⟩
            have heads := staged_saved fresh isFor
            simp only [Option.isSome_some]
            rcases (world.changed world.tree).answer_cases (.link (job.staged directory).target
              (backupPath (job.staged directory).temp)) with
              ⟨cause, refused⟩ | ⟨_, after, granted, made, -⟩
            · rw [Script.run_call refused]
              refine ⟨head :: rest, some (.refused (directory.join job.name) cause), ?_, ?_, ?_⟩
              · rw [List.map_cons, ← heads]
                rfl
              · rw [List.map_cons, map_plain fun each member => (restFor each member).2]
                exact congrArg (· :: rest) plainJob
              · exact Over.refl fun each _ => Saves.refl _
            · rw [Script.run_call granted]
              have linked := World.attempt_link made
              rw [Option.some.inj (congrArg Staged.backup heads)] at linked
              obtain ⟨-, -, content, stands, -, changed⟩ := Tree.link_ok findsTarget
                (finds_backup fresh headFor houses) linked
              have passed : Over here [head] (Saves directory true answered)
                  world.tree.entryAt after.entryAt := by
                rw [changed]
                refine over_one ?_ fun _ apart =>
                  update_outside apart (List.mem_cons_of_mem _ List.mem_cons_self)
                rw [standing_update_backup fresh headFor]
                exact ⟨rfl, rfl, fun _ => .inr ⟨content, stands, rfl⟩, (by simp)⟩
              have later := onward head ((world.changed world.tree).changed after) plainJob
                (houses.keeps (Tree.link_preserves linked).keeps) passed
              rw [← heads] at later
              refine later fun each isAnswered step member => answers each isAnswered step ?_
              rw [Script.calls_call probed]
              refine List.mem_cons_of_mem _ ?_
              simp only [Option.isSome_some]
              rw [Script.calls_call granted]
              exact List.mem_cons_of_mem _ member

/-! ## Replacing -/

/-- The temporary file becomes the target. -/
structure Moves (directory : Path) (job : Job) (old new : Standing) : Prop where
  fits : job.targetFits directory = true
  standing : old.target ≠ some .directory
  temp : new.temp = none
  backup : new.backup = old.backup
  target : new.target = old.temp

/-- The call that moves the temporary file of a job onto its target. -/
def Job.replacement (directory : Path) (job : Job) : Call :=
  .replace (tempPath directory job.name job.stamp) (directory.join job.name)

theorem moves_one (fresh : Fresh base directory stamps names) {job : Job}
    (isFor : job.For stamps names) {tree after : Tree} (houses : tree.Houses directory here)
    (moved : tree.rename (tempPath directory job.name job.stamp) (directory.join job.name) =
      .ok after) :
    Over here [job] (Moves directory) tree.entryAt after.entryAt := by
  obtain ⟨-, fits, content, there, standing, changed⟩ :=
    Tree.rename_ok (finds_temp fresh isFor houses) (finds_target fresh isFor houses) moved
  rw [changed]
  refine over_one ?_ fun location apart => ?_
  · rw [standing_update_target fresh isFor, standing_update_temp fresh isFor]
    exact ⟨fits, standing, rfl, rfl, there.symm⟩
  · rw [update_outside apart (by simp [Job.places]), update_outside apart List.mem_cons_self]

/-- **Replacing.**  The jobs moved are the first ones, and all of them if nothing stops the
pass; nothing else changes. -/
theorem replaceAll_over (fresh : Fresh base directory stamps names)
    (houses : world.tree.Houses directory here) {jobs : List Job}
    (allFor : ∀ job ∈ jobs, job.For stamps names) (distinct : (jobs.map Job.name).Nodup) :
    let outcome := (replaceAll (jobs.map (Job.staged directory))).run world
    ∃ moved rest : List Job, ∃ halt, outcome.1 = (moved.map (Job.staged directory), halt) ∧
      jobs = moved ++ rest ∧ (halt = none → rest = []) ∧
      Over here moved (Moves directory) world.tree.entryAt outcome.2.tree.entryAt ∧
      ∀ asked, (replaceAll (jobs.map (Job.staged directory))).Grants world asked ↔
        ∃ job ∈ moved, asked = job.replacement directory := by
  induction jobs generalizing world with
  | nil =>
      refine ⟨[], [], none, rfl, rfl, fun _ => rfl, Over.refl (by simp), fun asked => ?_⟩
      exact iff_of_false Script.not_grants_done (by simp)
  | cons job others ih =>
      intro outcome
      obtain ⟨isFor, othersFor⟩ := List.forall_mem_cons.1 allFor
      simp only [outcome, List.map_cons, replaceAll]
      rcases world.answer_cases (.replace (job.staged directory).temp (job.staged directory).target)
        with ⟨cause, refused⟩ | ⟨_, after, granted, made, -⟩
      · rw [Script.run_call refused]
        refine ⟨[], job :: others, some (.refused (directory.join job.name) cause), rfl, rfl,
          (by simp), Over.refl (by simp), fun asked => ?_⟩
        rw [Script.grants_of_refused refused]
        exact iff_of_false Script.not_grants_done (by simp)
      · have renamed := World.attempt_replace made
        obtain ⟨moved, rest, halt, results, rfl, all, passed, grants⟩ := @ih (world.changed after)
          (houses.keeps (Tree.rename_preserves renamed).keeps) othersFor
          (List.nodup_cons.1 distinct).2
        rw [Script.run_call granted, Script.run, Script.run_bind, results]
        have movedFor : ∀ each ∈ job :: moved, each.For stamps names := by
          refine List.forall_mem_cons.2 ⟨isFor, fun each member => ?_⟩
          exact othersFor each (List.mem_append_left rest member)
        have movedDistinct : ((job :: moved).map Job.name).Nodup := by
          rw [← List.cons_append, List.map_append] at distinct
          exact distinct.of_append_left
        refine ⟨job :: moved, rest, halt, rfl, rfl, all, ?_, fun asked => ?_⟩
        · exact Over.cons fresh movedFor movedDistinct (moves_one fresh isFor houses renamed) passed
        · rw [Script.grants_of_granted granted, Script.grants_note, Script.grants_bind, results,
            or_iff_left Script.not_grants_done, grants]
          simp only [List.mem_cons, or_and_right, exists_or, exists_eq_left]
          rfl

end Passes

end Publish

end TreeGrammar
