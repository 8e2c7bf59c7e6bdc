/-
# TreeGrammar.Proofs.Publish.Serving -- what stops an attempt

`Serves` says for which target a call of an attempt is made.  A refused call of this
kind stops the attempt, and it is reported with its target (`attempt_refused`).
-/
import TreeGrammar.Proofs.Publish.Names

set_option autoImplicit false

namespace TreeGrammar.Publish

variable {directory : Path} {stamps : Nat → Text} {world : World}

/-- The target that a call of an attempt is made for. -/
inductive Serves (directory : Path) (stamps : Nat → Text) : Call → Path → Prop
  | create {name : Text} (single : Path.IsComponent name) :
      Serves directory stamps (.createTemp directory name) (directory.join name)
  | write {name : Text} (single : Path.IsComponent name) (time : Nat) (content : Text.Octets) :
      Serves directory stamps (.write (tempPath directory name (stamps time)) content)
        (directory.join name)
  | publish {name : Text} (single : Path.IsComponent name) (time : Nat) :
      Serves directory stamps (.publish (tempPath directory name (stamps time)))
        (directory.join name)
  | link (target backup : Path) : Serves directory stamps (.link target backup) target
  | replace {name : Text} (single : Path.IsComponent name) (time : Nat) (target : Path) :
      Serves directory stamps (.replace (tempPath directory name (stamps time)) target) target

/-- The path of a temporary file tells the name it was made from. -/
theorem tempPath_injective {name other : Text}
    (plain : ∀ time, '.' ∉ stamps time ∧ '/' ∉ stamps time)
    (single : Path.IsComponent name) (otherSingle : Path.IsComponent other) {time otherTime : Nat}
    (same : tempPath directory name (stamps time) = tempPath directory other (stamps otherTime)) :
    name = other ∧ stamps time = stamps otherTime := by
  have names := Path.join_injective (isComponent_tempName single (plain time).2)
    (isComponent_tempName otherSingle (plain otherTime).2) same
  exact tempName_injective (plain time).1 (plain otherTime).1 names

theorem Serves.of_write {temp target : Path} {content : Text.Octets}
    (serves : Serves directory stamps (.write temp content) target) :
    ∃ name, ∃ time, Path.IsComponent name ∧ temp = tempPath directory name (stamps time) ∧
      target = directory.join name := by
  cases serves with
  | write single time content => exact ⟨_, time, single, rfl, rfl⟩

theorem Serves.of_publish {temp target : Path}
    (serves : Serves directory stamps (.publish temp) target) :
    ∃ name, ∃ time, Path.IsComponent name ∧ temp = tempPath directory name (stamps time) ∧
      target = directory.join name := by
  cases serves with
  | publish single time => exact ⟨_, time, single, rfl, rfl⟩

theorem Serves.of_replace {source target other : Path}
    (serves : Serves directory stamps (.replace source target) other) : other = target ∧
      ∃ name, ∃ time, Path.IsComponent name ∧ source = tempPath directory name (stamps time) := by
  cases serves with
  | replace single time target => exact ⟨rfl, _, time, single, rfl⟩

/-- A refused call is the first one, or is made after the first one. -/
theorem refused_cases {α : Type} {asked : Call} {next : Except Refusal asked.Answer → Script α}
    {step : World × Call} (member : step ∈ (Script.call asked next).calls world) {cause : Refusal}
    (refused : (step.1.answer step.2).1 = .error cause) :
    (step = (world, asked) ∧ world.answer asked = (.error cause, world.tick)) ∨
      step ∈ (next (world.answer asked).1).calls (world.answer asked).2 := by
  refine (List.mem_cons.1 member).imp_left fun same => ⟨same, ?_⟩
  subst same
  rcases world.answer_cases asked with ⟨other, answered⟩ | ⟨result, tree, answered, -⟩
  · rw [answered] at refused ⊢
    rw [Except.error.inj refused]
  · rw [answered] at refused
    exact absurd refused (by simp)

/-- What is refused later in a pass stops the pass. -/
theorem refused_onward {script : Script (List Staged × Option Halt)}
    {regroup : List Staged → List Staged} {step : World × Call} {halt : Option Halt}
    (stops : step ∈ script.calls world → (script.run world).1.2 = halt)
    (member : step ∈ (script.bind fun (more, halt) => .done (regroup more, halt)).calls world) :
    ((script.bind fun (more, halt) => .done (regroup more, halt)).run world).1.2 = halt := by
  rw [Script.calls_bind, List.mem_append] at member
  rw [Script.run_bind]
  exact stops (member.resolve_right List.not_mem_nil)

theorem stageOne_refused (plain : ∀ time, '.' ∉ stamps time ∧ '/' ∉ stamps time)
    (stamped : world.stamps = stamps) {name text : Text} (single : Path.IsComponent name)
    {step : World × Call} (member : step ∈ (stageOne directory name text).calls world)
    {target : Path} (serves : Serves directory stamps step.2 target) {cause : Refusal}
    (refused : (step.1.answer step.2).1 = .error cause) :
    ((stageOne directory name text).run world).1.2 = some (.refused target cause) := by
  subst stamped
  by_cases nul : (directory.join name).hasNul
  · simp [stageOne_text, nul, Script.calls] at member
  · simp only [stageOne_text, nul, Bool.false_eq_true, if_false] at member ⊢
    rcases refused_cases member refused with ⟨rfl, answered⟩ | later
    · rw [Script.run_call answered]
      cases serves
      rfl
    · rcases world.answer_cases (.createTemp directory name) with
        ⟨other, answered⟩ | ⟨temp, created, answered, made, -⟩
      · rw [answered] at later
        exact absurd later List.not_mem_nil
      · obtain ⟨rfl, -⟩ := World.attempt_createTemp made
        rw [answered] at later
        rw [Script.run_call answered]
        rcases refused_cases later refused with ⟨rfl, answered⟩ | last
        · rw [Script.run_call answered]
          obtain ⟨other, time, otherSingle, same, rfl⟩ := serves.of_write
          rw [(tempPath_injective plain single otherSingle same).1]
          rfl
        · rcases (world.changed created).answer_cases (.write
            (tempPath directory name (world.stamps world.clock)) (Text.encode text)) with
            ⟨other, answered⟩ | ⟨_, written, answered, -⟩
          · rw [answered] at last
            exact absurd last List.not_mem_nil
          · rw [answered] at last
            rw [Script.run_call answered]
            rcases refused_cases last refused with ⟨rfl, answered⟩ | none
            · rw [Script.run_call answered]
              obtain ⟨other, time, otherSingle, same, rfl⟩ := serves.of_publish
              rw [(tempPath_injective plain single otherSingle same).1]
              rfl
            · revert none
              generalize (World.answer _ _).1 = answer
              cases answer <;> exact fun none => absurd none List.not_mem_nil

theorem stageAll_refused (plain : ∀ time, '.' ∉ stamps time ∧ '/' ∉ stamps time)
    (stamped : world.stamps = stamps) {files : List (Text × Text)}
    (single : ∀ file ∈ files, Path.IsComponent file.1)
    {step : World × Call} (member : step ∈ (stageAll directory files).calls world)
    {target : Path} (serves : Serves directory stamps step.2 target) {cause : Refusal}
    (refused : (step.1.answer step.2).1 = .error cause) :
    ((stageAll directory files).run world).1.2 = some (.refused target cause) := by
  induction files generalizing world with
  | nil => exact absurd member List.not_mem_nil
  | cons file rest ih =>
      obtain ⟨first, others⟩ := List.forall_mem_cons.1 single
      rw [stageAll, Script.calls_bind, List.mem_append] at member
      rw [stageAll, Script.run_bind]
      rcases member with here | later
      · have halt := stageOne_refused plain stamped first here serves refused
        rcases outcome : ((stageOne directory file.1 file.2).run world).1 with ⟨staged, _ | stop⟩
        · rw [outcome] at halt
          exact absurd halt (by simp)
        · rw [outcome] at halt
          exact halt
      · rcases outcome : ((stageOne directory file.1 file.2).run world).1 with ⟨staged, _ | stop⟩
        · rw [outcome] at later
          exact refused_onward (ih (by rw [Script.run_stamps, stamped]) others) later
        · rw [outcome] at later
          exact absurd later List.not_mem_nil

theorem backUpAll_refused {entries : List Staged} {step : World × Call}
    (member : step ∈ (backUpAll entries).calls world) {target : Path}
    (serves : Serves directory stamps step.2 target) {cause : Refusal}
    (refused : (step.1.answer step.2).1 = .error cause) :
    ((backUpAll entries).run world).1.2 = some (.refused target cause) := by
  induction entries generalizing world with
  | nil => exact absurd member List.not_mem_nil
  | cons entry rest ih =>
      rw [backUpAll] at member ⊢
      rcases refused_cases member refused with ⟨rfl, -⟩ | later
      · cases serves
      · rw [Script.run]
        rcases probe : (world.answer (.exists entry.target)).1 with cause' | _ | _
        · rw [probe] at later
          exact refused_onward ih later
        · rw [probe] at later
          exact refused_onward ih later
        · rw [probe] at later
          rcases refused_cases later refused with ⟨rfl, answered⟩ | last
          · simp only [Script.run_call answered]
            cases serves
            rfl
          · simp only [Script.run]
            rcases link : ((world.answer (.exists entry.target)).2.answer
              (.link entry.target (backupPath entry.temp))).1 with cause' | _
            · rw [link] at last
              exact absurd last List.not_mem_nil
            · rw [link] at last
              exact refused_onward ih last

theorem replaceAll_refused {entries : List Staged} {step : World × Call}
    (member : step ∈ (replaceAll entries).calls world) {target : Path}
    (serves : Serves directory stamps step.2 target) {cause : Refusal}
    (refused : (step.1.answer step.2).1 = .error cause) :
    ((replaceAll entries).run world).1.2 = some (.refused target cause) := by
  induction entries generalizing world with
  | nil => exact absurd member List.not_mem_nil
  | cons entry rest ih =>
      rw [replaceAll] at member ⊢
      rcases refused_cases member refused with ⟨rfl, answered⟩ | later
      · rw [Script.run_call answered]
        rw [serves.of_replace.1]
        rfl
      · rw [Script.run]
        rcases move : (world.answer (.replace entry.temp entry.target)).1 with other | _
        · rw [move] at later
          exact absurd later List.not_mem_nil
        · rw [move] at later
          exact refused_onward ih later

/-- **What stops an attempt.**  If a call made for a target is refused, the attempt halts with
that target and that refusal. -/
theorem attempt_refused (plain : ∀ time, '.' ∉ stamps time ∧ '/' ∉ stamps time)
    (stamped : world.stamps = stamps) {files : List (Text × Text)}
    (single : ∀ file ∈ files, Path.IsComponent file.1) {step : World × Call}
    (member : step ∈ (attempt files directory).calls world) {target : Path}
    (serves : Serves directory stamps step.2 target) {cause : Refusal}
    (refused : (step.1.answer step.2).1 = .error cause) :
    ((attempt files directory).run world).1.2.2 = some (.refused target cause) := by
  rw [attempt, Script.calls_bind, List.mem_append] at member
  rw [attempt, Script.run_bind]
  have staging := fun here => stageAll_refused plain stamped single here serves refused
  rcases outcome : ((stageAll directory files).run world).1 with ⟨staged, _ | halt⟩
  · rw [outcome] at member staging
    have later := member.resolve_left fun here => absurd (staging here) (by simp)
    rw [Script.calls_bind, List.mem_append] at later
    rw [Script.run_bind]
    have backingUp := fun
      (here : step ∈ (backUpAll staged).calls ((stageAll directory files).run world).2) =>
        backUpAll_refused here serves refused
    rcases linked : ((backUpAll staged).run ((stageAll directory files).run world).2).1 with
      ⟨saved, _ | halt⟩
    · rw [linked] at later backingUp
      have last := later.resolve_left fun here => absurd (backingUp here) (by simp)
      rw [Script.calls_bind, List.mem_append] at last
      rw [Script.run_bind]
      exact replaceAll_refused (last.resolve_right List.not_mem_nil) serves refused
    · rw [linked] at later backingUp
      exact backingUp (later.resolve_right List.not_mem_nil)
  · rw [outcome] at member staging
    exact staging (member.resolve_right List.not_mem_nil)

end TreeGrammar.Publish
