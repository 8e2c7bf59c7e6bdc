/-
# TreeGrammar.Proofs.Publish.Reporting -- which failures name a path that could not be written

A failure of the system reaches the caller in one of two ways.  It is reported with the path
that could not be written, and then nothing is published: if no restoration is refused, no file
stands anywhere that did not stand there before with the same content.  Or it is passed on as it
is, and then the run breaks off at the refused call (`BreaksOff`): a question for a directory on
the way of the output directory, or the removal of a temporary file or of a backup.  The second
one may come when all targets are replaced.  `reported_iff` says that the last call of a run
decides between the two.

Refused questions for targets and refused removals of targets are passed over, but a run never
ends with one: behind a question comes the replacement, behind a restoration the removal of the
temporary file.
-/
import TreeGrammar.CommandLine.Run
import TreeGrammar.Proofs.Grammar.Soundness
import TreeGrammar.Proofs.Publish.Undoing

set_option autoImplicit false

namespace TreeGrammar

/-- Calls whose refusal is never passed on as it is. -/
def Call.isGuarded : Call → Bool
  | .exists _ => false
  | .removeFile _ => false
  | _ => true

namespace Publish

variable {world : World} {directory path : Path} {files : List (Text × Text)}

/-! ## The last call of a run -/

/-- The call is refused, and its refusal is one that may be passed on as it is: that of a question
whether something is there, or that of the removal of a file which is not just missing. -/
def passesOn (step : World × Call) : Bool :=
  match (step.1.answer step.2).1 with
  | .ok _ => false
  | .error cause =>
      match step.2 with
      | .exists _ => true
      | .removeFile _ => cause.reason ≠ .missing
      | _ => false

theorem passesOn_of_granted {asked : Call} {result : asked.Answer} {after : World}
    (granted : world.answer asked = (.ok result, after)) : passesOn (world, asked) = false := by
  simp [passesOn, granted]

theorem passesOn_of_guarded {asked : Call} (guarded : asked.isGuarded) (world : World) :
    passesOn (world, asked) = false := by
  unfold passesOn
  cases (world.answer asked).1 with
  | ok result => rfl
  | error cause => cases asked <;> first | rfl | exact absurd guarded (by simp [Call.isGuarded])

/-- The run ends with a call whose refusal is passed on. -/
def BreaksOff {α : Type} (script : Script α) (world : World) : Prop :=
  ∃ step ∈ (script.calls world).getLast?, passesOn step = true

section Breaking

variable {α β : Type} {script : Script α} {next : α → Script β}

instance (script : Script α) (world : World) : Decidable (BreaksOff script world) :=
  inferInstanceAs (Decidable (∃ step ∈ (script.calls world).getLast?, passesOn step = true))

theorem not_breaksOff_of_still (still : script.calls world = []) : ¬ BreaksOff script world := by
  simp [BreaksOff, still]

theorem not_breaksOff_of_guarded (asks : script.Asks fun asked => asked.isGuarded)
    (world : World) : ¬ BreaksOff script world := by
  rintro ⟨step, last, passes⟩
  have guarded := asks.of_mem (List.mem_of_getLast? last)
  exact absurd passes (by simp [passesOn_of_guarded guarded])

/-- A run of two parts breaks off in the second one, unless that makes no call. -/
theorem breaksOff_bind : BreaksOff (script.bind next) world ↔
    BreaksOff (next (script.run world).1) (script.run world).2 ∨
      (next (script.run world).1).calls (script.run world).2 = [] ∧ BreaksOff script world := by
  simp only [BreaksOff, Script.calls_bind, List.getLast?_append]
  cases later : (next (script.run world).1).calls (script.run world).2 using List.reverseRecOn with
  | nil => simp
  | append_singleton rest step => simp

theorem breaksOff_call {asked : Call} {next : Except Refusal asked.Answer → Script α}
    {answer : Except Refusal asked.Answer} {after : World}
    (answered : world.answer asked = (answer, after)) :
    BreaksOff (.call asked next) world ↔ BreaksOff (next answer) after ∨
      (next answer).calls after = [] ∧ passesOn (world, asked) = true := by
  simp only [BreaksOff, Script.calls_call answered]
  cases later : (next answer).calls after using List.reverseRecOn with
  | nil => simp
  | append_singleton rest step => simp [List.getLast?_cons]

/-- The run makes calls, and the refusal of the last one is not passed on. -/
structure EndsWell (script : Script α) (world : World) : Prop where
  some : script.calls world ≠ []
  unbroken : ¬ BreaksOff script world

/-- The second part of a run is its end. -/
theorem EndsWell.of_later
    (later : EndsWell (next (script.run world).1) (script.run world).2) :
    EndsWell (script.bind next) world := by
  refine ⟨fun none => later.some ?_, fun broken => ?_⟩
  · rw [Script.calls_bind] at none
    exact (List.append_eq_nil_iff.1 none).2
  · exact (breaksOff_bind.1 broken).elim later.unbroken fun none => later.some none.1

/-- What only makes something of a result changes nothing of the end. -/
theorem EndsWell.bind_still (first : EndsWell script world)
    (still : (next (script.run world).1).calls (script.run world).2 = []) :
    EndsWell (script.bind next) world := by
  refine ⟨?_, fun broken => ?_⟩
  · rw [Script.calls_bind, still, List.append_nil]
    exact first.some
  · exact (breaksOff_bind.1 broken).elim (not_breaksOff_of_still still) fun last =>
      first.unbroken last.2

theorem EndsWell.of_call {asked : Call} {next : Except Refusal asked.Answer → Script α}
    {answer : Except Refusal asked.Answer} {after : World}
    (answered : world.answer asked = (answer, after)) (later : EndsWell (next answer) after) :
    EndsWell (.call asked next) world := by
  refine ⟨by simp [Script.calls], fun broken => ?_⟩
  exact ((breaksOff_call answered).1 broken).elim later.unbroken fun none => later.some none.1

theorem EndsWell.of_guarded (asks : script.Asks fun asked => asked.isGuarded)
    (some : script.calls world ≠ []) : EndsWell script world :=
  ⟨some, not_breaksOff_of_guarded asks world⟩

end Breaking

/-! ## Where a run may break off -/

/-- **Looking for directories** breaks off where it fails. -/
theorem missingAmong_breaksOff {paths : List Path} :
    BreaksOff (missingAmong paths) world ↔
      ∃ cause, ((missingAmong paths).run world).1 = .error cause := by
  induction paths generalizing world with
  | nil => exact iff_of_false (not_breaksOff_of_still rfl) (by simp [missingAmong, Script.run])
  | cons path rest ih =>
      rw [missingAmong]
      rcases world.answer_cases (.exists path) with
        ⟨cause, refused⟩ | ⟨there, after, granted, -, -⟩
      · rw [breaksOff_call refused, Script.run_call refused]
        exact iff_of_true (.inr ⟨rfl, by simp [passesOn, refused]⟩) ⟨cause, rfl⟩
      · rw [breaksOff_call granted, Script.run_call granted, breaksOff_bind, Script.run_bind, ih,
          passesOn_of_granted granted]
        rcases (missingAmong rest).run (world.changed after) with ⟨_ | _, behind⟩ <;>
          simp [BreaksOff, Script.run, Script.calls, Except.map]

/-- **Removing files** breaks off where it fails. -/
theorem discardAll_breaksOff {paths : List Path} :
    BreaksOff (discardAll paths) world ↔
      ∃ cause, ((discardAll paths).run world).1 = .error cause := by
  induction paths generalizing world with
  | nil => exact iff_of_false (not_breaksOff_of_still rfl) (by simp [discardAll, Script.run])
  | cons path rest ih =>
      rw [discardAll]
      rcases world.answer_cases (.removeFile path) with
        ⟨cause, refused⟩ | ⟨_, after, granted, -, -⟩
      · rw [breaksOff_call refused, Script.run_call refused]
        by_cases missing : cause.reason = .missing
        · simp only [missing, if_true, ih]
          exact or_iff_left (by simp [passesOn, refused, missing])
        · simp only [missing, if_false]
          exact iff_of_true (.inr ⟨rfl, by simp [passesOn, refused, missing]⟩) ⟨cause, rfl⟩
      · rw [breaksOff_call granted, Script.run_call granted, ih, passesOn_of_granted granted]
        simp

/-- **Making directories** never breaks off. -/
theorem makeDirectories_endsWell (absolute : Bool) (names : List Text) (world : World) :
    EndsWell (makeDirectories absolute names) world := by
  refine .of_guarded ((makeDirectories_asks absolute names).mono ?_) ?_
  · rintro asked ⟨front, -, rfl | rfl⟩ <;> rfl
  · cases names <;> simp [makeDirectories, makeDirectory, Script.calls]

/-! ## Passes that are stopped -/

theorem stageAll_guarded (directory : Path) (files : List (Text × Text)) :
    (stageAll directory files).Asks fun asked => asked.isGuarded :=
  (stageAll_asks directory files).mono fun asked staging => by
    cases asked <;> simp [Call.isStaging, Call.isGuarded] at staging ⊢

theorem replaceAll_guarded (entries : List Staged) :
    (replaceAll entries).Asks fun asked => asked.isGuarded := by
  refine (replaceAll_asks entries).mono ?_
  rintro asked ⟨entry, -, rfl⟩
  rfl

/-- Backing up is stopped at a link. -/
theorem backUpAll_stopped {entries : List Staged} {halt : Halt}
    (stopped : ((backUpAll entries).run world).1.2 = some halt) :
    EndsWell (backUpAll entries) world := by
  induction entries generalizing world with
  | nil => exact absurd stopped (by simp [backUpAll, Script.run])
  | cons entry rest ih =>
      -- the pass goes on behind the answer to a question, and is stopped later
      have onward : ∀ {between : World} {first : Staged},
          let later := (backUpAll rest).bind fun outcome => .done (first :: outcome.1, outcome.2)
          (later.run between).1.2 = some halt → EndsWell later between := by
        intro between first later stoppedThen
        rw [Script.run_bind] at stoppedThen
        exact (ih stoppedThen).bind_still rfl
      rw [backUpAll] at stopped ⊢
      rcases answered : world.answer (.exists entry.target) with ⟨cause | _ | _, after⟩
      · rw [Script.run_call answered] at stopped
        exact .of_call answered (onward stopped)
      · rw [Script.run_call answered] at stopped
        exact .of_call answered (onward stopped)
      · rw [Script.run_call answered] at stopped
        refine .of_call answered ?_
        rcases linked : after.answer (.link entry.target (backupPath entry.temp)) with
          ⟨cause | _, last⟩
        · refine ⟨by simp [Script.calls], ?_⟩
          rw [breaksOff_call linked, passesOn_of_guarded rfl]
          simp [BreaksOff, Script.calls]
        · simp only at stopped
          rw [Script.run_call linked] at stopped
          exact .of_call linked (onward stopped)

/-- **An attempt** that a refusal stops ends with that refusal, which is not passed on. -/
theorem attempt_stopped {halt : Halt}
    (stopped : ((attempt files directory).run world).1.2.2 = some halt) :
    ¬ BreaksOff (attempt files directory) world := by
  rw [attempt, breaksOff_bind, not_or, not_and]
  rw [attempt, Script.run_bind] at stopped
  refine ⟨?_, fun _ => not_breaksOff_of_guarded (stageAll_guarded directory files) world⟩
  generalize (stageAll directory files).run world = outcome at stopped
  rcases outcome with ⟨⟨staged, _ | halt⟩, behind⟩
  · simp only [Script.run_bind] at stopped
    refine EndsWell.unbroken ?_
    rcases backing : (backUpAll staged).run behind with ⟨⟨saved, _ | halt⟩, last⟩
    · refine .of_later ?_
      simp only [backing, Script.run_bind] at stopped ⊢
      refine EndsWell.bind_still (.of_guarded (replaceAll_guarded saved) ?_) rfl
      -- where there is nothing to be replaced, nothing stops
      cases saved with
      | nil => exact absurd stopped (by simp [replaceAll, Script.run])
      | cons entry rest => simp [replaceAll, Script.calls]
    · exact (backUpAll_stopped (by rw [backing])).bind_still (by rw [backing]; rfl)
  · exact not_breaksOff_of_still rfl

/-! ## Taking back -/

theorem removeDirectories_guarded (paths : List Path) :
    (removeDirectories paths).Asks fun asked => asked.isGuarded := by
  refine (removeDirectories_asks paths).mono ?_
  rintro asked ⟨path, -, rfl⟩
  rfl

/-- Behind a restoration there is always a removal, that of the temporary file. -/
theorem restoreAll_still {staged moved : List Staged} (within : moved ⊆ staged)
    {before after : World} (none : (discardAll (litter staged)).calls after = []) :
    (restoreAll moved.reverse).calls before = [] := by
  cases staged with
  | nil =>
      rw [List.subset_nil.1 within]
      rfl
  | cons entry rest => simp [litter, discardAll, Script.calls] at none

/-- **Taking back** breaks off where it fails. -/
theorem rollBack_breaksOff {staged moved : List Staged} (within : moved ⊆ staged)
    (created : List Path) : BreaksOff (rollBack staged moved created) world ↔
      ∃ cause, ((rollBack staged moved created).run world).1 = .error cause := by
  rw [rollBack, breaksOff_bind, Script.run_bind]
  generalize restored : ((restoreAll moved.reverse).run world).2 = between
  cases removed : (discardAll (litter staged)).run between with
  | mk result behind =>
      rw [breaksOff_bind, Script.run_bind, Script.calls_bind, discardAll_breaksOff, removed]
      cases result with
      | error cause => exact iff_of_true (.inl (.inr ⟨rfl, cause, rfl⟩)) ⟨cause, rfl⟩
      | ok _ =>
          refine iff_of_false ?_ (by simp [Script.run_bind, Script.run])
          rintro ((broken | ⟨-, cause, failed⟩) | ⟨none, broken⟩)
          · refine not_breaksOff_of_guarded (Script.asks_bind ?_ fun _ => ?_) behind broken
            · exact removeDirectories_guarded created
            · trivial
          · exact absurd failed (by simp)
          · exact not_breaksOff_of_still
              (restoreAll_still within (List.append_eq_nil_iff.1 none).1) broken

/-! ## What a failure says -/

/-- The failure names a path unless the run breaks off, and is passed on if it does. -/
def Failure.Fits (failure : Failure) (broken : Prop) : Prop :=
  match failure with
  | .unwritable _ _ => ¬ broken
  | .system _ => broken
  | .nul => True

section Fits

variable {failure : Failure} {created : List Path}

/-- **Looking above a path** with a NUL character breaks off where it fails otherwise. -/
theorem lookThrough_fits (failed : ((lookThrough directory).run world).1 = .error failure) :
    failure.Fits (BreaksOff (lookThrough directory) world) := by
  rw [lookThrough, Script.run_bind] at failed
  rw [lookThrough, breaksOff_bind, missingAmong_breaksOff]
  cases found : ((missingAmong (directory.ancestors.filter fun path => !path.hasNul)).run
      world).1 with
  | error cause =>
      rw [found] at failed
      obtain rfl := Except.error.inj failed
      exact .inr ⟨rfl, cause, rfl⟩
  | ok missing =>
      rw [found] at failed
      obtain rfl := Except.error.inj failed
      trivial

/-- **Preparing** breaks off where looking for the directories fails. -/
theorem prepare_breaksOff : BreaksOff (prepare directory) world ↔
    ∃ cause, ((prepare directory).run world).1 = .error (.system cause) := by
  rw [prepare, breaksOff_bind, missingAmong_breaksOff, Script.run_bind]
  cases found : ((missingAmong (directory :: directory.ancestors)).run world).1 with
  | error cause => exact iff_of_true (.inr ⟨rfl, cause, rfl⟩) ⟨cause, rfl⟩
  | ok missing =>
      simp only [Script.run_bind]
      generalize ((missingAmong (directory :: directory.ancestors)).run world).2 = between
      refine iff_of_false ?_ ?_
      · rintro (broken | ⟨-, cause, failed⟩)
        · refine EndsWell.unbroken (.bind_still (makeDirectories_endsWell _ _ _) ?_) broken
          cases (Script.run _ _).1 <;> rfl
        · exact absurd failed (by simp)
      · rintro ⟨cause, failed⟩
        revert failed
        cases (Script.run (makeDirectories _ _) between).1 <;> simp [Script.run]

theorem prepare_fits (failed : ((prepare directory).run world).1 = .error failure) :
    failure.Fits (BreaksOff (prepare directory) world) := by
  rw [prepare_breaksOff, failed]
  cases failure <;> simp [Failure.Fits]

/-- A failure names a path only behind a refusal and a taking back that is finished. -/
theorem conclude_unwritable {staged moved : List Staged} {halt : Option Halt} {cause : Refusal}
    (failed : ((conclude created (staged, moved, halt)).run world).1 =
      .error (.unwritable path cause)) :
    halt = some (.refused path cause) ∧ ((conclude created (staged, moved, halt)).run world).2 =
      ((rollBack staged moved created).run world).2 ∧
        ((rollBack staged moved created).run world).1 = .ok () := by
  rcases halt with _ | ⟨target, refusal⟩ | _
  · rw [conclude, Script.run_bind] at failed
    revert failed
    cases (Script.run (discardAll _) world).1 <;> simp [Script.run]
  · rw [conclude, Script.run_bind] at failed ⊢
    revert failed
    cases (Script.run (rollBack _ _ _) world).1 with
    | error other => simp [Script.run]
    | ok _ =>
        rintro failed
        cases failed
        exact ⟨rfl, rfl, rfl⟩
  · exact absurd failed (by simp [conclude, Script.run])

/-- What follows an attempt. -/
theorem conclude_fits {staged moved : List Staged} {halt : Option Halt} (within : moved ⊆ staged)
    (failed : ((conclude created (staged, moved, halt)).run world).1 = .error failure) :
    failure.Fits (BreaksOff (conclude created (staged, moved, halt)) world) := by
  rcases halt with _ | ⟨target, cause⟩ | _
  · rw [conclude, Script.run_bind] at failed
    rw [conclude, breaksOff_bind, discardAll_breaksOff]
    cases removed : ((discardAll (staged.filterMap Staged.backup)).run world).1 with
    | error other =>
        rw [removed] at failed
        obtain rfl := Except.error.inj failed
        exact .inr ⟨rfl, other, rfl⟩
    | ok _ =>
        rw [removed] at failed
        exact absurd failed (by simp [Script.run])
  · rw [conclude, Script.run_bind] at failed
    rw [conclude, breaksOff_bind, rollBack_breaksOff within]
    cases back : ((rollBack staged moved created).run world).1 with
    | error other =>
        rw [back] at failed
        obtain rfl := Except.error.inj failed
        exact .inr ⟨rfl, other, rfl⟩
    | ok _ =>
        rw [back] at failed
        obtain rfl := Except.error.inj failed
        simp [Failure.Fits, BreaksOff, Script.calls]
  · rw [conclude] at failed
    obtain rfl := Except.error.inj failed
    trivial

/-- **What a failure says.**  It is passed on as it is exactly where the run breaks off. -/
theorem publish_fits (sound : world.tree.Sound)
    (failed : ((publish files directory).run world).1 = .error failure) :
    failure.Fits (BreaksOff (publish files directory) world) := by
  cases nul : directory.hasNul with
  | true =>
      rw [publish_of_nul nul] at failed ⊢
      exact lookThrough_fits failed
  | false =>
      rcases prepared : (prepare directory).run world with ⟨other | created, between⟩
      · obtain ⟨run, calls, -⟩ := @publish_unprepared _ _ _ _ _ _ files nul _ (by rw [prepared])
        rw [run] at failed
        obtain rfl := Except.error.inj failed
        rw [BreaksOff, calls]
        exact prepare_fits (by rw [prepared])
      · have begun : ¬ BreaksOff (prepare directory) world := by
          rw [prepare_breaksOff, prepared]
          simp
        have soundThen : between.tree.Sound := by
          have same := Script.run_sound (prepare directory) sound
          rwa [prepared] at same
        have within := (attempt_undoable soundThen files directory).within
        have stopped : ∀ {halt}, ((attempt files directory).run between).1.2.2 = some halt →
            ¬ BreaksOff (attempt files directory) between := attempt_stopped
        rcases attempted : (attempt files directory).run between with ⟨⟨staged, moved, halt⟩, last⟩
        rw [attempted] at within stopped
        simp only [publish, nul, Bool.false_eq_true, if_false, Script.run_bind, prepared,
          attempted] at failed
        have concluded := conclude_fits within failed
        simp only [publish, nul, Bool.false_eq_true, if_false]
        rw [breaksOff_bind, prepared]
        simp only [breaksOff_bind, attempted]
        cases failure with
        | unwritable path cause =>
            obtain ⟨halted, -⟩ := conclude_unwritable failed
            rintro ((broken | ⟨-, broken⟩) | ⟨-, broken⟩)
            · exact concluded broken
            · exact stopped halted broken
            · exact begun broken
        | system cause => exact .inl (.inl concluded)
        | nul => trivial

end Fits

/-! ## What stands behind a failure that names a path -/

/-- Every restoration of a target is granted. -/
def Restores (files : List (Text × Text)) (directory : Path) (world : World) : Prop :=
  ∀ created, ((prepare directory).run world).1 = .ok created →
    let outcome := (attempt files directory).run ((prepare directory).run world).2
    Unrefused (restoreAll outcome.1.2.1.reverse) outcome.2

/-- **Nothing is published** by a run that fails with a path, if all restorations are granted:
each file was there before. -/
theorem publish_undoes (sound : world.tree.Sound) {cause : Refusal}
    (failed : ((publish files directory).run world).1 = .error (.unwritable path cause))
    (restores : Restores files directory world)
    (truthful : Truthful (publish files directory) world) {place : Location}
    {content : Text.Octets}
    (there : ((publish files directory).run world).2.tree.entryAt place = some (.file content)) :
    world.tree.entryAt place = some (.file content) := by
  obtain ⟨soundThen, grown⟩ :=
    prepare_grown sound _ (Script.end_mem_moments (prepare directory) world)
  have old : ∀ {tree : Tree}, tree = ((prepare directory).run world).2.tree →
      tree.entryAt place = some (.file content) →
      world.tree.entryAt place = some (.file content) := by
    rintro tree rfl stands
    rcases grown.cases place with same | ⟨-, isDirectory, -⟩
    · exact same.symm.trans stands
    · exact absurd (isDirectory.symm.trans stands) (by simp)
  cases nul : directory.hasNul with
  | true =>
      rw [publish_of_nul nul, run_of_exists (lookThrough_asks directory)] at there
      exact there
  | false =>
      cases prepared : ((prepare directory).run world).1 with
      | error other =>
          rw [(publish_unprepared nul prepared).1] at there
          exact old rfl there
      | ok created =>
          obtain ⟨run, calls, -⟩ := publish_prepared files nul prepared
          have attempts := attempt_undoable soundThen files directory
          have restored := restores created prepared
          rw [run, Script.run_bind] at failed there
          rw [Truthful, calls, Script.calls_bind] at truthful
          rcases attempted : (attempt files directory).run ((prepare directory).run world).2 with
            ⟨⟨staged, moved, halt⟩, last⟩
          simp only [attempted] at attempts restored failed there truthful
          obtain ⟨rfl, behind, finished⟩ := conclude_unwritable failed
          rw [behind] at there
          refine old rfl (rollBack_undoes attempts restored (fun step member => ?_) finished there)
          refine truthful step (List.mem_append_right _ (List.mem_append_right _ ?_))
          exact Script.mem_calls_left member

/-! ## Reports -/

/-- The command prints the path that could not be written. -/
theorem runGrammar_unwritable {grammar : Grammar} {strict : Bool} {text : Text}
    {value : CommandLine.GrammarValue} {cause : Refusal}
    (rendered : grammar.render strict = .ok files) (leads : Path.ofText text = directory)
    (failed : ((publish files directory).run world).1 = .error (.unwritable path cause)) :
    ((CommandLine.runGrammar text value strict (.ok grammar)).run world).1 =
      CommandLine.failed CommandLine.fileStatus (CommandLine.unwritable path cause) := by
  subst leads
  simp only [CommandLine.runGrammar, Generation.generate, rendered, Script.run_bind,
    Script.run_notes, failed, Script.run]

/-- The failure is an output failure: it names a path, the command says that this path could not be
written, and nothing was published if every restoration was granted. -/
structure Reported (files : List (Text × Text)) (directory : Path) (world : World)
    (failure : Failure) : Prop where
  named : ∃ path cause, failure = .unwritable path cause ∧
    ∀ grammar strict text value, Grammar.render grammar strict = .ok files →
      Path.ofText text = directory →
      ((CommandLine.runGrammar text value strict (.ok grammar)).run world).1 =
        CommandLine.failed CommandLine.fileStatus (CommandLine.unwritable path cause)
  unpublished : Restores files directory world → Truthful (publish files directory) world →
    ∀ place content,
      ((publish files directory).run world).2.tree.entryAt place = some (.file content) →
      world.tree.entryAt place = some (.file content)

/-- **When a failure is an output failure.**  If a call of the system makes publishing fail, the
failure is reported as one of writing, with nothing published, exactly if the run does not break
off at a question for a directory or at the removal of a temporary file or of a backup. -/
theorem reported_iff (sound : world.tree.Sound) {failure : Failure}
    (failed : ((publish files directory).run world).1 = .error failure)
    (system : failure ≠ .nul) :
    Reported files directory world failure ↔ ¬ BreaksOff (publish files directory) world := by
  have fits := publish_fits sound failed
  cases failure with
  | unwritable path cause =>
      refine iff_of_true ⟨⟨path, cause, rfl, fun grammar strict text value rendered leads => ?_⟩,
        fun restores truthful place content there => ?_⟩ fits
      · exact runGrammar_unwritable rendered leads failed
      · exact publish_undoes sound failed restores truthful there
  | system cause =>
      refine iff_of_false (fun reported => ?_) (not_not_intro fits)
      obtain ⟨path, other, same, -⟩ := reported.named
      exact absurd same (by simp)
  | nul => exact absurd rfl system

/-- Whether a call is not refused. -/
def isGranted (step : World × Call) : Bool :=
  (step.1.answer step.2).1.isOk

theorem unrefused_of_isGranted {α : Type} {script : Script α}
    (all : (script.calls world).all isGranted = true) : Unrefused script world := by
  rintro ⟨before, asked⟩ member
  have holds := List.all_eq_true.1 all _ member
  unfold World.Grants
  revert holds
  unfold isGranted
  cases (before.answer asked).1 with
  | ok result => exact fun _ => ⟨result, rfl⟩
  | error cause => exact fun holds => absurd holds (by simp [Except.isOk, Except.toBool])

/-- The world of the sample where the second file cannot be moved. -/
def deniedWorld : World :=
  sampleWorld [⟨.replace, some ['b'], none⟩]

theorem sample_truthful (faults : List Fault) :
    Truthful (publish sampleFiles sampleDirectory) (sampleWorld faults) := by
  intro step member path asked cause denied
  rw [World.denial, (Script.calls_world member).1] at denied
  simp only [sampleWorld, Fault.denial] at denied
  split at denied
  · cases denied
    simp
  · exact absurd denied (by simp)

/-- The second file cannot be moved, the first one is given back, and the failure is one of
writing. -/
theorem denied_replacement_reported :
    Reported sampleFiles sampleDirectory deniedWorld
        (.unwritable (sampleDirectory.join ['b']) ⟨.accessDenied, []⟩) ∧
      Restores sampleFiles sampleDirectory deniedWorld ∧
      Truthful (publish sampleFiles sampleDirectory) deniedWorld := by
  refine ⟨(reported_iff sample_sound ?_ (by simp)).2 (by decide +kernel), ?_, sample_truthful _⟩
  · decide +kernel
  · exact fun created prepared => unrefused_of_isGranted (by decide +kernel)

/-- An output directory with a name that is too long for the system. -/
def longDirectory : Path :=
  .relative [List.replicate 300 'x']

/-- The question for the directory is refused, and the failure is passed on: it names no path, and
the command says that the grammar could not be read. -/
theorem long_name_passed_on :
    let cause : Refusal := ⟨.nameTooLong, [longDirectory.text]⟩
    ((publish sampleFiles longDirectory).run emptyWorld).1 = .error (.system cause) ∧
      ((CommandLine.runGrammar longDirectory.text .absent true (.ok Grammar.linkedGrammar)).run
        emptyWorld).1 = CommandLine.unreadable .absent cause := by
  decide +kernel

/-- No backup can be removed, and the failure is passed on when all is published: the new text
stands at the target. -/
theorem denied_backup_removal_publishes :
    let world := sampleWorld [⟨.removeFile, none, some ".bak"⟩]
    let outcome := (publish sampleFiles sampleDirectory).run world
    outcome.1 = .error (.system ⟨.accessDenied, []⟩) ∧
      Restores sampleFiles sampleDirectory world ∧
      outcome.2.tree.read (sampleDirectory.join ['a']) = .ok (Text.encode ['n', 'e', 'w']) := by
  intro world outcome
  exact ⟨by decide +kernel, fun created prepared => unrefused_of_isGranted (by decide +kernel),
    by decide +kernel⟩

end Publish

end TreeGrammar
