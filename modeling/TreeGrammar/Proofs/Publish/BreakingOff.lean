/-
# TreeGrammar.Proofs.Publish.BreakingOff -- runs that a name or a text breaks off

A name or a text with a surrogate in it is handed over like any other one, and breaks the run
off where it is to be used.  A run that is not broken off behind a temporary file makes the calls
of a run whose names and texts are texts, and ends where that one ends (`publish_narrow`).  A
run that is broken off behind one takes nothing back: each temporary file that it has made still
stands in the end (`stands_of_strands`).
-/
import TreeGrammar.Proofs.Publish.Residue

set_option autoImplicit false

namespace TreeGrammar.Publish

variable {ν τ : Type} [Text.Wording ν]
variable {directory path : Path} {world before : World} {stem : Text} {files : List (ν × τ)}

/-- The names that are texts. -/
def textNames (files : List (ν × τ)) : List Text :=
  files.filterMap fun file => Text.Wording.text? file.1

variable [Text.Wording τ]

/-- The run is broken off behind a temporary file that it has made. -/
def Strands (files : List (ν × τ)) (directory : Path) (world : World) : Prop :=
  ((publish files directory).run world).1 = .error .nul ∧
    ∃ stem, (publish files directory).Grants world (.createTemp directory stem)

/-! ## What has been staged stands -/

/-- Staging takes nothing away. -/
theorem staging_stands {asked : Call} {result : asked.Answer} {after : Tree}
    (staging : asked.isStaging) (sound : world.tree.Sound)
    (stands : ∃ entry, world.tree.look path = .ok (some entry))
    (done : world.attempt asked = .ok (result, after)) :
    ∃ entry, after.look path = .ok (some entry) := by
  obtain ⟨entry, looked⟩ := stands
  obtain ⟨there, finds, stood⟩ := Tree.exists_finds_of_look looked
  have keeps := (world.attempt_preserves asked (Call.isStaging_keeps staging) done).keeps
  have entries : after.entryAt there ≠ none := by
    have updated : ∀ place entry, after.entryAt = Function.update world.tree.entryAt place
        (some entry) → after.entryAt there ≠ none := by
      intro place entry changed
      rw [changed]
      by_cases same : there = place
      · rw [same, Function.update_self]
        simp
      · rw [Function.update_of_ne same, stood]
        simp
    cases asked with
    | createTemp folder stem =>
        obtain ⟨-, made⟩ := World.attempt_createTemp done
        obtain ⟨place, findsToo, -⟩ := Tree.exists_place made
        exact updated place _ (Tree.createFile_ok findsToo made).2.2
    | write target content =>
        have written := World.attempt_write done
        obtain ⟨place, findsToo, -⟩ := Tree.exists_place written
        exact updated place _ (Tree.writeFile_ok findsToo written).2.2
    | publish target =>
        rw [World.attempt_publish done, stood]
        simp
    | _ => exact absurd staging (by simp [Call.isStaging])
  obtain ⟨last, standsLast⟩ := Option.ne_none_iff_exists'.1 entries
  refine ⟨last, ?_⟩
  rw [Tree.look_eq (finds.keeps sound keeps), if_pos rfl, standsLast]

theorem createTemp_stands (sound : world.tree.Sound)
    (granted : world.Grants (.createTemp directory stem)) :
    ∃ entry, (world.answer (.createTemp directory stem)).2.tree.look
      (tempPath directory stem (world.stamps world.clock)) = .ok (some entry) := by
  obtain ⟨temp, answered⟩ := granted
  rcases world.answer_cases (.createTemp directory stem) with
    ⟨cause, refused⟩ | ⟨other, after, same, made, -⟩
  · rw [refused] at answered
    exact absurd answered (by simp)
  · obtain ⟨rfl, createdFile⟩ := World.attempt_createTemp made
    obtain ⟨place, finds, -⟩ := Tree.exists_place createdFile
    have keeps := (Tree.createFile_preserves createdFile).keeps
    rw [same, World.changed_tree, Tree.look_eq (finds.keeps sound keeps), if_pos rfl,
      (Tree.createFile_ok finds createdFile).2.2, Function.update_self]
    exact ⟨_, rfl⟩

/-- **What staging has made stands in the end**, whatever is refused. -/
theorem stands_of_granted {α : Type} {script : Script α}
    (staging : script.Asks fun asked => asked.isStaging) (sound : world.tree.Sound)
    (called : (before, .createTemp directory stem) ∈ script.calls world)
    (granted : before.Grants (.createTemp directory stem)) :
    ∃ entry, (script.run world).2.tree.look
      (tempPath directory stem (before.stamps before.clock)) = .ok (some entry) := by
  induction script generalizing world with
  | done result => exact absurd called List.not_mem_nil
  | note entry rest ih => exact ih staging sound called
  | call asked rest ih =>
      obtain ⟨-, later⟩ := staging
      rcases List.mem_cons.1 called with same | behind
      · cases same
        have both : ∀ tree ∈ (rest (before.answer (.createTemp directory stem)).1).moments
            (before.answer (.createTemp directory stem)).2, tree.Sound ∧ ∃ entry, tree.look
              (tempPath directory stem (before.stamps before.clock)) = .ok (some entry) :=
          (later _).invariant ⟨before.answer_sound _ sound, createTemp_stands sound granted⟩
            fun between asked _ _ sort holds done =>
              ⟨(between.attempt_preserves asked (Call.isStaging_keeps sort) done).sound holds.1,
                staging_stands sort holds.1 holds.2 done⟩
        exact (both _ (Script.end_mem_moments _ _)).2
      · exact ih _ (later _) (world.answer_sound _ sound) behind

/-! ## Staging -/

/-- A file whose name and content are texts is staged as what it is. -/
theorem stageOne_narrow {name : ν} {text : τ} {content : Text}
    (named : Text.Wording.text? name = some stem) (worded : Text.Wording.text? text = some content) :
    stageOne directory name text = stageOne directory stem content := by
  simp only [stageOne, named, worded, Text.Wording.text?]

/-- **Staging that is not broken off** does what it does with texts. -/
theorem stageAll_narrow (going : ((stageAll directory files).run world).1.2 ≠ some .nul) :
    ∃ texts : List (Text × Text), (texts.map Prod.fst).Sublist (textNames files) ∧
      (stageAll directory files).run world = (stageAll directory texts).run world ∧
      (stageAll directory files).calls world = (stageAll directory texts).calls world := by
  induction files generalizing world with
  | nil => exact ⟨[], List.Sublist.refl _, rfl, rfl⟩
  | cons file rest ih =>
      obtain ⟨name, text⟩ := file
      simp only [stageAll, Script.run_bind, Script.calls_bind] at going ⊢
      cases named : Text.Wording.text? name with
      | none => exact absurd (by simp [stageOne, named, Script.run]) going
      | some stem =>
          have names : textNames ((name, text) :: rest) = stem :: textNames rest := by
            simp [textNames, named]
          rw [names]
          cases worded : Text.Wording.text? text with
          | some content =>
              rw [stageOne_narrow named worded] at going ⊢
              rcases outcome : (stageOne directory stem content).run world with
                ⟨⟨staged, _ | halt⟩, behind⟩
              · rw [outcome] at going
                simp only [Script.run_bind] at going
                obtain ⟨texts, within, runs, calls⟩ := ih going
                refine ⟨(stem, content) :: texts, within.cons_cons stem, ?_, ?_⟩
                · simp only [stageAll, Script.run_bind, outcome, runs]
                · simp only [stageAll, Script.calls_bind, outcome, calls]
                  rfl
              · refine ⟨[(stem, content)], (List.nil_sublist _).cons_cons stem, ?_, ?_⟩
                · simp only [stageAll, Script.run_bind, outcome]
                · simp only [stageAll, Script.calls_bind, outcome]
          | none =>
              -- the text is never looked at, as its temporary file is refused
              by_cases nul : (directory.join stem).hasNul = true
              · exact absurd (by simp [stageOne, named, nul, Script.run]) going
              · refine ⟨[(stem, [])], (List.nil_sublist _).cons_cons stem, ?_⟩
                rcases world.answer_cases (.createTemp directory stem) with
                  ⟨cause, refused⟩ | ⟨temp, created, granted, -, -⟩
                · simp only [stageAll, stageOne_text, Script.run_bind, Script.calls_bind]
                  simp only [stageOne, named, nul, Bool.false_eq_true, if_false,
                    Script.run_call refused, Script.calls_call refused]
                  exact ⟨rfl, rfl⟩
                · refine absurd ?_ going
                  simp only [stageOne, named, worded, nul, Bool.false_eq_true, if_false,
                    Script.run_call granted]
                  rfl

/-- Staging that is broken off without having made a temporary file has done nothing. -/
theorem stageAll_unstaged (broken : ((stageAll directory files).run world).1.2 = some .nul)
    (none : ∀ stem, ¬ (stageAll directory files).Grants world (.createTemp directory stem)) :
    ((stageAll directory files).run world).2 = world ∧
      (stageAll directory files).calls world = [] := by
  cases files with
  | nil => exact ⟨rfl, rfl⟩
  | cons file rest =>
      obtain ⟨name, text⟩ := file
      simp only [Script.Grants, stageAll, Script.run_bind, Script.calls_bind] at broken none ⊢
      cases named : Text.Wording.text? name with
      | none =>
          simp only [stageOne, named]
          exact ⟨rfl, rfl⟩
      | some stem =>
          by_cases nul : (directory.join stem).hasNul = true
          · simp only [stageOne, named, nul, if_true]
            exact ⟨rfl, rfl⟩
          · rcases world.answer_cases (.createTemp directory stem) with
              ⟨cause, refused⟩ | ⟨temp, created, granted, -, -⟩
            · refine absurd broken ?_
              simp only [stageOne, named, nul, Bool.false_eq_true, if_false,
                Script.run_call refused, Script.run]
              simp
            · refine absurd ⟨world, List.mem_append_left _ ?_, temp, by rw [granted]⟩ (none stem)
              simp only [stageOne, named, nul, Bool.false_eq_true, if_false,
                Script.calls_call granted]
              exact List.mem_cons_self

/-! ## Whole runs -/

/-- What comes behind staging hangs on what was staged alone. -/
theorem attempt_bind_congr {others : List (Text × Text)} {β : Type}
    (next : List Staged × List Staged × Option Halt → Script β)
    (runs : (stageAll directory files).run world = (stageAll directory others).run world)
    (calls : (stageAll directory files).calls world = (stageAll directory others).calls world) :
    ((attempt files directory).bind next).run world =
        ((attempt others directory).bind next).run world ∧
      ((attempt files directory).bind next).calls world =
        ((attempt others directory).bind next).calls world := by
  simp only [attempt, Script.run_bind, Script.calls_bind, runs, calls, and_self]

/-- Where staging is broken off, nothing comes behind it. -/
theorem attempt_broken (created : List Path)
    (broken : ((stageAll directory files).run world).1.2 = some .nul) :
    ((attempt files directory).bind (conclude created)).run world =
        (.error .nul, ((stageAll directory files).run world).2) ∧
      ((attempt files directory).bind (conclude created)).calls world =
        (stageAll directory files).calls world := by
  simp only [attempt, Script.run_bind, Script.calls_bind]
  rcases outcome : ((stageAll directory files).run world).1 with ⟨staged, halt⟩
  rw [outcome] at broken
  obtain rfl : halt = some .nul := broken
  exact ⟨rfl, by simp [Script.calls, Script.run, conclude]⟩

/-- Only staging is broken off. -/
theorem staging_of_broken {created : List Path}
    (broken : (((attempt files directory).bind (conclude created)).run world).1 = .error .nul) :
    ((stageAll directory files).run world).1.2 = some .nul := by
  rw [Script.run_bind] at broken
  have halted : ((attempt files directory).run world).1.2.2 = some .nul := by
    generalize (attempt files directory).run world = outcome at broken
    obtain ⟨⟨staged, moved, halt⟩, behind⟩ := outcome
    rcases halt with _ | ⟨target, cause⟩ | _
    · simp only [conclude, Script.run_bind] at broken
      generalize ((discardAll (staged.filterMap Staged.backup)).run behind).1 = discarded at broken
      cases discarded <;> exact absurd broken (by simp [Script.run])
    · simp only [conclude, Script.run_bind] at broken
      generalize ((rollBack staged moved created).run behind).1 = taken at broken
      cases taken <;> exact absurd broken (by simp [Script.run])
    · rfl
  simp only [attempt, Script.run_bind] at halted
  rcases outcome : ((stageAll directory files).run world).1 with ⟨staged, _ | halt⟩
  · rw [outcome] at halted
    simp only [Script.run_bind] at halted
    generalize backing : (backUpAll staged).run ((stageAll directory files).run world).2 = saved
      at halted
    have saving := (backUpAll_unbroken staged).run ((stageAll directory files).run world).2
    rw [backing] at saving
    obtain ⟨⟨saved, _ | halt⟩, behind⟩ := saved
    · simp only [Script.run_bind] at halted
      exact absurd halted ((replaceAll_unbroken saved).run behind)
    · exact absurd halted saving
  · rw [outcome] at halted
    exact halted

/-- **A run that is not broken off** behind a temporary file makes the calls of a run over texts,
and ends where it ends. -/
theorem publish_narrow (unbroken : ¬ Strands files directory world) :
    ∃ texts : List (Text × Text), (texts.map Prod.fst).Sublist (textNames files) ∧
      ((publish files directory).run world).2 = ((publish texts directory).run world).2 ∧
      (publish files directory).calls world = (publish texts directory).calls world := by
  have idle : (([] : List (Text × Text)).map Prod.fst).Sublist (textNames files) :=
    List.nil_sublist _
  cases nul : directory.hasNul with
  | true => exact ⟨[], idle, by simp only [publish_of_nul nul], by simp only [publish_of_nul nul]⟩
  | false =>
      cases prepared : ((prepare directory).run world).1 with
      | error failure =>
          refine ⟨[], idle, ?_, ?_⟩
          · rw [(publish_unprepared nul prepared).1, (publish_unprepared nul prepared).1]
          · rw [(publish_unprepared nul prepared).2.1, (publish_unprepared nul prepared).2.1]
      | ok created =>
          obtain ⟨runs, calls, -⟩ := publish_prepared files nul prepared
          by_cases going :
              ((stageAll directory files).run ((prepare directory).run world).2).1.2 = some .nul
          · obtain ⟨broken, brokenCalls⟩ := attempt_broken created going
            obtain ⟨runsIdle, callsIdle, -⟩ :=
              publish_prepared ([] : List (Text × Text)) nul prepared
            have unstaged := stageAll_unstaged going fun stem granted => unbroken
              ⟨by rw [runs, broken], stem, by
                obtain ⟨before, called, answered⟩ := granted
                refine ⟨before, ?_, answered⟩
                rw [calls, brokenCalls]
                exact List.mem_append_right _ called⟩
            refine ⟨[], idle, ?_, ?_⟩
            · rw [runs, broken, unstaged.1, runsIdle]
              rfl
            · rw [calls, brokenCalls, unstaged.2, callsIdle]
              rfl
          · obtain ⟨texts, within, same, sameCalls⟩ := stageAll_narrow going
            obtain ⟨runsToo, callsToo, -⟩ := publish_prepared texts nul prepared
            obtain ⟨congrRun, congrCalls⟩ := attempt_bind_congr (conclude created) same sameCalls
            refine ⟨texts, within, ?_, ?_⟩
            · rw [runs, runsToo, congrRun]
            · rw [calls, callsToo, congrCalls]

/-- **A run that is broken off** behind a temporary file leaves it. -/
theorem stands_of_strands (sound : world.tree.Sound) (strands : Strands files directory world) :
    ∃ before stem, (before, .createTemp directory stem) ∈ (publish files directory).calls world ∧
      ∃ entry, ((publish files directory).run world).2.tree.look
        (tempPath directory stem (before.stamps before.clock)) = .ok (some entry) := by
  obtain ⟨result, stem, before, called, granted⟩ := strands
  refine ⟨before, stem, called, ?_⟩
  cases nul : directory.hasNul with
  | true =>
      rw [publish_of_nul nul] at called
      obtain ⟨other, looked⟩ := (lookThrough_asks directory).of_mem called
      exact absurd looked (by simp)
  | false =>
      have notPreparing : (before, Call.createTemp directory stem) ∉
          (prepare directory).calls world := fun preparing =>
        absurd ((prepare_asks directory).of_mem preparing) (by simp [Call.isPreparing])
      cases prepared : ((prepare directory).run world).1 with
      | error failure =>
          rw [(publish_unprepared nul prepared).2.1] at called
          exact absurd called notPreparing
      | ok created =>
          obtain ⟨runs, calls, -⟩ := publish_prepared files nul prepared
          rw [runs] at result ⊢
          obtain ⟨ends, stagingCalls⟩ := attempt_broken created (staging_of_broken result)
          rw [calls, stagingCalls, List.mem_append] at called
          rw [ends]
          exact stands_of_granted (stageAll_asks directory files) (Script.run_sound _ sound)
            (called.resolve_left notPreparing) granted

end TreeGrammar.Publish
