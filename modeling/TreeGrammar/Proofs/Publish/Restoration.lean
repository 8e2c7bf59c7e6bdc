/-
# TreeGrammar.Proofs.Publish.Restoration -- a refused step leaves the tree as it was

When a call that serves a target is refused and no other call is denied, publishing
fails with that target, and everything stands where it stood (`publish_restores`).
-/
import TreeGrammar.Proofs.Publish.RollingBack
import TreeGrammar.Proofs.Publish.Serving

set_option autoImplicit false

namespace TreeGrammar.Publish

open TreeGrammar.Tree (child)

variable {base : Tree} {directory : Path} {stamps : Nat → Text} {names : List Text}
variable {here : Location} {world : World}

/-! ## Which calls serve no target -/

theorem isPreparing_not_serves {asked : Call} (preparing : asked.isPreparing) (target : Path) :
    ¬ Serves directory stamps asked target := by
  intro serves
  cases serves <;> simp [Call.isPreparing] at preparing

theorem concludes_not_serves (fresh : Fresh base directory stamps names) {moved : List Job}
    (allFor : ∀ job ∈ moved, job.For stamps names) {asked : Call}
    (concludes : Concludes directory moved asked) (target : Path) :
    ¬ Serves directory stamps asked target := by
  rcases concludes with ⟨job, member, rfl⟩ | ⟨path, rfl⟩
  · cases saved : job.saved with
    | true =>
        obtain ⟨single, -, plain⟩ := single_of_for fresh (allFor job member)
        simp only [Staged.restoration, Job.staged, saved, if_true]
        intro serves
        obtain ⟨-, name, time, nameSingle, same⟩ := serves.of_replace
        exact savedPath_ne_tempPath single nameSingle plain (fresh.plain time).2 same
    | false =>
        simp only [Staged.restoration, Job.staged, saved, Bool.false_eq_true, if_false]
        intro serves
        cases serves
  · intro serves
    cases serves

/-! ## The tree is as it was -/

/-- From a tree with the directory in it, a refused attempt that is taken back without denial
leaves the tree as it was. -/
theorem attempt_restores (fresh : Fresh world.tree directory world.stamps names)
    (houses : world.tree.Houses directory here) {files : List (Text × Text)}
    (named : files.map Prod.fst = names)
    (undone : ∀ step ∈ ((attempt files directory).bind (conclude [])).calls world,
      step.1.denial step.2 ≠ none → ∃ target, Serves directory world.stamps step.2 target)
    {step : World × Call}
    (called : step ∈ ((attempt files directory).bind (conclude [])).calls world)
    {target : Path} (serves : Serves directory world.stamps step.2 target) {cause : Refusal}
    (refused : (step.1.answer step.2).1 = .error cause) :
    let outcome := ((attempt files directory).bind (conclude [])).run world
    outcome.1 = .error (.unwritable target cause) ∧
      outcome.2.tree.entryAt = world.tree.entryAt := by
  have honest : Honest (attempt files directory) world := by
    intro each member path asked
    by_contra denied
    obtain ⟨served, serving⟩ := undone each (Script.mem_calls_left member) denied
    exact isPreparing_not_serves (by rw [asked]; rfl) served serving
  have allNamed : ∀ file ∈ files, file.1 ∈ names := fun file member =>
    named ▸ List.mem_map_of_mem member
  obtain ⟨moved, rest, halt, results, allFor, first, -, passed, -⟩ :=
    attempt_over fresh houses rfl honest allNamed (named ▸ fresh.distinct)
  have movedFor : ∀ job ∈ moved, job.For world.stamps names := fun job member =>
    allFor job (List.mem_append_left rest member)
  have concluding : ∀ each ∈ (conclude [] ((attempt files directory).run world).1).calls
      ((attempt files directory).run world).2,
      ∀ served, ¬ Serves directory world.stamps each.2 served := by
    intro each member served
    rw [results] at member
    exact concludes_not_serves fresh movedFor ((conclude_asks _ _ _).of_mem member) served
  have inAttempt : step ∈ (attempt files directory).calls world := by
    rw [Script.calls_bind, List.mem_append] at called
    exact called.resolve_right fun later => concluding step later target serves
  have stopped : halt = some (.refused target cause) := by
    have stops := attempt_refused fresh.plain rfl
      (fun file member => fresh.single _ (allNamed file member)) inAttempt serves refused
    rwa [results] at stops
  have vacant : ∀ job ∈ moved ++ rest, (job.standing here world.tree.entryAt).backup = none :=
    fun job member => vacant_backup fresh houses (allFor job member) (passed.inside job member).fits
  have keeps := Script.run_keeps (attempt_asks files directory) world
  have calm : True → Undenied (rollBack ((moved ++ rest).map (Job.staged directory))
      (moved.map (Job.staged directory)) []) ((attempt files directory).run world).2 := by
    intro _ each member
    by_contra denied
    have later : each ∈ (conclude [] ((attempt files directory).run world).1).calls
        ((attempt files directory).run world).2 := by
      rw [results, stopped]
      exact Script.mem_calls_left member
    obtain ⟨served, serving⟩ := undone each (Script.mem_calls_right later) denied
    exact concluding each later served serving
  obtain ⟨rolledBack, result⟩ := rollBack_over fresh (houses.keeps keeps) allFor
    (nodup_names first (named ▸ fresh.distinct)) passed vacant calm
  intro outcome
  simp only [outcome, Script.run_bind, results, stopped, conclude, result trivial]
  exact ⟨rfl, (rolledBack.mono fun _ _ _ _ each => each.undone trivial).same⟩

/-- **Publishing restores.**  If a call that serves a target is refused, and no call but those
that serve targets is denied, publishing reports the target that was being served, and everything
stands where it stood. -/
theorem publish_restores {files : List (Text × Text)} (sound : world.tree.Sound)
    (there : world.tree.look directory = .ok (some .directory))
    (fresh : Fresh world.tree directory world.stamps (files.map Prod.fst))
    (undone : ∀ step ∈ (publish files directory).calls world, step.1.denial step.2 ≠ none →
      ∃ target, Serves directory world.stamps step.2 target)
    {step : World × Call} (called : step ∈ (publish files directory).calls world)
    {target : Path} (serves : Serves directory world.stamps step.2 target) {cause : Refusal}
    (refused : (step.1.answer step.2).1 = .error cause) :
    ((publish files directory).run world).1 = .error (.unwritable target cause) ∧
      ((publish files directory).run world).2.tree.entryAt = world.tree.entryAt := by
  cases nul : directory.hasNul with
  | true =>
      rw [publish, if_pos nul] at called
      obtain ⟨path, asked⟩ := (lookThrough_asks directory).of_mem called
      exact absurd serves (isPreparing_not_serves (by rw [asked]; rfl) target)
  | false =>
      have unprepared : ∀ each ∈ (prepare directory).calls world,
          ∀ served, ¬ Serves directory world.stamps each.2 served := fun each member =>
        isPreparing_not_serves ((prepare_asks directory).of_mem member)
      have calm : Undenied (prepare directory) world := by
        intro each member
        by_contra denied
        have inPublish : each ∈ (publish files directory).calls world := by
          simp only [publish, nul, Bool.false_eq_true, if_false]
          exact Script.mem_calls_left member
        obtain ⟨served, serving⟩ := undone each inPublish denied
        exact unprepared each member served serving
      obtain ⟨same, runs, calls⟩ := publish_there nul there calm
      obtain ⟨here, resolved, leads⟩ := Tree.leads_of_look there
      have houses : world.tree.Houses directory here :=
        ⟨leads, sound.above (by rw [leads.entryAt]; simp)⟩
      rw [calls, List.mem_append] at called
      have later := called.resolve_left fun early => unprepared step early target serves
      have stamped : ((prepare directory).run world).2.stamps = world.stamps :=
        Script.run_stamps _ _
      rw [runs, ← same]
      rw [← same, ← stamped] at fresh
      rw [← stamped] at serves
      refine attempt_restores fresh (same ▸ houses) rfl ?_ later serves refused
      intro each member denied
      rw [stamped]
      exact undone each (calls ▸ List.mem_append_right _ member) denied

/-- The call that moves the new `b` onto its target. -/
def lastReplacement : Call :=
  .replace (tempPath sampleDirectory ['b'] ['s']) (sampleDirectory.join ['b'])

theorem denied_replacement_restores :
    let world := sampleWorld [⟨.replace, some ['b'], none⟩]
    ((publish sampleFiles sampleDirectory).run world).1 =
        .error (.unwritable (sampleDirectory.join ['b']) ⟨.accessDenied, []⟩) ∧
      ((publish sampleFiles sampleDirectory).run world).2.tree.entryAt = world.tree.entryAt := by
  intro world
  have only : ∀ step ∈ (publish sampleFiles sampleDirectory).calls world,
      step.1.denial step.2 ≠ none → step.2 = lastReplacement := by decide
  have made : ∃ step ∈ (publish sampleFiles sampleDirectory).calls world,
      step.2 = lastReplacement ∧ step.1.denial step.2 = some ⟨.accessDenied, []⟩ := by decide
  have serves : Serves sampleDirectory world.stamps lastReplacement (sampleDirectory.join ['b']) :=
    .replace (by decide) 0 _
  obtain ⟨step, called, same, denied⟩ := made
  exact publish_restores sample_sound rfl sample_fresh
    (fun each member wasDenied => ⟨_, only each member wasDenied ▸ serves⟩) called (same ▸ serves)
    (congrArg Prod.fst (World.answer_of_denial denied))

end TreeGrammar.Publish
