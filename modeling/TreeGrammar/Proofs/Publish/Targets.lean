/-
# TreeGrammar.Proofs.Publish.Targets -- what targets show while files are published

At every moment of a run a target shows what it showed before, or the whole new text
(`publish_targets`).  It shows the new text only behind a moment at which every text was
written to its temporary file and every target that the system told about had a second name
(`Ready`).

Two things can come between.  The path of a target may lead to a directory that is made on
the way of the output directory, and a target that the system does not tell about gets no
second name, so it is removed when the run is taken back (`target_made_or_lost`).
-/
import TreeGrammar.Proofs.Publish.Making
import TreeGrammar.Proofs.Publish.Readiness

set_option autoImplicit false

namespace TreeGrammar.Publish

open TreeGrammar.Tree (child)

variable {base : Tree} {directory : Path} {stamps : Nat → Text} {names : List Text}
variable {here : Location} {world : World} {files : List (Text × Text)} {told : Text → Prop}

/-! ## Behind an attempt -/

/-- At a moment behind an attempt a target that was moved may be restored, and directories that
were created may be gone. -/
structure Concluding (names : List Text) (here : Location) (moved : List Job)
    (created : List Path) (tree before after : Tree) : Prop where
  keeps : tree.Keeps before
  thinned : Thinned before after
  whole : created = [] → after = before
  targets : ∀ name ∈ names, before.entryAt (child here name) = tree.entryAt (child here name) ∨
    ∃ job ∈ moved, job.name = name ∧ before.entryAt (child here name) =
      if job.saved then tree.entryAt (child here job.backup) else none

section Concluding

variable {moved rest : List Job} {created : List Path} {tree before after : Tree}

theorem Concluding.still (keeps : tree.Keeps after) (same : Untouched names here tree after) :
    Concluding names here moved created tree after after :=
  ⟨keeps, fun _ => .inl rfl, fun _ => rfl, fun name named => .inl (same name named)⟩

theorem Concluding.untouched {between : Tree}
    (first : Concluding names here moved created tree between between)
    (keeps : between.Keeps after) (same : Untouched names here between after) :
    Concluding names here moved created tree after after := by
  refine ⟨first.keeps.trans keeps, fun _ => .inl rfl, fun _ => rfl, fun name named => ?_⟩
  rw [same name named]
  exact first.targets name named

theorem restoreAll_concluding (fresh : Fresh base directory stamps names)
    (houses : world.tree.Houses directory here) (movedFor : ∀ job ∈ moved, job.For stamps names)
    (distinct : (moved.map Job.name).Nodup)
    (ready : ∀ job ∈ moved, Restorable directory job (job.standing here world.tree.entryAt)) :
    ∀ tree ∈ (restoreAll (moved.map (Job.staged directory)).reverse).moments world,
      Concluding names here moved created world.tree tree tree := by
  rw [← List.map_reverse]
  intro tree member
  have reverseFor : ∀ job ∈ moved.reverse, job.For stamps names := fun job isMoved =>
    movedFor job (List.mem_reverse.1 isMoved)
  have restored := restoreAll_moments fresh houses reverseFor
    (by rwa [List.map_reverse, List.nodup_reverse])
    (fun job isMoved => ready job (List.mem_reverse.1 isMoved)) tree member
  have keeps := Script.moments_keeps ((restoreAll_asks _).mono
    (by rintro asked ⟨entry, -, rfl⟩; exact entry.restoration_keeps)) tree member
  refine ⟨keeps, fun _ => .inl rfl, fun _ => rfl, fun name named => ?_⟩
  by_cases isMoved : ∃ job ∈ moved, job.name = name
  · obtain ⟨job, jobMoved, rfl⟩ := isMoved
    rcases restored.inside job (List.mem_reverse.2 jobMoved) with back | ⟨-, same⟩
    · exact .inr ⟨job, jobMoved, rfl, back.target⟩
    · exact .inl (congrArg Standing.target same)
  · have isFor : (⟨name, [], stamps 0, false⟩ : Job).For stamps names := ⟨named, 0, rfl⟩
    refine .inl (congrArg Standing.target (restored.untouched fresh isFor reverseFor ?_))
    exact fun other otherMoved same => isMoved ⟨other, List.mem_reverse.1 otherMoved, same.symm⟩

theorem rollBack_moments (fresh : Fresh base directory stamps names)
    (houses : world.tree.Houses directory here)
    (allFor : ∀ job ∈ moved ++ rest, job.For stamps names)
    (distinct : ((moved ++ rest).map Job.name).Nodup)
    (ready : ∀ job ∈ moved, Restorable directory job (job.standing here world.tree.entryAt))
    (created : List Path) :
    ∀ tree ∈ (rollBack ((moved ++ rest).map (Job.staged directory))
        (moved.map (Job.staged directory)) created).moments world,
      ∃ before, Concluding names here moved created world.tree before tree := by
  have restored : ∀ tree ∈ (restoreAll (moved.map (Job.staged directory)).reverse).moments world,
      Concluding names here moved created world.tree tree tree :=
    restoreAll_concluding fresh houses
      (fun job isMoved => allFor job (List.mem_append_left rest isMoved))
      ((List.map_append ▸ distinct).of_append_left) ready
  have restoredEnd := restored _ (Script.end_mem_moments _ _)
  intro tree member
  rw [rollBack, litter_staged] at member
  rcases Script.mem_moments_bind member with early | late
  · exact ⟨tree, restored tree early⟩
  · generalize ((restoreAll (moved.map (Job.staged directory)).reverse).run world).2 = between
      at restoredEnd late
    have discarded : ∀ tree ∈ (discarding directory.collapsed
        ((moved ++ rest).flatMap Job.remains)).moments between,
        Concluding names here moved created world.tree tree tree := fun tree member =>
      restoredEnd.untouched (discarding_keeps _ _ _ tree member)
        (listed_untouched fresh (houses.keeps restoredEnd.keeps) allFor remains_sublist tree member)
    have discardedEnd := discarded _ (Script.end_mem_moments _ _)
    rcases Script.mem_moments_bind late with middle | last
    · exact ⟨tree, discarded tree middle⟩
    · change tree ∈ Script.moments _ ((discarding _ _).run between).2 at last
      generalize ((discarding directory.collapsed
        ((moved ++ rest).flatMap Job.remains)).run between).2 = cleared at discardedEnd last
      split at last
      · exact ⟨cleared.tree, (List.mem_singleton.1 last).symm ▸ discardedEnd⟩
      · have removing := Script.mem_moments_of_still (fun _ => ⟨_, rfl⟩) last
        refine ⟨cleared.tree, discardedEnd.keeps, removeDirectories_moments _ _ tree removing, ?_,
          discardedEnd.targets⟩
        rintro rfl
        exact List.mem_singleton.1 removing

/-- **Behind an attempt** targets that were moved are restored, at most, and directories are
removed. -/
theorem conclude_moments (fresh : Fresh base directory stamps names)
    (houses : world.tree.Houses directory here)
    (allFor : ∀ job ∈ moved ++ rest, job.For stamps names)
    (distinct : ((moved ++ rest).map Job.name).Nodup)
    (ready : ∀ job ∈ moved, Restorable directory job (job.standing here world.tree.entryAt))
    (halt : Option Halt) :
    ∀ tree ∈ (conclude created ((moved ++ rest).map (Job.staged directory),
        moved.map (Job.staged directory), halt)).moments world,
      ∃ before, Concluding names here moved created world.tree before tree := by
  have start : Concluding names here moved created world.tree world.tree world.tree :=
    .still (Tree.Keeps.refl _) fun _ _ => rfl
  rcases halt with _ | ⟨target, cause⟩ | _
  · intro tree member
    simp only [conclude, backups_staged] at member
    have discarded : ∀ tree ∈ (discarding directory.collapsed
        ((moved ++ rest).flatMap Job.backups)).moments world,
        Concluding names here moved created world.tree tree tree := fun tree member =>
      start.untouched (discarding_keeps _ _ _ tree member)
        (listed_untouched fresh houses allFor backups_sublist tree member)
    refine ⟨tree, discarded tree (Script.mem_moments_of_still (fun outcome => ?_) member)⟩
    cases outcome <;> exact ⟨_, rfl⟩
  · intro tree member
    refine rollBack_moments fresh houses allFor distinct ready created tree
      (Script.mem_moments_of_still (fun outcome => ?_) member)
    cases outcome <;> exact ⟨_, rfl⟩
  · exact List.forall_mem_singleton.2 ⟨world.tree, start⟩

end Concluding

/-! ## Every moment of an attempt -/

/-- What a moment of an attempt and its conclusion shows of the targets.  Those that the system has
not told about may be gone, once all was ready. -/
structure Glimpse (files : List (Text × Text)) (directory : Path) (stamps : Nat → Text)
    (told : Text → Prop) (here : Location) (created : List Path) (start : Tree)
    (earlier : List Tree) (before tree : Tree) : Prop where
  keeps : start.Keeps before
  thinned : Thinned before tree
  whole : created = [] → tree = before
  targets : ∀ file ∈ files,
    before.entryAt (child here file.1) = start.entryAt (child here file.1) ∨
      (before.entryAt (child here file.1) = some (.file (Text.encode file.2)) ∨
          (¬ told file.1 ∧ before.entryAt (child here file.1) = none)) ∧
        ∃ moment ∈ earlier, Ready files directory stamps told moment

/-- **Every moment of an attempt and its conclusion.**  It is one before the first replacement, one
between replacements or one behind the attempt. -/
theorem attempt_glimpse (fresh : Fresh base directory stamps names)
    (houses : world.tree.Houses directory here) (stamped : world.stamps = stamps)
    (answers : ∀ name, told name → Answers (attempt files directory) world (directory.join name))
    (named : files.map Prod.fst = names) (created : List Path) {earlier later : List Tree}
    {tree : Tree}
    (moment : ((attempt files directory).bind (conclude created)).moments world =
      earlier ++ tree :: later) :
    ∃ before, Glimpse files directory stamps told here created world.tree earlier before tree := by
  have allNamed : ∀ file ∈ files, file.1 ∈ names := fun file member =>
    named ▸ List.mem_map_of_mem member
  have keeps : ∀ tree ∈ (attempt files directory).moments world, world.tree.Keeps tree :=
    Script.moments_keeps (attempt_asks files directory)
  have still : ∀ after, world.tree.Keeps after → Untouched names here world.tree after →
      Glimpse files directory stamps told here created world.tree earlier after after :=
    fun after kept same => ⟨kept, fun _ => .inl rfl, fun _ => rfl,
      fun file member => .inl (same _ (allNamed file member))⟩
  rcases attempt_cases fresh houses stamped answers named with
    ⟨jobs, halt, results, jobsFor, distinct, untouched⟩ |
    ⟨saved, early, ready, prepared, readyEarly, untouched, moments, results⟩
  · -- nothing has been moved
    have member : tree ∈ ((attempt files directory).bind (conclude created)).moments world := by
      rw [moment]
      exact List.mem_append_right _ List.mem_cons_self
    rcases Script.mem_moments_bind member with first | last
    · exact ⟨tree, still tree (keeps tree first) (untouched tree first)⟩
    · have ended := Script.end_mem_moments (attempt files directory) world
      rw [results] at last
      have allFor : ∀ job ∈ [] ++ jobs, job.For stamps names := jobsFor
      obtain ⟨before, concluding⟩ := conclude_moments fresh (houses.keeps (keeps _ ended)) allFor
        distinct (by simp) (some halt) tree last
      refine ⟨before, (keeps _ ended).trans concluding.keeps, concluding.thinned, concluding.whole,
        fun file member => .inl ?_⟩
      rcases concluding.targets _ (allNamed file member) with same | ⟨job, none, -⟩
      · exact same.trans (untouched _ ended _ (allNamed file member))
      · exact absurd none List.not_mem_nil
  · rw [Script.moments_bind, moments, List.append_assoc] at moment
    rcases Script.moment_cases moment with first | ⟨between, behind, before⟩
    · refine ⟨tree, still tree (keeps tree ?_) (untouched tree first)⟩
      rw [moments]
      exact List.mem_append_left _ first
    · have isReady : ∃ moment ∈ earlier, Ready files directory stamps told moment :=
        ⟨ready.tree, before ▸ List.mem_append_left _ readyEarly, prepared.ready fresh houses⟩
      have housesReady := houses.keeps prepared.keeps
      have later := behind ▸ List.mem_append_right between List.mem_cons_self
      rcases List.mem_append.1 later with replacing | last
      · have keepsTree : world.tree.Keeps tree := by
          refine keeps tree ?_
          rw [moments]
          exact List.mem_append_right _ replacing
        obtain ⟨moved, rest, rfl, passed⟩ := replaceAll_moments fresh housesReady prepared.allFor
          prepared.distinct tree (List.mem_cons_of_mem _ replacing)
        exact ⟨tree, keepsTree, fun _ => .inl rfl, fun _ => rfl, fun file member =>
          (prepared.replacing fresh passed file member).imp_right (⟨.inl ·, isReady⟩)⟩
      · obtain ⟨moved, rest, halt, replaced, rfl, -, passed, -⟩ :=
          replaceAll_over fresh housesReady prepared.allFor prepared.distinct
        have keepsEnd := keeps _ (Script.end_mem_moments _ _)
        rw [results, replaced] at last
        rw [results] at keepsEnd
        have restorable := prepared.restorable passed
        obtain ⟨before, concluding⟩ := conclude_moments fresh (houses.keeps keepsEnd)
          prepared.allFor prepared.distinct (fun job isMoved => (restorable job isMoved).1) halt
          tree (List.mem_cons_of_mem _ last)
        refine ⟨before, keepsEnd.trans concluding.keeps, concluding.thinned, concluding.whole,
          fun file member => ?_⟩
        rcases concluding.targets _ (allNamed file member) with same | ⟨job, isMoved, name, back⟩
        · rw [same]
          exact (prepared.replacing fresh passed file member).imp_right (⟨.inl ·, isReady⟩)
        · rw [back, ← name]
          exact (restorable job isMoved).2.imp_right (⟨.inr ·, isReady⟩)

/-! ## Every moment of a run -/

/-- What a moment of a run shows at the place of a target: what was there before, or the new text
behind a moment at which all was ready.  Where no file was and none is, a directory may have been
made or removed on the way of an output directory that was not there.  A target that the system has
not told about may be gone, behind a moment at which all was ready. -/
inductive Sight (files : List (Text × Text)) (directory : Path) (world : World)
    (told : Text → Prop) (earlier : List Tree) (name text : Text) (tree : Tree)
    (place : Location) : Prop
  | kept (same : tree.entryAt place = world.tree.entryAt place)
  | written (whole : tree.entryAt place = some (.file (Text.encode text)))
      (ready : ∃ moment ∈ earlier, Ready files directory world.stamps told moment)
  | passage (unmade : world.tree.look directory ≠ .ok (some .directory))
      (before : ∀ content, world.tree.entryAt place ≠ some (.file content))
      (now : ∀ content, tree.entryAt place ≠ some (.file content))
  | lost (untold : ¬ told name) (gone : tree.entryAt place = none)
      (ready : ∃ moment ∈ earlier, Ready files directory world.stamps told moment)

section Sight

variable {earlier later : List Tree} {tree made : Tree} {name text : Text} {place : Location}

theorem sight_of_grown (sound : world.tree.Sound)
    (grown : Tree.Grown (directory :: directory.ancestors) world.tree made)
    (same : tree.entryAt place = made.entryAt place) :
    Sight files directory world told earlier name text tree place := by
  rcases grown.cases place with kept | ⟨free, directory, -⟩
  · exact .kept (same.trans kept)
  · refine .passage (missing_of_grown sound grown free (by simp [directory])) ?_ ?_
    · simp [free]
    · simp [same, directory]

/-- What is known of a moment behind the making of the directory. -/
theorem Glimpse.sight {created : List Path} {before : Tree} {between : List Tree}
    (sound : world.tree.Sound)
    (grown : Tree.Grown (directory :: directory.ancestors) world.tree made)
    (missing : ∀ path ∈ created, path ∈ directory :: directory.ancestors ∧
      world.tree.look path = .ok none)
    (glimpse : Glimpse files directory world.stamps told here created made between before tree)
    (within : between ⊆ earlier) (member : (name, text) ∈ files) :
    Sight files directory world told earlier name text tree (child here name) := by
  have shown := glimpse.targets _ member
  rcases glimpse.thinned (child here name) with same | ⟨stood, gone⟩
  · rcases shown with kept | ⟨written | ⟨untold, free⟩, moment, moments, ready⟩
    · exact sight_of_grown sound grown (same.trans kept)
    · exact .written (same.trans written) ⟨moment, within moments, ready⟩
    · exact .lost untold (same.trans free) ⟨moment, within moments, ready⟩
  · refine .passage (fun there => ?_) (fun content file => ?_) (by simp [gone])
    · cases created with
      | nil =>
          rw [glimpse.whole rfl, stood] at gone
          exact absurd gone (by simp)
      | cons path rest =>
          obtain ⟨onWay, free⟩ := missing path List.mem_cons_self
          have looked : world.tree.look path = .ok (some .directory) := by
            rcases List.mem_cons.1 onWay with rfl | above
            · exact there
            · exact Tree.look_ancestors there above
          exact absurd (free.symm.trans looked) (by simp)
    · rcases shown with kept | ⟨written | ⟨-, free⟩, -⟩
      · rw [stood, grown.kept _ _ file] at kept
        exact absurd kept (by simp)
      · rw [stood] at written
        exact absurd written (by simp)
      · rw [stood] at free
        exact absurd free (by simp)

/-- **No target is ever partial.**  At every moment of a run, whatever is denied, at the place that
the path of a target leads to, there stands what stood there before or the complete new text; the
new text stands there only behind a moment at which every text was written and whatever stood at a
target that the system told about had a second name.  Two things can come between.  Where no file
was and none is, a directory may have come or gone.  A target that the system has not told about,
because the question whether something is there was refused, may be gone; of such a target `Ready`
promises no second name either. -/
theorem publish_targets (sound : world.tree.Sound)
    (fresh : Fresh ((prepare directory).run world).2.tree directory world.stamps
      (files.map Prod.fst))
    (moment : (publish files directory).moments world = earlier ++ tree :: later)
    (member : (name, text) ∈ files)
    (leads : world.tree.Finds (directory.join name) true place ∨
      tree.Finds (directory.join name) true place) :
    Sight files directory world
      (fun other => Answers (publish files directory) world (directory.join other))
      earlier name text tree place := by
  have inMoments : tree ∈ (publish files directory).moments world := by
    rw [moment]
    exact List.mem_append_right _ List.mem_cons_self
  have treeSound := Script.moments_sound sound tree inMoments
  cases nul : directory.hasNul with
  | true =>
      rw [publish_of_nul nul] at inMoments
      rw [← lookThrough_moments directory world tree inMoments]
      exact .kept rfl
  | false =>
      cases done : ((prepare directory).run world).1 with
      | error failure =>
          rw [(publish_unprepared nul done).2.2] at inMoments
          exact sight_of_grown sound (prepare_grown sound tree inMoments).2 rfl
      | ok created =>
          obtain ⟨-, calls, moments⟩ := publish_prepared files nul done
          rw [moments] at moment
          rcases Script.moment_cases moment with first | ⟨between, behind, before⟩
          · exact sight_of_grown sound (prepare_grown sound tree first).2 rfl
          · have madeEnd := Script.end_mem_moments (prepare directory) world
            have grown := (prepare_grown sound _ madeEnd).2
            obtain ⟨here, houses⟩ := prepare_houses sound done
            have stamped : ((prepare directory).run world).2.stamps = world.stamps :=
              Script.run_stamps _ _
            have split : ((attempt files directory).bind (conclude created)).moments
                ((prepare directory).run world).2 =
                  (((prepare directory).run world).2.tree :: between) ++ tree :: later := by
              rw [Script.moments, behind, List.cons_append]
            have answers : ∀ other,
                Answers (publish files directory) world (directory.join other) →
                Answers (attempt files directory) ((prepare directory).run world).2
                  (directory.join other) := fun other told step called =>
              told step (calls ▸ List.mem_append_right _ (Script.mem_calls_left called))
            obtain ⟨earlierTree, glimpse⟩ :=
              attempt_glimpse fresh houses stamped answers rfl created split
            have found : earlierTree.Finds (directory.join name) true place := by
              rcases leads with early | now
              · exact early.keeps sound (grown.keeps.trans glimpse.keeps)
              · exact now.keeps treeSound glimpse.thinned.keeps
            have single := fresh.single name (List.mem_map_of_mem member)
            rw [found.unique ((houses.keeps glimpse.keeps).finds single)]
            refine glimpse.sight sound grown (fun path isCreated => ?_) ?_ member
            · rw [(prepare_ok sound done).2.1, List.mem_filter] at isCreated
              exact ⟨isCreated.1, of_decide_eq_true isCreated.2⟩
            · rw [before]
              refine List.cons_subset.2 ⟨List.mem_append_left _ madeEnd, ?_⟩
              exact List.subset_append_right _ _

end Sight

/-- Behind the fourteenth call of a run that fails later, the first target has the new text. -/
theorem replaced_target_whole :
    let world := sampleWorld [⟨.replace, some ['b'], none⟩]
    let moments := (publish sampleFiles sampleDirectory).moments world
    ∃ tree, moments[14]? = some tree ∧
      tree.read (sampleDirectory.join ['a']) = .ok [110, 101, 119] ∧
      Sight sampleFiles sampleDirectory world
        (fun name =>
          Answers (publish sampleFiles sampleDirectory) world (sampleDirectory.join name))
        (moments.take 14) ['a'] ['n', 'e', 'w'] tree [['o'], ['a']] := by
  intro world moments
  have long : 14 < moments.length := by decide +kernel
  have found := List.getElem?_eq_getElem long
  have shown : moments[14]?.map (·.read (sampleDirectory.join ['a'])) =
      some (.ok [110, 101, 119]) := by decide +kernel
  have split : moments = moments.take 14 ++ moments[14] :: moments.drop 15 := by
    rw [List.getElem_cons_drop, List.take_append_drop]
  rw [found, Option.map_some, Option.some.injEq] at shown
  exact ⟨moments[14], found, shown,
    publish_targets sample_sound sample_fresh split (by decide) (.inl rfl)⟩

/-! ## What can come between -/

/-- The output directory `x/a/..`, on the way of which `x/a` is made. -/
def crossingDirectory : Path :=
  .relative [['x'], ['a'], Path.back]

theorem crossing_fresh : Fresh ((prepare crossingDirectory).run emptyWorld).2.tree
    crossingDirectory (fun _ => ['s']) [['a']] where
  single := by decide
  distinct := by decide
  plain := fun _ => by decide
  unused := fun name member _ => by revert name; decide
  vacant := by
    intro name member _ entry
    have absent : ∀ path ∈ [tempPath crossingDirectory name ['s'],
        savedPath crossingDirectory name ['s']],
        ((prepare crossingDirectory).run emptyWorld).2.tree.look path = .ok none := by
      rw [List.mem_singleton.1 member]
      decide +kernel
    rw [absent _ (by simp), absent _ (by simp)]
    exact ⟨(by simp), (by simp)⟩

/-- The system does not tell whether `o/a` is there, and `o/b` cannot be replaced. -/
def untoldWorld : World :=
  { sampleWorld [] with
    faults := fun _ asked =>
      if asked = .exists (sampleDirectory.join ['a']) then some ⟨.accessDenied, []⟩
      else Fault.denial [⟨.replace, some ['b'], none⟩] asked }

/-- A target that was nothing becomes a directory, and stays one behind the failed run.  A target
with a file that the system does not tell about gets no second name, and is removed when the run
fails. -/
theorem target_made_or_lost :
    (let files := [(['a'], ['n', 'e', 'w'])]
      let target := crossingDirectory.join ['a']
      let outcome := (publish files crossingDirectory).run emptyWorld
      Fresh ((prepare crossingDirectory).run emptyWorld).2.tree crossingDirectory emptyWorld.stamps
          (files.map Prod.fst) ∧
        emptyWorld.tree.look target = .ok none ∧
        outcome.1 = .error (.unwritable target ⟨.notPermitted,
          [target.text, (savedPath crossingDirectory ['a'] ['s']).text]⟩) ∧
        outcome.2.tree.look target = .ok (some .directory)) ∧
    (let target := sampleDirectory.join ['a']
      let outcome := (publish sampleFiles sampleDirectory).run untoldWorld
      Fresh ((prepare sampleDirectory).run untoldWorld).2.tree sampleDirectory untoldWorld.stamps
          (sampleFiles.map Prod.fst) ∧
        untoldWorld.tree.read target = .ok [111, 108, 100] ∧
        outcome.1 = .error (.unwritable (sampleDirectory.join ['b']) ⟨.accessDenied, []⟩) ∧
        outcome.2.tree.look target = .ok none) :=
  ⟨⟨crossing_fresh, by decide, by decide +kernel, by decide +kernel⟩,
    sample_fresh, by decide, by decide +kernel, by decide +kernel⟩

end TreeGrammar.Publish
