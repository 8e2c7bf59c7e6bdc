/-
# TreeGrammar.Proofs.Publish.Loss -- when a failed run loses what stood at a target

Replacing a target and removing its backup are two calls, and only both together lose
what stood there.  A failed run may make both: its backup is removed although the
target could not be restored, or because a later removal fails when all is published.
`publish_keeps_iff` says that there is no other way.
-/
import TreeGrammar.Proofs.Publish.RollingBack
import TreeGrammar.Script.Fault

set_option autoImplicit false

namespace TreeGrammar.Publish

open TreeGrammar.Tree (child)

variable {base : Tree} {directory : Path} {stamps : Nat → Text} {names : List Text}
variable {here : Location} {world : World}

/-! ## What becomes of the jobs -/

/-- What becomes of a job in the end, given the jobs that were moved. -/
structure Concluded (granted : Text → Prop) (moved : List Job) (job : Job) (old new : Standing) :
    Prop where
  kept : job ∉ moved → new.target = old.target
  settled : job ∈ moved → old.target ≠ none → Settled (granted job.backup) job old new

/-- An attempt that nothing follows. -/
theorem Attempted.concluded {granted : Text → Prop} {moved : List Job} {job : Job}
    {old new : Standing} (attempts : Attempted directory moved job old new)
    (refused : ¬ granted job.backup) : Concluded granted moved job old new := by
  refine ⟨fun isWaiting => (attempts.waiting isWaiting).target, fun isMoved there => ?_⟩
  have published := attempts.published isMoved
  cases saved : job.saved with
  | false => exact absurd (published.unsaved saved).1 there
  | true =>
      obtain ⟨content, target, backup⟩ := published.saved saved
      exact .inr ⟨published.target, .inr ⟨refused, backup.trans target.symm⟩⟩

variable {moved rest : List Job} {view : View}

theorem RolledBack.concluded {granted : Text → Prop} {job : Job} {old attempted new : Standing}
    (attempts : Attempted directory moved job old attempted)
    (rolledBack : RolledBack granted False moved job old new) :
    Concluded granted moved job old new := by
  refine ⟨rolledBack.kept, fun isMoved there => rolledBack.settled isMoved ?_⟩
  cases saved : job.saved with
  | true => rfl
  | false => exact absurd ((attempts.published isMoved).unsaved saved).1 there

/-- All the jobs were moved, and their backups are to be removed. -/
theorem tidied_over (fresh : Fresh base directory stamps names)
    (houses : world.tree.Houses directory here) (allFor : ∀ job ∈ moved, job.For stamps names)
    (distinct : (moved.map Job.name).Nodup)
    (attempts : Over here moved (Attempted directory moved) view world.tree.entryAt) :
    let script := discarding directory.collapsed (moved.flatMap Job.backups)
    Over here moved (Concluded (fun name =>
        script.Grants world (.removeFile (directory.collapsed.join name))) moved) view
      (script.run world).2.tree.entryAt := by
  intro script
  have published : ∀ job ∈ moved, Published directory job (job.standing here view)
      (job.standing here world.tree.entryAt) := fun job member =>
    (attempts.inside job member).published member
  have listed : ∀ job ∈ moved, job.saved = true → job.backup ∈ moved.flatMap Job.backups := by
    intro job member saved
    exact List.mem_flatMap.2 ⟨job, member, by simp [Job.backups, saved]⟩
  have files : ∀ name ∈ moved.flatMap Job.backups,
      world.tree.entryAt (child here name) ≠ some .directory := by
    intro name member
    obtain ⟨job, isMoved, mine⟩ := List.mem_flatMap.1 member
    cases saved : job.saved with
    | false => simp [Job.backups, saved] at mine
    | true =>
        obtain ⟨content, -, backup⟩ := (published job isMoved).saved saved
        have same : name = job.backup := by simpa [Job.backups, saved] using mine
        rw [same, show world.tree.entryAt _ = _ from backup]
        simp
  have unknown : False → Undenied script world := by simp
  obtain ⟨discards, -⟩ := discarding_view houses.collapsed
    (listed_single fresh allFor backups_sublist)
    (listed_fits fresh allFor backups_sublist fun job member => (attempts.inside job member).fits)
    (listed_nodup fresh allFor distinct backups_sublist) files unknown
  constructor
  · intro job member
    refine ⟨fun isWaiting => absurd member isWaiting, fun _ there => ?_⟩
    have target : (job.standing here (script.run world).2.tree.entryAt).target =
        (job.standing here world.tree.entryAt).target := by
      refine discards.outside _ fun name nameListed same => ?_
      exact name_not_listed fresh allFor (allFor job member) backups_sublist
        (Tree.child_injective same ▸ nameListed)
    cases saved : job.saved with
    | false => exact absurd ((published job member).unsaved saved).1 there
    | true =>
        obtain ⟨content, old, backup⟩ := (published job member).saved saved
        refine .inr ⟨target.trans (published job member).target, ?_⟩
        rcases discards.inside _ (listed job member saved) with
          ⟨granted, -, gone⟩ | ⟨refused, same⟩
        · exact .inl ⟨granted, gone⟩
        · exact .inr ⟨refused, same.trans (backup.trans old.symm)⟩
  · intro location apart
    rw [discards.outside location fun name nameListed same => ?_, attempts.outside location apart]
    obtain ⟨job, member, kind⟩ := mem_listed backups_sublist nameListed
    refine apart job member ?_
    rcases kind with rfl | rfl <;> simp [same, Job.places]

theorem conclude_published (directory : Path) (jobs : List Job) (world : World) :
    ((conclude [] (jobs.map (Job.staged directory), jobs.map (Job.staged directory), none)).run
        world).2 = ((discarding directory.collapsed (jobs.flatMap Job.backups)).run world).2 ∧
      ∀ asked, (conclude [] (jobs.map (Job.staged directory), jobs.map (Job.staged directory),
          none)).Grants world asked ↔
        (discarding directory.collapsed (jobs.flatMap Job.backups)).Grants world asked := by
  simp only [conclude, backups_staged]
  exact Script.bind_still (fun outcome => by cases outcome <;> exact ⟨_, rfl⟩) world

/-- **The end of a run.**  However the attempt ended, each job is left as `Concluded` says, and
nothing else changes. -/
theorem conclude_over (fresh : Fresh base directory stamps names)
    (houses : world.tree.Houses directory here)
    (allFor : ∀ job ∈ moved ++ rest, job.For stamps names)
    (distinct : ((moved ++ rest).map Job.name).Nodup)
    (attempts : Over here (moved ++ rest) (Attempted directory moved) view world.tree.entryAt)
    (vacant : ∀ job ∈ moved ++ rest, (job.standing here view).backup = none) {halt : Option Halt}
    (all : halt = none → rest = []) :
    let script := conclude [] ((moved ++ rest).map (Job.staged directory),
      moved.map (Job.staged directory), halt)
    Over here (moved ++ rest) (Concluded (fun name =>
        script.Grants world (.removeFile (directory.collapsed.join name))) moved) view
      (script.run world).2.tree.entryAt := by
  intro script
  rcases halt with _ | ⟨target, cause⟩ | _
  · obtain rfl := all rfl
    obtain ⟨same, grants⟩ := conclude_published directory moved world
    simp only [script, List.append_nil, same, grants] at allFor distinct attempts ⊢
    exact tidied_over fresh houses allFor distinct attempts
  · obtain ⟨same, grants⟩ := conclude_refused [] ((moved ++ rest).map (Job.staged directory))
      (moved.map (Job.staged directory)) target cause world
    simp only [script, same, grants]
    have unknown : False → Undenied (rollBack ((moved ++ rest).map (Job.staged directory))
        (moved.map (Job.staged directory)) []) world := by simp
    obtain ⟨rolledBack, -⟩ := rollBack_over fresh houses allFor distinct attempts vacant unknown
    exact ⟨fun job member => (rolledBack.inside job member).concluded (attempts.inside job member),
      rolledBack.outside⟩
  · exact attempts.mono fun _ _ _ _ each => each.concluded Script.not_grants_done

/-! ## Targets that were there -/

/-- The run replaces the target and removes its backup. -/
def Loses {α : Type} (script : Script α) (world : World) (directory : Path) (name : Text) : Prop :=
  ∃ time,
    script.Grants world
      (.replace (tempPath directory name (world.stamps time)) (directory.join name)) ∧
    script.Grants world (.removeFile (savedPath directory name (world.stamps time)))

/-- What a run makes of a target: it is as it was, or it is replaced and there is no backup, or
it is replaced and its backup holds what it was. -/
inductive Fate (directory : Path) (stamps : Nat → Text) (here : Location) (name text : Text)
    (before after : Tree) (lost : Prop) : Prop
  | kept (same : after.entryAt (child here name) = before.entryAt (child here name))
      (not : ¬ lost)
  | lost (replaced : after.entryAt (child here name) = some (.file (Text.encode text)))
      (none : ∀ time content,
        after.read (savedPath directory name (stamps time)) ≠ .ok content) (lost : lost)
  | saved (time : Nat) (fits : directory.collapsed.fits (tempName name (stamps time)) = true)
      (backup : after.entryAt (child here (backupName name (stamps time))) =
        before.entryAt (child here name)) (not : ¬ lost)

section Grants

variable {files : List (Text × Text)} {jobs : List Job} {halt : Option Halt} {name : Text}

/-- Only moving the temporary file of a job grants a replacement by one. -/
theorem replacement_granted (fresh : Fresh base directory stamps names)
    (movedFor : ∀ job ∈ moved, job.For stamps names)
    (results : ((attempt files directory).run world).1 =
      (jobs.map (Job.staged directory), moved.map (Job.staged directory), halt))
    (grants : ∀ asked : Call, asked.isLater → ((attempt files directory).Grants world asked ↔
      ∃ job ∈ moved, asked = job.replacement directory)) (named : name ∈ names) (time : Nat) :
    ((attempt files directory).bind (conclude [])).Grants world
        (.replace (tempPath directory name (stamps time)) (directory.join name)) ↔
      ∃ job ∈ moved, job.name = name ∧ job.stamp = stamps time := by
  have single := fresh.single name named
  have plain := fresh.plain time
  have later :
      (Call.replace (tempPath directory name (stamps time)) (directory.join name)).isLater :=
    ⟨by simp [Call.isStaging], by simp [Call.isBackingUp]⟩
  rw [Script.grants_bind, results, grants _ later, or_iff_left]
  · constructor
    · rintro ⟨job, member, same⟩
      obtain ⟨jobSingle, jobPlain, jobSlash⟩ := single_of_for fresh (movedFor job member)
      have temps := Path.join_injective (isComponent_tempName single plain.2)
        (isComponent_tempName jobSingle jobSlash) (Call.replace.inj same).1
      obtain ⟨names, stamps⟩ := tempName_injective plain.1 jobPlain temps
      exact ⟨job, member, names.symm, stamps.symm⟩
    · rintro ⟨job, member, rfl, stamped⟩
      exact ⟨job, member, by rw [Job.replacement, stamped]⟩
  · intro concluding
    rcases (conclude_asks _ _ _).of_grants concluding with ⟨job, member, same⟩ | ⟨path, same⟩
    · obtain ⟨jobSingle, -, jobSlash⟩ := single_of_for fresh (movedFor job member)
      cases saved : job.saved with
      | false => simp [Staged.restoration, Job.staged, saved] at same
      | true =>
          simp only [Staged.restoration, Job.staged, saved, if_true, Call.replace.injEq] at same
          exact savedPath_ne_tempPath jobSingle single jobSlash plain.2 same.1.symm
    · cases same

/-- Only the end of the run grants the removal of a backup. -/
theorem removal_granted
    (results : ((attempt files directory).run world).1 =
      (jobs.map (Job.staged directory), moved.map (Job.staged directory), halt))
    (grants : ∀ asked : Call, asked.isLater → ((attempt files directory).Grants world asked ↔
      ∃ job ∈ moved, asked = job.replacement directory)) (path : Path) :
    ((attempt files directory).bind (conclude [])).Grants world (.removeFile path) ↔
      (conclude [] (jobs.map (Job.staged directory), moved.map (Job.staged directory), halt)).Grants
        ((attempt files directory).run world).2 (.removeFile path) := by
  have later : (Call.removeFile path).isLater :=
    ⟨by simp [Call.isStaging], by simp [Call.isBackingUp]⟩
  rw [Script.grants_bind, results, grants _ later]
  refine or_iff_right ?_
  rintro ⟨job, -, same⟩
  cases same

end Grants

/-- Where a backup is gone, there is none for the same name with another stamp either. -/
theorem no_other_backup {tree after : Tree} (fresh : Fresh tree directory stamps names)
    (houses : tree.Houses directory here) (keeps : tree.Keeps after) {jobs : List Job}
    (allFor : ∀ job ∈ jobs, job.For stamps names) (distinct : (jobs.map Job.name).Nodup)
    (outside : ∀ location, (∀ job ∈ jobs, location ∉ job.places here) →
      after.entryAt location = tree.entryAt location) {job : Job} (member : job ∈ jobs)
    (gone : after.entryAt (child here job.backup) = none) {time : Nat} {content : Text.Octets} :
    after.read (savedPath directory job.name (stamps time)) ≠ .ok content := by
  intro got
  let other : Job := ⟨job.name, job.text, stamps time, false⟩
  have otherFor : other.For stamps names := ⟨(allFor job member).named, time, rfl⟩
  obtain ⟨fits, there⟩ :=
    (Tree.read_eq_ok (finds_backup fresh otherFor (houses.keeps keeps))).1 got
  by_cases same : stamps time = job.stamp
  · have sameBackup : other.backup = job.backup := by simp only [other, Job.backup, same]
    rw [sameBackup, gone] at there
    exact absurd there (by simp)
  · have untouched : after.entryAt (child here other.backup) =
        tree.entryAt (child here other.backup) := by
      refine outside _ fun each eachMember mine => ?_
      by_cases sameName : each.name = job.name
      · have equal := List.inj_on_of_nodup_map distinct eachMember member sameName
        subst equal
        have plain := (single_of_for fresh (allFor each member)).2.1
        simp only [Job.places, List.mem_cons, List.not_mem_nil, or_false] at mine
        rcases mine with isTemp | isBackup | isName
        · exact temp_ne_backup (Tree.child_injective isTemp).symm
        · exact same (backupName_injective (fresh.plain time).1 plain
            (Tree.child_injective isBackup)).2
        · exact backup_ne_name fresh otherFor (allFor each member) (Tree.child_injective isName)
      · exact places_disjoint fresh here otherFor (allFor each eachMember) (Ne.symm sameName)
          (by simp [Job.places]) mine
    rw [untouched] at there
    exact absurd ((vacant_backup fresh houses otherFor fits).symm.trans there) (by simp)

/-- **The fate of a target.**  Starting where the directory is, a run that asks honestly leaves
a target that was there in one of three ways, and it is gone only if the run loses it. -/
theorem attempt_fate (fresh : Fresh world.tree directory world.stamps names)
    (houses : world.tree.Houses directory here) {files : List (Text × Text)}
    (named : files.map Prod.fst = names) (honest : Honest (attempt files directory) world)
    {name text : Text} (member : (name, text) ∈ files) {content : Text.Octets}
    (there : world.tree.entryAt (child here name) = some (.file content)) :
    let script := (attempt files directory).bind (conclude [])
    world.tree.Keeps (script.run world).2.tree ∧
      Fate directory world.stamps here name text world.tree (script.run world).2.tree
        (Loses script world directory name) := by
  have allNamed : ∀ file ∈ files, file.1 ∈ names := fun file member =>
    named ▸ List.mem_map_of_mem member
  obtain ⟨moved, rest, halt, results, allFor, first, all, passed, grants⟩ :=
    attempt_over fresh houses rfl honest allNamed (named ▸ fresh.distinct)
  have movedFor : ∀ job ∈ moved, job.For world.stamps names := fun job member =>
    allFor job (List.mem_append_left rest member)
  have distinct := nodup_names first (named ▸ fresh.distinct)
  have vacant : ∀ job ∈ moved ++ rest, (job.standing here world.tree.entryAt).backup = none :=
    fun job member => vacant_backup fresh houses (allFor job member) (passed.inside job member).fits
  have keeps := Script.run_keeps (attempt_asks files directory) world
  intro script
  have replaced := fun time => replacement_granted fresh movedFor results grants
    (allNamed _ member) time
  have removed := removal_granted results grants
  have concluded : Over here (moved ++ rest) (Concluded (fun other =>
      script.Grants world (.removeFile (directory.collapsed.join other))) moved)
      world.tree.entryAt (script.run world).2.tree.entryAt := by
    simp only [script, removed, Script.run_bind, results]
    exact conclude_over fresh (houses.keeps keeps) allFor distinct passed vacant
      fun whole => (all whole).1
  have finalKeeps : world.tree.Keeps (script.run world).2.tree := by
    simp only [script, Script.run_bind, results]
    refine keeps.trans (Script.run_keeps ((conclude_asks _ _ _).mono ?_) _)
    rintro asked (⟨job, -, rfl⟩ | ⟨path, rfl⟩)
    · exact (job.staged directory).restoration_keeps
    · simp
  refine ⟨finalKeeps, ?_⟩
  by_cases listed : ∃ job ∈ moved ++ rest, job.name = name
  · obtain ⟨job, jobMember, rfl⟩ := listed
    have unique : ∀ other ∈ moved, other.name = job.name → other = job := fun other isMoved same =>
      List.inj_on_of_nodup_map distinct (List.mem_append_left rest isMoved) jobMember same
    by_cases isMoved : job ∈ moved
    · -- a loss is a loss of this job
      have loses : Loses script world directory job.name ↔
          script.Grants world (.removeFile (directory.collapsed.join job.backup)) := by
        constructor
        · rintro ⟨time, replacement, removal⟩
          obtain ⟨other, otherMoved, same, stamped⟩ := (replaced time).1 replacement
          rw [unique other otherMoved same] at stamped
          rwa [savedPath, ← stamped] at removal
        · intro removal
          obtain ⟨time, stamped⟩ := (movedFor job isMoved).stamped
          refine ⟨time, (replaced time).2 ⟨job, isMoved, rfl, stamped⟩, ?_⟩
          rwa [savedPath, ← stamped]
      have sameText : job.text = text := by
        have listedPair : (job.name, job.text) ∈ files :=
          first.subset
            (List.mem_map_of_mem (f := fun each : Job => (each.name, each.text)) jobMember)
        have pairs := List.inj_on_of_nodup_map (named ▸ fresh.distinct) listedPair member rfl
        exact congrArg Prod.snd pairs
      rcases (concluded.inside job jobMember).settled isMoved (by simp [Job.standing, there]) with
        ⟨target, refused⟩ | ⟨target, ⟨granted, gone⟩ | ⟨refused, backup⟩⟩
      · exact .kept target (mt loses.1 refused)
      · refine .lost (sameText ▸ target) (fun time found got => ?_) (loses.2 granted)
        exact no_other_backup fresh houses finalKeeps allFor distinct concluded.outside jobMember
          gone got
      · obtain ⟨time, stamped⟩ := (movedFor job isMoved).stamped
        refine .saved time ?_ ?_ (mt loses.1 refused)
        · rw [← stamped]
          exact (passed.inside job jobMember).fits
        · rw [← stamped]
          exact backup
    · refine .kept ((concluded.inside job jobMember).kept isMoved) ?_
      rintro ⟨time, replacement, -⟩
      obtain ⟨other, otherMoved, same, -⟩ := (replaced time).1 replacement
      exact isMoved (unique other otherMoved same ▸ otherMoved)
  · refine .kept (concluded.outside _ fun job jobMember mine => ?_) ?_
    · have targetFor : (⟨name, text, world.stamps 0, false⟩ : Job).For world.stamps names :=
        ⟨allNamed _ member, 0, rfl⟩
      exact places_disjoint fresh here targetFor (allFor job jobMember)
        (fun same => listed ⟨job, jobMember, same.symm⟩) (by simp [Job.places]) mine
    · rintro ⟨time, replacement, -⟩
      obtain ⟨other, otherMoved, same, -⟩ := (replaced time).1 replacement
      exact listed ⟨other, List.mem_append_left rest otherMoved, same⟩

/-- The old content can be read at the target or at a backup unless the run loses it. -/
theorem Fate.keeps_iff {before after : Tree} {lost : Prop}
    (fresh : Fresh base directory stamps names)
    (houses : after.Houses directory here) {name text : Text} (named : name ∈ names)
    {content : Text.Octets} (fits : directory.fits name = true)
    (there : before.entryAt (child here name) = some (.file content))
    (fate : Fate directory stamps here name text before after lost) :
    (after.read (directory.join name) = .ok content ∨
      ∃ time, after.read (savedPath directory name (stamps time)) = .ok content) ↔
    content = Text.encode text ∨ ¬ lost := by
  have finds : ∀ time, (⟨name, text, stamps time, false⟩ : Job).For stamps names := fun time =>
    ⟨named, time, rfl⟩
  have reads : ∀ found, after.read (directory.join name) = .ok found ↔
      after.entryAt (child here name) = some (.file found) := by
    intro found
    have target := finds_target fresh (finds 0) houses
    exact (Tree.read_eq_ok target).trans (and_iff_right fits)
  rcases fate with ⟨same, not⟩ | ⟨replaced, none, lost⟩ | ⟨time, short, backup, not⟩
  · exact iff_of_true (.inl ((reads content).2 (same.trans there))) (.inr not)
  · constructor
    · rintro (got | ⟨time, got⟩)
      · rw [reads, replaced] at got
        exact .inl (Entry.file.inj (Option.some.inj got)).symm
      · exact absurd got (none time content)
    · rintro (rfl | not)
      · exact .inl ((reads _).2 replaced)
      · exact absurd lost not
  · refine iff_of_true (.inr ⟨time, ?_⟩) (.inr not)
    exact (Tree.read_eq_ok (finds_backup fresh (finds time) houses)).2 ⟨short, backup.trans there⟩

/-- **When old content is lost.**  If only permissions, links, replacements and removals are
denied, what stood at a target can be read afterwards, at the target or at a backup of it, unless
the run both replaces the target and removes its backup. -/
theorem publish_keeps_iff {files : List (Text × Text)} (sound : world.tree.Sound)
    (fresh : Fresh world.tree directory world.stamps (files.map Prod.fst))
    (deniable : ∀ step ∈ (publish files directory).calls world, step.1.denial step.2 ≠ none →
      step.2.deniable? ≠ none)
    {name text : Text} (member : (name, text) ∈ files) {content : Text.Octets}
    (old : world.tree.read (directory.join name) = .ok content) :
    let after := ((publish files directory).run world).2.tree
    (after.read (directory.join name) = .ok content ∨
      ∃ time, after.read (savedPath directory name (world.stamps time)) = .ok content) ↔
    content = Text.encode text ∨ ¬ Loses (publish files directory) world directory name := by
  have named : name ∈ files.map Prod.fst := List.mem_map_of_mem member
  have single := fresh.single name named
  have there : world.tree.look directory = .ok (some .directory) := by
    cases found : world.tree.resolve (directory.join name) with
    | error reason => simp [Tree.read, found, bind, Except.bind] at old
    | ok place => exact Tree.look_of_join single found
  obtain ⟨here, -, leads⟩ := Tree.leads_of_look there
  have houses : world.tree.Houses directory here :=
    ⟨leads, sound.above (by rw [leads.entryAt]; simp)⟩
  obtain ⟨fits, stands⟩ := (Tree.read_eq_ok (houses.finds single)).1 old
  intro after
  cases nul : directory.hasNul with
  | true =>
      have looks : publish files directory = lookThrough directory := by simp [publish, nul]
      have untouched : after = world.tree := by
        simp only [after, looks]
        exact run_of_exists (lookThrough_asks directory) world
      rw [untouched]
      refine iff_of_true (.inl old) (.inr ?_)
      rintro ⟨time, replacement, -⟩
      rw [looks] at replacement
      obtain ⟨path, same⟩ := (lookThrough_asks directory).of_grants replacement
      cases same
  | false =>
      have undeniable : ∀ asked : Call, asked.isPreparing → asked.deniable? = none := by
        intro asked preparing
        cases asked <;> simp [Call.isPreparing, Call.deniable?] at preparing ⊢
      have calm : Undenied (prepare directory) world := by
        intro step early
        by_contra denied
        have inPublish : step ∈ (publish files directory).calls world := by
          simp only [publish, nul, Bool.false_eq_true, if_false]
          exact Script.mem_calls_left early
        exact deniable step inPublish denied (undeniable _ ((prepare_asks directory).of_mem early))
      obtain ⟨same, runs, calls⟩ := publish_there nul there calm
      have honest : Honest (attempt files directory) ((prepare directory).run world).2 := by
        intro step early path asked
        by_contra denied
        refine deniable step ?_ denied (undeniable _ (by rw [asked]; rfl))
        rw [calls]
        exact List.mem_append_right _ (Script.mem_calls_left early)
      have stamped : ((prepare directory).run world).2.stamps = world.stamps :=
        Script.run_stamps _ _
      have loses : Loses (publish files directory) world directory name ↔
          Loses ((attempt files directory).bind (conclude [])) ((prepare directory).run world).2
            directory name := by
        have grants : ∀ asked : Call, asked.isPreparing = false →
            ((publish files directory).Grants world asked ↔
              ((attempt files directory).bind (conclude [])).Grants
                ((prepare directory).run world).2 asked) := by
          intro asked other
          simp only [Script.Grants, calls, List.mem_append, or_and_right, exists_or]
          refine or_iff_right ?_
          rintro ⟨before, early, -⟩
          have preparing := (prepare_asks directory).of_mem early
          exact absurd (other.symm.trans preparing) (by simp)
        simp only [Loses, stamped]
        exact exists_congr fun time => and_congr (grants _ rfl) (grants _ rfl)
      rw [← same, ← stamped] at fresh
      obtain ⟨keeps, fate⟩ := attempt_fate fresh (same ▸ houses) rfl honest member
        (by rw [same]; exact stands)
      rw [loses]
      simp only [after, runs]
      rw [← stamped]
      exact fate.keeps_iff fresh ((same ▸ houses : _).keeps keeps) named fits
        (by rw [same]; exact stands)

/-- The second of two replacements is denied, and so is every restoration. -/
def restorationDenied : World :=
  sampleWorld [⟨.replace, some ['b'], none⟩, ⟨.replace, none, some ['.', 'b', 'a', 'k']⟩]

/-- The run fails, and the old content of the first target is nowhere. -/
theorem denied_restoration_loses_content :
    sampleTree.read (sampleDirectory.join ['a']) = .ok [111, 108, 100] ∧
      ((publish sampleFiles sampleDirectory).run restorationDenied).1 =
        .error (.unwritable (sampleDirectory.join ['b']) ⟨.accessDenied, []⟩) ∧
      ∀ location, ((publish sampleFiles sampleDirectory).run restorationDenied).2.tree.entryAt
        location ≠ some (.file [111, 108, 100]) := by
  refine ⟨rfl, rfl, fun location stands => ?_⟩
  have entries : ∀ entry ∈
      ((publish sampleFiles sampleDirectory).run restorationDenied).2.tree.entries,
      entry.2 ≠ .file [111, 108, 100] := by decide
  exact entries _ (Tree.mem_entries_of_file stands) rfl

/-- The run replaces the first target and removes its backup. -/
theorem denied_restoration_loses :
    Loses (publish sampleFiles sampleDirectory) restorationDenied sampleDirectory ['a'] := by
  have gone : ∀ path ∈ [sampleDirectory.join ['a'], savedPath sampleDirectory ['a'] ['s']],
      ((publish sampleFiles sampleDirectory).run restorationDenied).2.tree.read path ≠
        .ok [111, 108, 100] := by decide
  have old : sampleTree.read (sampleDirectory.join ['a']) = .ok [111, 108, 100] := rfl
  have listed : (['a'], ['n', 'e', 'w']) ∈ sampleFiles := by decide
  have deniable : ∀ step ∈ (publish sampleFiles sampleDirectory).calls restorationDenied,
      step.1.denial step.2 ≠ none → step.2.deniable? ≠ none := by decide
  by_contra kept
  rcases (publish_keeps_iff sample_sound sample_fresh deniable listed old).2 (.inr kept) with
    target | ⟨time, backup⟩
  · exact gone _ (by simp) target
  · exact gone (savedPath sampleDirectory ['a'] ['s']) (by simp) backup

end TreeGrammar.Publish
