/-
# TreeGrammar.Proofs.Publish.Residue -- what a run leaves that was not there

Where something stands behind a run and nothing stood before, it stands under names of the
files and of the output directory alone (`publish_adds`): every temporary file and every
backup is gone, however the run ends and whichever calls are denied, as long as no removal
of a file is.

A temporary file is moved onto its target or removed.  A backup is given back to its target,
removed when taking back or removed in the end, and one that could not be made is no matter.
What restoring achieves does not count here: it moves files onto targets and takes files
away (`restoreAll_dwindles`), and the removals come behind it in any case.
-/
import TreeGrammar.Proofs.Publish.Making
import TreeGrammar.Proofs.Publish.Readiness

set_option autoImplicit false

namespace TreeGrammar

/-- The system denies no removal of a file. -/
def World.Removes (world : World) : Prop :=
  ∀ time path, world.faults time (.removeFile path) = none

/-- Nothing stands under any of the names. -/
def Tree.Avoids (tree : Tree) (avoided : Text → Prop) : Prop :=
  ∀ location, tree.entryAt location ≠ none → ∀ part ∈ location, ¬ avoided part

/-- A name that a stamp makes for a temporary file or a backup of one of the files. -/
def StagingName (stamps : Nat → Text) (names : List Text) (part : Text) : Prop :=
  ∃ name ∈ names, ∃ time, part = tempName name (stamps time) ∨ part = backupName name (stamps time)

theorem StagingName.mono {stamps : Nat → Text} {names more : List Text} {name : Text}
    (within : names ⊆ more) (staging : StagingName stamps names name) :
    StagingName stamps more name := by
  obtain ⟨stem, member, time, made⟩ := staging
  exact ⟨stem, within member, time, made⟩

/-! ## Names of a location -/

namespace Tree

variable {tree : Tree} {path : Path} {here there location : Location} {name : Text}

theorem subset_of_follow {parts : List Text}
    (found : tree.follow here parts = .ok (tree.placeAt there)) : there ⊆ here ++ parts := by
  induction parts generalizing here with
  | nil =>
      have same : here = there := by
        cases stands : tree.entryAt here <;> cases standsToo : tree.entryAt there <;>
          simp [follow, placeAt, stands, standsToo] at found
        exact found.1
      rw [same, List.append_nil]
      exact List.Subset.refl _
  | cons name rest ih =>
      have onward : ∀ {next : Location}, next ⊆ here ++ [name] → there ⊆ next ++ rest →
          there ⊆ here ++ name :: rest := by
        intro next within reached part member
        have := reached member
        have := @within part
        simp only [List.mem_append, List.mem_cons, List.not_mem_nil, or_false] at *
        tauto
      rw [follow] at found
      split at found
      · exact absurd found (by simp)
      · exact absurd found (by simp)
      · split at found
        · have back := List.Subset.trans (List.dropLast_subset here)
            (List.subset_append_left here [name])
          exact onward back (ih found)
        · split at found
          · exact absurd found (by simp)
          · split at found
            · have same : here ++ [name] = there := by
                cases stands : tree.entryAt there <;> simp [placeAt, stands] at found
                exact found
              refine onward (List.Subset.refl _) ?_
              rw [same]
              exact List.subset_append_left _ _
            · exact onward (List.Subset.refl _) (ih found)

/-- A path leads to a location by names of its own. -/
theorem Finds.subset (finds : tree.Finds path true location) : location ⊆ path.parts := by
  unfold Finds resolve at finds
  split at finds
  · exact absurd finds (by simp)
  · exact subset_of_follow finds

theorem Houses.subset {folder : Path} (houses : tree.Houses folder here) :
    here ⊆ folder.parts := by
  have found : tree.follow [] folder.parts = .ok (tree.placeAt here) := by
    rw [placeAt, houses.leads.entryAt]
    exact houses.leads
  exact subset_of_follow found

theorem child_subset (here : Location) (name : Text) : child here name ⊆ here ++ [name] := by
  unfold child
  split
  · exact List.Subset.trans (List.dropLast_subset here) (List.subset_append_left here [name])
  · exact List.Subset.refl _

theorem avoids_of_entries {avoided : Text → Prop}
    (apart : ∀ entry ∈ tree.entries, ∀ part ∈ entry.1, ¬ avoided part) : tree.Avoids avoided := by
  intro location there part member
  obtain ⟨entry, stands⟩ := Option.ne_none_iff_exists'.1 there
  have below : location ≠ [] := List.ne_nil_of_mem member
  rw [entryAt, if_neg below] at stands
  exact apart _ (Keyed.mem_of_get? stands) part member

/-- Where nothing stands under a name, a path that ends with it leads to nothing. -/
theorem Avoids.look {avoided : Text → Prop} (avoids : tree.Avoids avoided) (sound : tree.Sound)
    (single : Path.IsComponent name) (forth : name ≠ Path.back) (isAvoided : avoided name)
    (entry : Entry) : tree.look (path.join name) ≠ .ok (some entry) := by
  intro looked
  obtain ⟨there, finds, stands⟩ := exists_finds_of_look looked
  obtain ⟨here, -, leads⟩ := leads_of_look (look_of_join single finds)
  have houses : tree.Houses path here := ⟨leads, sound.above (by rw [leads.entryAt]; simp)⟩
  have same := finds.unique (houses.finds single)
  refine avoids there (by rw [stands]; simp) name ?_ isAvoided
  rw [same, child, if_neg forth]
  simp

end Tree

theorem tempName_ne_back (stem stamp : Text) : tempName stem stamp ≠ Path.back := by
  intro same
  have length := congrArg List.length same
  simp [tempName_eq, Path.back] at length
  omega

theorem backupName_ne_back (stem stamp : Text) : backupName stem stamp ≠ Path.back := by
  intro same
  have length := congrArg List.length same
  simp [backupName_eq, Path.back] at length
  omega

namespace Publish

open TreeGrammar.Tree (child)

variable {base : Tree} {directory : Path} {stamps : Nat → Text} {names : List Text}
variable {here location : Location} {world : World} {files : List (Text × Text)}

/-! ## Views that lose things -/

/-- What stood there is there still, or nothing is. -/
def Dwindles (location : Location) (view after : View) : Prop :=
  after location = view location ∨ after location = none

theorem Dwindles.trans {view between after : View} (first : Dwindles location view between)
    (second : Dwindles location between after) : Dwindles location view after := by
  rcases second with same | gone
  · exact first.imp same.trans same.trans
  · exact .inr gone

/-- Restoring puts files at targets only. -/
theorem restoreAll_dwindles (houses : world.tree.Houses directory here) {jobs : List Job}
    (single : ∀ job ∈ jobs, Path.IsComponent job.name)
    (noTarget : ∀ job ∈ jobs, location ≠ child here job.name) :
    Dwindles location world.tree.entryAt
      ((restoreAll (jobs.map (Job.staged directory))).run world).2.tree.entryAt := by
  have both : ∀ tree ∈ (restoreAll (jobs.map (Job.staged directory))).moments world,
      tree.Houses directory here ∧ Dwindles location world.tree.entryAt tree.entryAt := by
    refine (restoreAll_asks _).invariant ⟨houses, .inl rfl⟩ ?_
    rintro between asked result after ⟨entry, member, rfl⟩ ⟨still, dwindles⟩ done
    obtain ⟨job, jobMember, rfl⟩ := List.mem_map.1 member
    have keeps := (between.attempt_preserves _
      ((job.staged directory).restoration_keeps) done).keeps
    refine ⟨still.keeps keeps, dwindles.trans ?_⟩
    have finds := still.finds (single job jobMember)
    have other := noTarget job jobMember
    cases saved : job.saved with
    | true =>
        have backup : (job.staged directory).backup =
            some (savedPath directory job.name job.stamp) := by simp [Job.staged, saved]
        revert result
        rw [Staged.restoration_of_backup backup]
        intro result done
        obtain ⟨origin, there, content, -, findsToo, -, -, -, changed⟩ :=
          Tree.rename_changes (World.attempt_replace done)
        rw [Dwindles, changed, findsToo.unique finds, Function.update_of_ne other]
        by_cases here : location = origin
        · exact .inr (by rw [here, Function.update_self])
        · exact .inl (by rw [Function.update_of_ne here])
    | false =>
        have noBackup : (job.staged directory).backup = none := by simp [Job.staged, saved]
        revert result
        rw [Staged.restoration_of_none noBackup]
        intro result done
        obtain ⟨-, content, -, changed⟩ := Tree.removeFile_ok finds (World.attempt_removeFile done)
        exact .inl (by rw [changed, Function.update_of_ne other])
  exact (both _ (Script.end_mem_moments _ _)).2

theorem Discards.dwindles {listed : List Text} {granted : Text → Prop} {quiet : Prop}
    {view after : View} (discards : Discards here listed granted quiet view after)
    (location : Location) : Dwindles location view after := by
  by_cases mine : ∃ name ∈ listed, location = child here name
  · obtain ⟨name, member, rfl⟩ := mine
    rcases discards.inside name member with ⟨-, -, gone⟩ | ⟨-, same⟩
    · exact .inr gone
    · exact .inl same
  · exact .inl (discards.outside location fun name member same => mine ⟨name, member, same⟩)

theorem removeDirectories_dwindles (paths : List Path) (world : World) (location : Location) :
    Dwindles location world.tree.entryAt
      ((removeDirectories paths).run world).2.tree.entryAt :=
  (removeDirectories_moments paths world _ (Script.end_mem_moments _ _) location).imp_right
    And.right

/-! ## What an attempt leaves -/

/-- What an attempt leaves of a job's temporary file and of its backup, given the jobs that it
moved. -/
structure Leaves (directory : Path) (moved : List Job) (job : Job) (old new : Standing) :
    Prop where
  fits : job.tempFits directory = true
  moved : job ∈ moved → new.temp = none
  temp : new.temp ≠ some .directory
  saved : job.saved = true → old.backup = none → new.backup ≠ some .directory
  unsaved : job.saved = false → new.backup = old.backup

theorem BackedUp.leaves {whole : Bool} {told : Text → Prop} {job : Job} {old new : Standing}
    (backedUp : BackedUp directory whole told job old new) : Leaves directory [] job old new := by
  have attempted := backedUp.waiting
  have waiting := attempted.waiting List.not_mem_nil
  obtain ⟨content, file⟩ := waiting.temp
  refine ⟨attempted.fits, fun isMoved => absurd isMoved List.not_mem_nil, by simp [file],
    fun saved free => ?_, waiting.unsaved⟩
  rcases waiting.saved saved with same | ⟨other, there⟩
  · simp [same, free]
  · simp [there]

theorem Leaves.of_moves {job : Job} {moved : List Job} {old between new : Standing}
    (leaves : Leaves directory [] job old between) (moves : Moves directory job between new) :
    Leaves directory moved job old new := by
  refine ⟨leaves.fits, fun _ => moves.temp, by simp [moves.temp], fun saved free => ?_,
    fun unsaved => moves.backup.trans (leaves.unsaved unsaved)⟩
  rw [moves.backup]
  exact leaves.saved saved free

/-- **An attempt**, whatever is denied and whatever stops it. -/
theorem attempt_leaves (fresh : Fresh base directory stamps names)
    (houses : world.tree.Houses directory here) (stamped : world.stamps = stamps)
    (named : files.map Prod.fst = names) :
    let outcome := (attempt files directory).run world
    ∃ moved rest : List Job, ∃ halt,
      outcome.1 = ((moved ++ rest).map (Job.staged directory), moved.map (Job.staged directory),
        halt) ∧
      (∀ job ∈ moved ++ rest, job.For stamps names) ∧ ((moved ++ rest).map Job.name).Nodup ∧
      (halt = none → rest = []) ∧
      Over here (moved ++ rest) (Leaves directory moved) world.tree.entryAt
        outcome.2.tree.entryAt := by
  have filesDistinct : (files.map Prod.fst).Nodup := named ▸ fresh.distinct
  have untold : ∀ name, (fun _ : Text => False) name →
      Answers (stageAndBackUp directory files) world (directory.join name) :=
    fun _ none => absurd none id
  obtain ⟨jobs, halt, results, allFor, first, -, passed⟩ :=
    stageAndBackUp_over fresh houses stamped untold
      (fun file member => named ▸ List.mem_map_of_mem member) filesDistinct
  have distinct := nodup_names first filesDistinct
  intro outcome
  simp only [outcome, attempt_eq, Script.run_bind, results]
  cases halt with
  | some halt =>
      exact ⟨[], jobs, some halt, rfl, allFor, distinct, (by simp),
        passed.mono fun _ _ _ _ backedUp => backedUp.leaves⟩
  | none =>
      obtain ⟨moved, rest, halt, movedResults, rfl, all, movedOver, -⟩ :=
        replaceAll_over fresh (houses.keeps (stageAndBackUp_keeps directory files world)) allFor
          distinct
      simp only [Script.run_bind, movedResults]
      refine ⟨moved, rest, halt, rfl, allFor, distinct, all, ?_⟩
      have wide := movedOver.widen fresh allFor
        (fun job member => List.mem_append_left rest member) distinct
      refine (passed.comp wide).mono fun job member old new steps => ?_
      obtain ⟨saved, backedUp, ⟨isMoved, moves⟩ | ⟨isWaiting, rfl⟩⟩ := steps
      · exact backedUp.leaves.of_moves moves
      · exact { backedUp.leaves with moved := fun isMoved => absurd isMoved isWaiting }

/-! ## What is removed -/

theorem undenied_discarding (removes : world.Removes) (folder : Path) (listed : List Text) :
    Undenied (discarding folder listed) world := by
  intro step member
  obtain ⟨path, -, asked⟩ := (discardAll_asks _).of_mem member
  rw [World.denial, (Script.calls_world member).1, asked]
  exact removes _ _

/-- **Removing what is left** of the jobs.  Away from the targets nothing has come since the
attempt began. -/
theorem discarding_dwindles (fresh : Fresh base directory stamps names)
    (houses : world.tree.Houses directory here) (removes : world.Removes) {jobs moved : List Job}
    (allFor : ∀ job ∈ jobs, job.For stamps names) (distinct : (jobs.map Job.name).Nodup)
    {view between : View} (vacant : ∀ job ∈ jobs, (job.standing here view).backup = none)
    (leaves : Over here jobs (Leaves directory moved) view between)
    (restored : ∀ location, (∀ name ∈ names, location ≠ child here name) →
      Dwindles location between world.tree.entryAt) {list : Job → List Text}
    (within : ∀ job : Job, (list job).Sublist [job.temp, job.backup])
    (temps : ∀ job ∈ jobs, job ∈ moved ∨ job.temp ∈ list job)
    (backups : ∀ job : Job, job.saved = true → job.backup ∈ list job) :
    let outcome := (discarding directory.collapsed (jobs.flatMap list)).run world
    outcome.1 = .ok () ∧ ∀ location, (∀ name ∈ names, location ≠ child here name) →
      Dwindles location view outcome.2.tree.entryAt := by
  intro outcome
  have tempApart : ∀ job ∈ jobs, ∀ name ∈ names, child here job.temp ≠ child here name := by
    rintro job member name named same
    have isFor : (⟨name, [], stamps 0, false⟩ : Job).For stamps names := ⟨named, 0, rfl⟩
    exact temp_ne_name fresh (allFor job member) isFor (Tree.child_injective same)
  have backupApart : ∀ job ∈ jobs, ∀ name ∈ names, child here job.backup ≠ child here name := by
    rintro job member name named same
    have isFor : (⟨name, [], stamps 0, false⟩ : Job).For stamps names := ⟨named, 0, rfl⟩
    exact backup_ne_name fresh (allFor job member) isFor (Tree.child_injective same)
  have files : ∀ name ∈ jobs.flatMap list,
      world.tree.entryAt (child here name) ≠ some .directory := by
    intro name listed
    obtain ⟨job, member, either⟩ := mem_listed within listed
    have left := leaves.inside job member
    have stays : ∀ place, between place ≠ some .directory →
        Dwindles place between world.tree.entryAt → world.tree.entryAt place ≠ some .directory := by
      rintro place file (same | gone)
      · rwa [same]
      · simp [gone]
    rcases either with rfl | rfl
    · exact stays _ left.temp (restored _ (tempApart job member))
    · refine stays _ ?_ (restored _ (backupApart job member))
      cases saved : job.saved with
      | true => exact left.saved saved (vacant job member)
      | false =>
          have free := (left.unsaved saved).trans (vacant job member)
          rw [show between (child here job.backup) = none from free]
          simp
  have calm : True → Undenied (discarding directory.collapsed (jobs.flatMap list)) world :=
    fun _ => undenied_discarding removes _ _
  obtain ⟨discards, done⟩ := discarding_view houses.collapsed (listed_single fresh allFor within)
    (listed_fits fresh allFor within fun job member => (leaves.inside job member).fits)
    (listed_nodup fresh allFor distinct within) files calm
  have gone : ∀ job ∈ jobs, ∀ name ∈ list job,
      outcome.2.tree.entryAt (child here name) = none := fun job member name listed =>
    discards.gone trivial name (List.mem_flatMap.2 ⟨job, member, listed⟩)
  refine ⟨done trivial, fun location noTarget => ?_⟩
  have behind : Dwindles location between outcome.2.tree.entryAt :=
    (restored location noTarget).trans (discards.dwindles location)
  by_cases mine : ∃ job ∈ jobs, location ∈ job.places here
  · obtain ⟨job, member, place⟩ := mine
    have left := leaves.inside job member
    simp only [Job.places, List.mem_cons, List.not_mem_nil, or_false] at place
    rcases place with rfl | rfl | rfl
    · rcases temps job member with isMoved | listed
      · have free : between (child here job.temp) = none := left.moved isMoved
        exact .inr (behind.elim (fun same => same.trans free) id)
      · exact .inr (gone job member _ listed)
    · cases saved : job.saved with
      | true => exact .inr (gone job member _ (backups job saved))
      | false => exact Dwindles.trans (.inl (left.unsaved saved)) behind
    · exact absurd rfl (noTarget job.name (allFor job member).named)
  · refine Dwindles.trans (.inl (leaves.outside location fun job member place => ?_)) behind
    exact mine ⟨job, member, place⟩

/-! ## Names without NUL characters -/

theorem stageOne_unbroken {name : Text} (plain : (directory.join name).hasNul = false)
    (text : Text) : (stageOne directory name text).Gives fun outcome => outcome.2 ≠ some .nul := by
  simp only [stageOne_text, plain, Bool.false_eq_true, if_false]
  rintro (cause | temp)
  · simp [Script.Gives]
  · rintro (cause | _)
    · simp [Script.Gives]
    · rintro (cause | _) <;> simp [Script.Gives]

theorem stageAll_unbroken (plain : ∀ file ∈ files, (directory.join file.1).hasNul = false) :
    (stageAll directory files).Gives fun outcome => outcome.2 ≠ some .nul := by
  induction files with
  | nil => simp [stageAll, Script.Gives]
  | cons file rest ih =>
      obtain ⟨first, others⟩ := List.forall_mem_cons.1 plain
      refine Script.gives_bind (stageOne_unbroken first file.2) ?_
      rintro ⟨staged, _ | halt⟩ unbroken
      · exact Script.gives_bind (ih others) fun _ later => later
      · exact unbroken

theorem backUpAll_unbroken (entries : List Staged) :
    (backUpAll entries).Gives fun outcome => outcome.2 ≠ some .nul := by
  induction entries with
  | nil => simp [backUpAll, Script.Gives]
  | cons entry rest ih =>
      rintro (cause | _ | _)
      · exact Script.gives_bind ih fun _ later => later
      · exact Script.gives_bind ih fun _ later => later
      · rintro (cause | _)
        · simp [Script.Gives]
        · exact Script.gives_bind ih fun _ later => later

theorem replaceAll_unbroken (entries : List Staged) :
    (replaceAll entries).Gives fun outcome => outcome.2 ≠ some .nul := by
  induction entries with
  | nil => simp [replaceAll, Script.Gives]
  | cons entry rest ih =>
      rintro (cause | _)
      · simp [Script.Gives]
      · exact Script.gives_bind ih fun _ later => later

/-- An attempt is broken off by a NUL character only. -/
theorem attempt_unbroken (plain : ∀ file ∈ files, (directory.join file.1).hasNul = false) :
    (attempt files directory).Gives fun outcome => outcome.2.2 ≠ some .nul := by
  refine Script.gives_bind (stageAll_unbroken plain) ?_
  rintro ⟨staged, _ | halt⟩ unbroken
  · refine Script.gives_bind (backUpAll_unbroken staged) ?_
    rintro ⟨saved, _ | halt⟩ unbroken
    · exact Script.gives_bind (replaceAll_unbroken saved) fun _ later => later
    · exact unbroken
  · exact unbroken

/-! ## An attempt and its conclusion -/

/-- **An attempt and its conclusion.**  Away from the targets nothing has come. -/
theorem conclude_dwindles (fresh : Fresh world.tree directory world.stamps names)
    (houses : world.tree.Houses directory here) (removes : world.Removes)
    (named : files.map Prod.fst = names)
    (plain : ∀ file ∈ files, (directory.join file.1).hasNul = false) (created : List Path) :
    ∀ location, (∀ name ∈ names, location ≠ child here name) →
      Dwindles location world.tree.entryAt
        (((attempt files directory).bind (conclude created)).run world).2.tree.entryAt := by
  obtain ⟨moved, rest, halt, results, allFor, distinct, all, leaves⟩ :=
    attempt_leaves fresh houses rfl named
  have unbroken := (attempt_unbroken plain).run world
  have keeps := Script.run_keeps (attempt_asks files directory) world
  have removesThen : ((attempt files directory).run world).2.Removes := by
    rw [World.Removes, Script.run_faults]
    exact removes
  have vacant : ∀ job ∈ moved ++ rest, (job.standing here world.tree.entryAt).backup = none :=
    fun job member => vacant_backup fresh houses (allFor job member)
      (leaves.inside job member).fits
  rw [Script.run_bind]
  generalize (attempt files directory).run world = outcome at *
  obtain ⟨result, behind⟩ := outcome
  subst results
  have housesThen := houses.keeps keeps
  rcases halt with _ | ⟨target, cause⟩ | _
  · obtain rfl := all rfl
    simp only [List.append_nil] at allFor distinct leaves vacant ⊢
    obtain ⟨done, dwindles⟩ := discarding_dwindles fresh housesThen removesThen allFor distinct
      vacant leaves (fun location _ => .inl rfl) backups_sublist (fun job isMoved => .inl isMoved)
      fun job saved => by simp [Job.backups, saved]
    rw [discarding] at done
    rw [conclude, backups_staged, Script.run_bind, done]
    exact dwindles
  · have restored : ∀ location, (∀ name ∈ names, location ≠ child here name) →
        Dwindles location behind.tree.entryAt
          ((restoreAll (moved.reverse.map (Job.staged directory))).run behind).2.tree.entryAt := by
      intro location noTarget
      have movedFor : ∀ job ∈ moved.reverse, job.For world.stamps names := fun job member =>
        allFor job (List.mem_append_left rest (List.mem_reverse.1 member))
      exact restoreAll_dwindles housesThen
        (fun job member => (single_of_for fresh (movedFor job member)).1)
        fun job member => noTarget _ (movedFor job member).named
    have restoring := Script.run_keeps ((restoreAll_asks (moved.reverse.map
      (Job.staged directory))).mono (by
        rintro asked ⟨entry, -, rfl⟩
        exact entry.restoration_keeps)) behind
    have removesLast : ((restoreAll (moved.reverse.map (Job.staged directory))).run
        behind).2.Removes := by
      rw [World.Removes, Script.run_faults]
      exact removesThen
    obtain ⟨done, dwindles⟩ := discarding_dwindles fresh (housesThen.keeps restoring) removesLast
      allFor distinct vacant leaves restored remains_sublist
      (fun job _ => .inr List.mem_cons_self) fun job saved => by
        simp [Job.remains, Job.backups, saved]
    intro location noTarget
    rw [(conclude_refused created _ _ target cause behind).1, rollBack, litter_staged,
      ← List.map_reverse, Script.run_bind, Script.run_bind]
    rw [discarding] at done
    rw [done, Script.run_bind]
    exact (dwindles location noTarget).trans (removeDirectories_dwindles created _ location)
  · exact absurd rfl unbroken

/-! ## A whole run -/

/-- Single names of a path, distinct and without a NUL character. -/
structure FileNames (names : List Text) : Prop where
  single : ∀ name ∈ names, Path.IsComponent name
  plain : ∀ name ∈ names, '\x00' ∉ name
  distinct : names.Nodup

theorem hasNul_join {name : Text} (single : Path.IsComponent name)
    (noNul : directory.hasNul = false) (plain : '\x00' ∉ name) :
    (directory.join name).hasNul = false := by
  rw [Path.join_of_isComponent directory single, Path.hasNul, List.any_append]
  rw [Path.hasNul] at noNul
  simp [noNul, plain]

/-- No stamp makes a name of one of the files or of a part of the output directory. -/
structure Spare (stamps : Nat → Text) (names parts : List Text) : Prop where
  plain : ∀ time, '.' ∉ stamps time ∧ '/' ∉ stamps time
  apart : ∀ name, StagingName stamps names name → name ∉ names ∧ name ∉ parts

theorem fresh_of_avoids {tree : Tree} (sound : tree.Sound) (fileNames : FileNames names)
    (spare : Spare stamps names directory.parts)
    (avoids : tree.Avoids (StagingName stamps names)) : Fresh tree directory stamps names where
  single := fileNames.single
  distinct := fileNames.distinct
  plain := spare.plain
  unused name named time :=
    ⟨(spare.apart _ ⟨name, named, time, .inl rfl⟩).1,
      (spare.apart _ ⟨name, named, time, .inr rfl⟩).1⟩
  vacant name named time entry :=
    ⟨avoids.look sound (isComponent_tempName (fileNames.single name named) (spare.plain time).2)
        (tempName_ne_back _ _) ⟨name, named, time, .inl rfl⟩ entry,
      avoids.look sound (isComponent_backupName (fileNames.single name named) (spare.plain time).2)
        (backupName_ne_back _ _) ⟨name, named, time, .inr rfl⟩ entry⟩

/-- **What a run adds.**  However it ends, if no removal of a file is denied, it leaves nothing new
but under names of the output directory and of the files. -/
theorem publish_adds (sound : world.tree.Sound) (removes : world.Removes)
    (fileNames : FileNames (files.map Prod.fst))
    (spare : Spare world.stamps (files.map Prod.fst) directory.parts)
    (avoids : world.tree.Avoids (StagingName world.stamps (files.map Prod.fst)))
    (there : ((publish files directory).run world).2.tree.entryAt location ≠ none) :
    world.tree.entryAt location ≠ none ∨
      ∀ part ∈ location, part ∈ directory.parts ∨ part ∈ files.map Prod.fst := by
  cases nul : directory.hasNul with
  | true =>
      rw [publish_of_nul nul, run_of_exists (lookThrough_asks directory)] at there
      exact .inl there
  | false =>
      obtain ⟨madeSound, grown⟩ :=
        prepare_grown sound _ (Script.end_mem_moments (prepare directory) world)
      have made : ∀ place, ((prepare directory).run world).2.tree.entryAt place ≠ none →
          world.tree.entryAt place ≠ none ∨ place ⊆ directory.parts := by
        intro place stands
        rcases grown.cases place with same | ⟨-, -, path, onWay, finds⟩
        · exact .inl (same ▸ stands)
        · exact .inr (List.Subset.trans finds.subset (Path.mem_ancestors_iff.1 onWay).2.subset)
      cases prepared : ((prepare directory).run world).1 with
      | error failure =>
          rw [(publish_unprepared nul prepared).1] at there
          exact (made location there).imp_right fun within part member => .inl (within member)
      | ok created =>
          obtain ⟨here, houses⟩ := prepare_houses sound prepared
          have stamped : ((prepare directory).run world).2.stamps = world.stamps :=
            Script.run_stamps _ _
          have avoidsThen : ((prepare directory).run world).2.tree.Avoids
              (StagingName world.stamps (files.map Prod.fst)) := by
            intro place stands part member staging
            rcases made place stands with stood | within
            · exact avoids place stood part member staging
            · exact (spare.apart part staging).2 (within member)
          have fresh : Fresh _ directory _ _ :=
            fresh_of_avoids madeSound fileNames spare avoidsThen
          have removesThen : ((prepare directory).run world).2.Removes := by
            rw [World.Removes, Script.run_faults]
            exact removes
          rw [(publish_prepared files nul prepared).1] at there
          by_cases isTarget : ∃ name ∈ files.map Prod.fst, location = child here name
          · obtain ⟨name, named, rfl⟩ := isTarget
            refine .inr fun part member => ?_
            rcases List.mem_append.1 (Tree.child_subset here name member) with above | last
            · exact .inl (houses.subset above)
            · exact .inr (List.mem_singleton.1 last ▸ named)
          · have dwindles := conclude_dwindles (stamped ▸ fresh) houses removesThen rfl
              (fun file member => hasNul_join (fileNames.single _ (List.mem_map_of_mem member)) nul
                (fileNames.plain _ (List.mem_map_of_mem member))) created location
              fun name named same => isTarget ⟨name, named, same⟩
            rcases dwindles with same | gone
            · exact (made location (same ▸ there)).imp_right fun within part member =>
                .inl (within member)
            · exact absurd gone there

end Publish

end TreeGrammar
