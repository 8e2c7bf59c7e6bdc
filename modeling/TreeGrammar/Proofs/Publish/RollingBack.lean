/-
# TreeGrammar.Proofs.Publish.RollingBack -- what becomes of a stopped attempt

Taking back restores targets first and removes temporary files and backups then,
whatever the first part achieved.  If no call is denied, each job ends where it began;
in any case a target that was not replaced is as it was, and of one that was replaced
it is known what its removal left (`rollBack_over`).
-/
import TreeGrammar.Proofs.Publish.Attempt
import TreeGrammar.Proofs.Publish.TakingBack

set_option autoImplicit false

namespace TreeGrammar.Publish

open TreeGrammar.Tree (child)

/-! ## What is to be removed -/

/-- The backup of a job, if there is one. -/
def Job.backups (job : Job) : List Text :=
  if job.saved then [job.backup] else []

/-- The temporary file of a job and its backup. -/
def Job.remains (job : Job) : List Text :=
  job.temp :: job.backups

section Remains

variable {base : Tree} {directory : Path} {stamps : Nat → Text} {names : List Text}
variable {here : Location} {job : Job} {jobs : List Job} {list : Job → List Text}

theorem backups_sublist (job : Job) : job.backups.Sublist [job.temp, job.backup] := by
  unfold Job.backups
  split
  · exact List.sublist_cons_self _ _
  · exact List.nil_sublist _

theorem remains_sublist (job : Job) : job.remains.Sublist [job.temp, job.backup] := by
  unfold Job.remains Job.backups
  split
  · exact List.Sublist.refl _
  · exact List.singleton_sublist.2 List.mem_cons_self

theorem litter_staged (jobs : List Job) : litter (jobs.map (Job.staged directory)) =
    (jobs.flatMap Job.remains).map directory.collapsed.join := by
  rw [litter, List.flatMap_map, List.map_flatMap]
  refine List.flatMap_congr fun job _ => ?_
  cases saved : job.saved <;>
    simp [Job.staged, Job.remains, Job.backups, saved, tempPath, savedPath, Job.temp, Job.backup]

theorem backups_staged (jobs : List Job) : (jobs.map (Job.staged directory)).filterMap
    Staged.backup = (jobs.flatMap Job.backups).map directory.collapsed.join := by
  induction jobs with
  | nil => rfl
  | cons job rest ih =>
      cases saved : job.saved <;>
        simp [Job.staged, Job.backups, saved, savedPath, Job.backup, ih]

theorem mem_listed (within : ∀ job : Job, (list job).Sublist [job.temp, job.backup])
    {name : Text} (member : name ∈ jobs.flatMap list) :
    ∃ job ∈ jobs, name = job.temp ∨ name = job.backup := by
  obtain ⟨job, jobMember, listed⟩ := List.mem_flatMap.1 member
  exact ⟨job, jobMember, by simpa using (within job).subset listed⟩

theorem listed_single (fresh : Fresh base directory stamps names)
    (allFor : ∀ job ∈ jobs, job.For stamps names)
    (within : ∀ job : Job, (list job).Sublist [job.temp, job.backup]) :
    ∀ name ∈ jobs.flatMap list, Path.IsComponent name := by
  intro name member
  obtain ⟨job, jobMember, rfl | rfl⟩ := mem_listed within member
  all_goals obtain ⟨single, -, plain⟩ := single_of_for fresh (allFor job jobMember)
  · exact isComponent_tempName single plain
  · exact isComponent_backupName single plain

theorem listed_fits (fresh : Fresh base directory stamps names)
    (allFor : ∀ job ∈ jobs, job.For stamps names)
    (within : ∀ job : Job, (list job).Sublist [job.temp, job.backup])
    (fits : ∀ job ∈ jobs, job.tempFits directory = true) :
    ∀ name ∈ jobs.flatMap list, directory.collapsed.fits name = true := by
  intro name member
  obtain ⟨job, jobMember, rfl | rfl⟩ := mem_listed within member
  · exact fits job jobMember
  · obtain ⟨single, -, plain⟩ := single_of_for fresh (allFor job jobMember)
    exact (fits_backupName _ single plain).trans (fits job jobMember)

theorem listed_nodup (fresh : Fresh base directory stamps names)
    (allFor : ∀ job ∈ jobs, job.For stamps names) (distinct : (jobs.map Job.name).Nodup)
    (within : ∀ job : Job, (list job).Sublist [job.temp, job.backup]) :
    (jobs.flatMap list).Nodup := by
  induction jobs with
  | nil => exact List.nodup_nil
  | cons job rest ih =>
      obtain ⟨isFor, restFor⟩ := List.forall_mem_cons.1 allFor
      rw [List.flatMap_cons, List.nodup_append']
      refine ⟨(within job).nodup (by simp [temp_ne_backup]),
        ih restFor (List.nodup_cons.1 distinct).2, fun name mine theirs => ?_⟩
      obtain ⟨other, member, theirs⟩ := List.mem_flatMap.1 theirs
      have inPlaces : ∀ each : Job, name ∈ list each → child [] name ∈ each.places [] := by
        intro each listed
        have := (within each).subset listed
        simp only [List.mem_cons, List.not_mem_nil, or_false] at this
        rcases this with rfl | rfl <;> simp [Job.places]
      exact places_disjoint fresh [] isFor (restFor other member)
        (Over.different_of_nodup distinct other member) (inPlaces job mine) (inPlaces other theirs)

theorem name_not_listed (fresh : Fresh base directory stamps names)
    (allFor : ∀ job ∈ jobs, job.For stamps names) (isFor : job.For stamps names)
    (within : ∀ job : Job, (list job).Sublist [job.temp, job.backup]) :
    job.name ∉ jobs.flatMap list := by
  intro member
  obtain ⟨other, otherMember, same | same⟩ := mem_listed within member
  · exact temp_ne_name fresh (allFor other otherMember) isFor same.symm
  · exact backup_ne_name fresh (allFor other otherMember) isFor same.symm

theorem backup_not_listed (fresh : Fresh base directory stamps names)
    (allFor : ∀ job ∈ jobs, job.For stamps names) (distinct : (jobs.map Job.name).Nodup)
    (member : job ∈ jobs) (unsaved : job.saved = false) :
    job.backup ∉ jobs.flatMap Job.remains := by
  intro listed
  obtain ⟨other, otherMember, mine⟩ := List.mem_flatMap.1 listed
  rcases List.mem_cons.1 mine with isTemp | isBackup
  · exact temp_ne_backup isTemp.symm
  · cases saved : other.saved with
    | false => simp [Job.backups, saved] at isBackup
    | true =>
        have same : job.backup = other.backup := by simpa [Job.backups, saved] using isBackup
        have names := (backupName_injective (single_of_for fresh (allFor job member)).2.1
          (single_of_for fresh (allFor other otherMember)).2.1 same).1
        have equal := List.inj_on_of_nodup_map distinct member otherMember names
        rw [equal, saved] at unsaved
        exact absurd unsaved (by simp)

/-- What is left of a job when its temporary file and its backup are to go. -/
structure Cleared (granted : Text → Prop) (quiet : Prop) (job : Job) (old new : Standing) :
    Prop where
  target : new.target = old.target
  temp : quiet → new.temp = none
  saved : job.saved = true →
    (granted job.backup ∧ old.backup ≠ none ∧ new.backup = none) ∨
      (¬ granted job.backup ∧ new.backup = old.backup)
  gone : quiet → job.saved = true → new.backup = none
  unsaved : job.saved = false → new.backup = old.backup

theorem discards_over (fresh : Fresh base directory stamps names)
    (allFor : ∀ job ∈ jobs, job.For stamps names) (distinct : (jobs.map Job.name).Nodup)
    {granted : Text → Prop} {quiet : Prop} {view after : View}
    (discards : Discards here (jobs.flatMap Job.remains) granted quiet view after) :
    Over here jobs (Cleared granted quiet) view after := by
  constructor
  · intro job member
    have listed : ∀ name ∈ job.remains, name ∈ jobs.flatMap Job.remains := fun name mine =>
      List.mem_flatMap.2 ⟨job, member, mine⟩
    have backupListed : job.saved = true → job.backup ∈ job.remains := fun saved => by
      simp [Job.remains, Job.backups, saved]
    refine ⟨?_, ?_, fun saved => ?_, fun isQuiet saved => ?_, fun unsaved => ?_⟩
    · refine discards.outside _ fun name nameListed same => ?_
      exact name_not_listed fresh allFor (allFor job member) remains_sublist
        (Tree.child_injective same ▸ nameListed)
    · exact fun isQuiet => discards.gone isQuiet _ (listed _ List.mem_cons_self)
    · exact discards.inside _ (listed _ (backupListed saved))
    · exact discards.gone isQuiet _ (listed _ (backupListed saved))
    · refine discards.outside _ fun name nameListed same => ?_
      exact backup_not_listed fresh allFor distinct member unsaved
        (Tree.child_injective same ▸ nameListed)
  · intro location apart
    refine discards.outside location fun name nameListed same => ?_
    obtain ⟨job, member, kind⟩ := mem_listed remains_sublist nameListed
    refine apart job member ?_
    rcases kind with rfl | rfl <;> simp [same, Job.places]

end Remains

/-! ## Rolling back -/

section RollBack

variable {base : Tree} {directory : Path} {stamps : Nat → Text} {names : List Text}
variable {here : Location} {world : World} {quiet : Prop}

/-- What becomes of a target that was there when it was replaced: it is back, or its backup
is left unless the removal of the backup is granted. -/
def Settled (granted : Prop) (job : Job) (old new : Standing) : Prop :=
  (new.target = old.target ∧ ¬ granted) ∨
    (new.target = some (.file (Text.encode job.text)) ∧
      ((granted ∧ new.backup = none) ∨ (¬ granted ∧ new.backup = old.target)))

/-- What rolling back leaves of a job, given the jobs that were moved. -/
structure RolledBack (granted : Text → Prop) (quiet : Prop) (moved : List Job) (job : Job)
    (old new : Standing) : Prop where
  undone : quiet → new = old
  kept : job ∉ moved → new.target = old.target
  settled : job ∈ moved → job.saved = true → Settled (granted job.backup) job old new

theorem RolledBack.of_steps {granted : Text → Prop} {moved : List Job} {job : Job}
    {old attempted restored new : Standing} (vacant : old.backup = none)
    (attempts : Attempted directory moved job old attempted)
    (restores : (job ∈ moved ∧ RestoredIf quiet job attempted restored) ∨
      (job ∉ moved ∧ restored = attempted))
    (clears : Cleared granted quiet job restored new) :
    RolledBack granted quiet moved job old new := by
  rcases restores with ⟨isMoved, restores⟩ | ⟨isWaiting, rfl⟩
  · have published := attempts.published isMoved
    refine ⟨fun isQuiet => ?_, fun isWaiting => absurd isMoved isWaiting, fun _ saved => ?_⟩
    · have restored' := restores.resolve_right fun loud => loud.1 isQuiet
      cases saved : job.saved with
      | true =>
          obtain ⟨content, target, backup⟩ := published.saved saved
          refine Standing.ext ((clears.temp isQuiet).trans attempts.free.symm)
            ((clears.gone isQuiet saved).trans vacant.symm) ?_
          rw [clears.target, restored'.target, if_pos saved, backup, target]
      | false =>
          obtain ⟨target, backup⟩ := published.unsaved saved
          have restoredBackup := restored'.backup
          have restoredTarget := restored'.target
          rw [saved] at restoredBackup restoredTarget
          exact Standing.ext ((clears.temp isQuiet).trans attempts.free.symm)
            ((clears.unsaved saved).trans (restoredBackup.trans backup))
            (clears.target.trans (restoredTarget.trans target.symm))
    · obtain ⟨content, target, backup⟩ := published.saved saved
      rcases restores with back | ⟨-, rfl⟩
      · -- the backup has become the target, so there is none to be removed
        have gone := back.backup
        rw [if_pos saved] at gone
        refine .inl ⟨?_, fun granted => ?_⟩
        · rw [clears.target, back.target, if_pos saved, backup, target]
        · rcases clears.saved saved with ⟨-, there, -⟩ | ⟨refused, -⟩
          · exact there gone
          · exact refused granted
      · refine .inr ⟨clears.target.trans published.target, ?_⟩
        rcases clears.saved saved with ⟨granted, -, gone⟩ | ⟨refused, same⟩
        · exact .inl ⟨granted, gone⟩
        · exact .inr ⟨refused, by rw [same, backup, target]⟩
  · have waiting := attempts.waiting isWaiting
    refine ⟨fun isQuiet => ?_, fun _ => clears.target.trans waiting.target,
      fun isMoved => absurd isMoved isWaiting⟩
    refine Standing.ext ((clears.temp isQuiet).trans attempts.free.symm) ?_
      (clears.target.trans waiting.target)
    cases saved : job.saved with
    | true => exact (clears.gone isQuiet saved).trans vacant.symm
    | false => exact (clears.unsaved saved).trans (waiting.unsaved saved)

variable {moved rest : List Job} {view : View}

theorem vacant_backup (fresh : Fresh base directory stamps names)
    (houses : base.Houses directory here) {job : Job} (isFor : job.For stamps names)
    (fits : job.tempFits directory = true) : (job.standing here base.entryAt).backup = none := by
  obtain ⟨time, stamped⟩ := isFor.stamped
  have looked := Tree.look_eq (finds_backup fresh isFor houses)
  rw [fits, if_pos rfl, stamped] at looked
  cases stands : base.entryAt (child here job.backup) with
  | none => exact stands
  | some entry =>
      rw [stands] at looked
      exact absurd looked (fresh.vacant _ isFor.named time entry).2

/-- No directory stands where something is to be removed. -/
theorem remains_files {moved : List Job} {job : Job} {old attempted restored : Standing}
    (vacant : old.backup = none) (attempts : Attempted directory moved job old attempted)
    (restores : (job ∈ moved ∧ RestoredIf quiet job attempted restored) ∨
      (job ∉ moved ∧ restored = attempted)) :
    restored.temp ≠ some .directory ∧
      (job.saved = true → restored.backup ≠ some .directory) := by
  have backup : job.saved = true → attempted.backup ≠ some .directory := by
    intro saved
    by_cases isMoved : job ∈ moved
    · obtain ⟨content, -, there⟩ := (attempts.published isMoved).saved saved
      simp [there]
    · rcases (attempts.waiting isMoved).saved saved with same | ⟨content, there⟩
      · simp [same, vacant]
      · simp [there]
  rcases restores with ⟨isMoved, back | ⟨-, rfl⟩⟩ | ⟨isWaiting, rfl⟩
  · refine ⟨by simp [back.temp, (attempts.published isMoved).temp], fun saved => ?_⟩
    simp [back.backup, saved]
  · exact ⟨by simp [(attempts.published isMoved).temp], backup⟩
  · obtain ⟨content, there⟩ := (attempts.waiting isWaiting).temp
    exact ⟨by simp [there], backup⟩

/-- Removing a temporary file or a backup is no restoration. -/
theorem restoreAll_not_grants (fresh : Fresh base directory stamps names) {jobs : List Job}
    (allFor : ∀ job ∈ jobs, job.For stamps names) {name : Text} (single : Path.IsComponent name)
    (other : ∀ job ∈ jobs, job.name ≠ name) :
    ¬ (restoreAll (jobs.map (Job.staged directory))).Grants world
      (.removeFile (directory.collapsed.join name)) := by
  intro granted
  obtain ⟨entry, member, same⟩ := (restoreAll_asks _).of_grants granted
  obtain ⟨job, jobMember, rfl⟩ := List.mem_map.1 member
  cases saved : job.saved with
  | true => simp [Staged.restoration, Job.staged, saved] at same
  | false =>
      simp only [Staged.restoration, Job.staged, saved, Bool.false_eq_true, if_false,
        Call.removeFile.injEq] at same
      exact other job jobMember (Path.join_injective (single_of_for fresh (allFor job jobMember)).1
        single same.symm)

/-- Without directories to take back, rolling back is restoring and then removing. -/
theorem rollBack_eq (jobs moved : List Job) :
    rollBack (jobs.map (Job.staged directory)) (moved.map (Job.staged directory)) [] =
      (restoreAll (moved.reverse.map (Job.staged directory))).bind fun _ =>
        discarding directory.collapsed (jobs.flatMap Job.remains) := by
  rw [rollBack, litter_staged, List.map_reverse]
  refine congrArg (Script.bind _) (funext fun _ => ?_)
  refine Eq.trans (congrArg (Script.bind _) (funext fun outcome => ?_)) (Script.bind_done _)
  cases outcome <;> rfl

/-- **Rolling back.**  Whatever is denied, each job is left as `RolledBack` says, and nothing
else changes; if nothing is denied, nothing stops it. -/
theorem rollBack_over (fresh : Fresh base directory stamps names)
    (houses : world.tree.Houses directory here)
    (allFor : ∀ job ∈ moved ++ rest, job.For stamps names)
    (distinct : ((moved ++ rest).map Job.name).Nodup)
    (attempts : Over here (moved ++ rest) (Attempted directory moved) view world.tree.entryAt)
    (vacant : ∀ job ∈ moved ++ rest, (job.standing here view).backup = none)
    (calm : quiet → Undenied (rollBack ((moved ++ rest).map (Job.staged directory))
      (moved.map (Job.staged directory)) []) world) :
    let script := rollBack ((moved ++ rest).map (Job.staged directory))
      (moved.map (Job.staged directory)) []
    Over here (moved ++ rest) (RolledBack (fun name =>
        script.Grants world (.removeFile (directory.collapsed.join name))) quiet moved) view
      (script.run world).2.tree.entryAt ∧ (quiet → (script.run world).1 = .ok ()) := by
  intro script
  have script_eq : script = (restoreAll (moved.reverse.map (Job.staged directory))).bind fun _ =>
      discarding directory.collapsed ((moved ++ rest).flatMap Job.remains) := rollBack_eq _ _
  have movedFor : ∀ job ∈ moved.reverse, job.For stamps names := fun job member =>
    allFor job (List.mem_append_left rest (List.mem_reverse.1 member))
  have movedDistinct : (moved.reverse.map Job.name).Nodup := by
    rw [List.map_reverse, List.nodup_reverse]
    exact (List.map_append ▸ distinct).of_append_left
  rw [rollBack_eq] at calm
  -- the targets are restored
  have ready : ∀ job ∈ moved.reverse,
      Restorable directory job (job.standing here world.tree.entryAt) := by
    intro job member
    have isMoved := List.mem_reverse.1 member
    have attempted := attempts.inside job (List.mem_append_left rest isMoved)
    have published := attempted.published isMoved
    refine ⟨attempted.fits, published.fits, ⟨_, published.target⟩, fun saved => ?_⟩
    obtain ⟨content, -, backup⟩ := published.saved saved
    exact ⟨content, backup⟩
  have restored := restoreAll_over fresh houses movedFor movedDistinct
    (fun isQuiet step member => calm isQuiet step (Script.mem_calls_left member)) ready
  have wide := restored.widen fresh allFor
    (fun job member => List.mem_append_left rest (List.mem_reverse.1 member)) distinct
  simp only [List.mem_reverse] at wide
  have keeps := Script.run_keeps ((restoreAll_asks (moved.reverse.map (Job.staged directory))).mono
    (by rintro asked ⟨entry, -, rfl⟩; exact entry.restoration_keeps)) world
  -- and then the temporary files and the backups are removed
  have fits : ∀ job ∈ moved ++ rest, job.tempFits directory = true := fun job member =>
    (attempts.inside job member).fits
  have files : ∀ name ∈ (moved ++ rest).flatMap Job.remains,
      ((restoreAll (moved.reverse.map (Job.staged directory))).run world).2.tree.entryAt
        (child here name) ≠ some .directory := by
    intro name listed
    obtain ⟨job, member, mine⟩ := List.mem_flatMap.1 listed
    obtain ⟨temp, backup⟩ := remains_files (vacant job member) (attempts.inside job member)
      (wide.inside job member)
    cases saved : job.saved with
    | true =>
        have either : name = job.temp ∨ name = job.backup := by
          simpa [Job.remains, Job.backups, saved] using mine
        rcases either with rfl | rfl
        · exact temp
        · exact backup saved
    | false =>
        have same : name = job.temp := by
          simpa [Job.remains, Job.backups, saved] using mine
        exact same ▸ temp
  obtain ⟨discards, result⟩ := discarding_view (houses.collapsed.keeps keeps)
    (listed_single fresh allFor remains_sublist) (listed_fits fresh allFor remains_sublist fits)
    (listed_nodup fresh allFor distinct remains_sublist) files
    (fun isQuiet step member => calm isQuiet step (Script.mem_calls_right member))
  have wholeGrants : ∀ name ∈ (moved ++ rest).flatMap Job.remains,
      (discarding directory.collapsed ((moved ++ rest).flatMap Job.remains)).Grants
        ((restoreAll (moved.reverse.map (Job.staged directory))).run world).2
        (.removeFile (directory.collapsed.join name)) ↔
      script.Grants world (.removeFile (directory.collapsed.join name)) := by
    intro name listed
    rw [script_eq, Script.grants_bind]
    refine (or_iff_right (restoreAll_not_grants fresh movedFor
      (listed_single fresh allFor remains_sublist name listed) fun job member same => ?_)).symm
    exact name_not_listed fresh allFor (movedFor job member) remains_sublist (same ▸ listed)
  have cleared := discards_over fresh allFor distinct (discards.congr wholeGrants)
  rw [script_eq, Script.run_bind, ← script_eq]
  exact ⟨⟨fun job member => RolledBack.of_steps (vacant job member) (attempts.inside job member)
    (wide.inside job member) (cleared.inside job member),
    ((attempts.comp wide).comp cleared).outside⟩, result⟩

/-! ## What is called -/

/-- What is called when an attempt is over. -/
def Concludes (directory : Path) (moved : List Job) (asked : Call) : Prop :=
  (∃ job ∈ moved, asked = (job.staged directory).restoration) ∨ ∃ path, asked = .removeFile path

theorem conclude_asks (jobs moved : List Job) (halt : Option Halt) :
    (conclude [] (jobs.map (Job.staged directory), moved.map (Job.staged directory), halt)).Asks
      (Concludes directory moved) := by
  refine (conclude_calls _ _).mono ?_
  rintro asked (⟨entry, member, rfl⟩ | removes | ⟨path, none, -⟩)
  · obtain ⟨job, isMoved, rfl⟩ := List.mem_map.1 member
    exact .inl ⟨job, isMoved, rfl⟩
  · exact .inr removes
  · exact absurd none List.not_mem_nil

theorem savedPath_ne_tempPath {name other stamp : Text} (single : Path.IsComponent name)
    (otherSingle : Path.IsComponent other) (plain : '/' ∉ stamp) {time : Nat}
    (otherPlain : '/' ∉ stamps time) :
    savedPath directory name stamp ≠ tempPath directory other (stamps time) := fun same =>
  tempName_ne_backupName _ _ _ _ (Path.join_injective (isComponent_backupName single plain)
    (isComponent_tempName otherSingle otherPlain) same).symm

end RollBack

end TreeGrammar.Publish
