/-
# TreeGrammar.Proofs.Publish.TakingBack -- what taking back achieves

Restoring gives each target moved what its backup holds, or nothing if it had none,
unless a call is denied (`restoreAll_over`).  Removing temporary files and backups
takes away those whose removal is granted and no others, and all of them if no call
is denied (`discardAll_view`).
-/
import TreeGrammar.Proofs.Publish.Passes
import TreeGrammar.Proofs.Publish.Preparing

set_option autoImplicit false

namespace TreeGrammar.Publish

open TreeGrammar.Tree (child)

/-! ## Which calls are made -/

/-- The call that restores the target of a staged file. -/
def Staged.restoration (entry : Staged) : Call :=
  match entry.backup with
  | some backup => .replace backup entry.target
  | none => .removeFile entry.target

section Restoration

variable {entry : Staged}

theorem Staged.restoration_of_backup {backup : Path} (saved : entry.backup = some backup) :
    entry.restoration = .replace backup entry.target := by
  simp [restoration, saved]

theorem Staged.restoration_of_none (unsaved : entry.backup = none) :
    entry.restoration = .removeFile entry.target := by
  simp [restoration, unsaved]

end Restoration

theorem restoreOne_asks (entry : Staged) :
    (restoreOne entry).Asks fun asked => asked = entry.restoration := by
  unfold restoreOne Staged.restoration
  cases entry.backup with
  | some backup => exact ⟨rfl, fun answer => by cases answer <;> trivial⟩
  | none => exact ⟨rfl, fun answer => by cases answer <;> trivial⟩

theorem run_reportRefusal (target : Path) (answer : Except Refusal Unit) (world : World) :
    ((reportRefusal target answer).run world).2 = world := by
  cases answer <;> rfl

/-- Restoring does what its one call does. -/
theorem run_restoreOne (entry : Staged) (world : World) :
    ((restoreOne entry).run world).2 = (world.answer entry.restoration).2 := by
  unfold restoreOne Staged.restoration
  cases entry.backup <;> simp only [Script.run, run_reportRefusal]

theorem restoreAll_asks (entries : List Staged) :
    (restoreAll entries).Asks fun asked => ∃ entry ∈ entries, asked = entry.restoration := by
  induction entries with
  | nil => trivial
  | cons entry rest ih =>
      refine Script.asks_bind ((restoreOne_asks entry).mono ?_) fun _ => ih.mono ?_
      · exact fun asked same => ⟨entry, List.mem_cons_self, same⟩
      · rintro asked ⟨other, member, same⟩
        exact ⟨other, List.mem_cons_of_mem entry member, same⟩

theorem discardAll_asks (paths : List Path) :
    (discardAll paths).Asks fun asked => ∃ path ∈ paths, asked = .removeFile path := by
  induction paths with
  | nil => trivial
  | cons path rest ih =>
      have later : (discardAll rest).Asks fun asked => ∃ each ∈ path :: rest,
          asked = .removeFile each := by
        refine ih.mono ?_
        rintro asked ⟨other, member, same⟩
        exact ⟨other, List.mem_cons_of_mem path member, same⟩
      refine ⟨⟨path, List.mem_cons_self, rfl⟩, fun removed => ?_⟩
      cases removed with
      | ok _ => exact later
      | error cause =>
          by_cases missing : cause.reason = .missing
          · simpa only [missing, if_true] using later
          · simp only [missing, if_false]
            trivial

theorem removeDirectories_asks (paths : List Path) :
    (removeDirectories paths).Asks fun asked => ∃ path ∈ paths, asked = .removeDirectory path := by
  induction paths with
  | nil => trivial
  | cons path rest ih =>
      refine ⟨⟨path, List.mem_cons_self, rfl⟩, fun removed => ?_⟩
      cases removed with
      | error cause => trivial
      | ok _ =>
          refine ih.mono ?_
          rintro asked ⟨other, member, same⟩
          exact ⟨other, List.mem_cons_of_mem path member, same⟩

/-- An attempt is followed by restorations, by removals of files and by removals of the directories
that were made. -/
theorem conclude_calls (created : List Path)
    (outcome : List Staged × List Staged × Option Halt) :
    (conclude created outcome).Asks fun asked =>
      (∃ entry ∈ outcome.2.1, asked = entry.restoration) ∨ (∃ path, asked = .removeFile path) ∨
        ∃ path ∈ created, asked = .removeDirectory path := by
  rcases outcome with ⟨staged, moved, _ | ⟨target, cause⟩ | _⟩
  · refine Script.asks_bind ((discardAll_asks _).mono ?_) fun result => by cases result <;> trivial
    rintro asked ⟨path, -, same⟩
    exact .inr (.inl ⟨path, same⟩)
  · refine Script.asks_bind ?_ fun result => by cases result <;> trivial
    refine Script.asks_bind ((restoreAll_asks _).mono ?_) fun _ => ?_
    · rintro asked ⟨entry, member, same⟩
      exact .inl ⟨entry, List.mem_reverse.1 member, same⟩
    · refine Script.asks_bind ((discardAll_asks _).mono ?_) fun result => ?_
      · rintro asked ⟨path, -, same⟩
        exact .inr (.inl ⟨path, same⟩)
      · cases result with
        | error cause => trivial
        | ok _ =>
            refine Script.asks_bind ((removeDirectories_asks _).mono ?_) fun _ => trivial
            exact fun asked removes => .inr (.inr removes)
  · trivial

theorem Staged.restoration_keeps (entry : Staged) (path : Path) :
    entry.restoration ≠ .removeDirectory path := by
  unfold Staged.restoration
  cases entry.backup <;> simp

/-- Behind a refusal all that is done is taken back. -/
theorem conclude_refused (created : List Path) (staged moved : List Staged) (target : Path)
    (cause : Refusal) (world : World) :
    ((conclude created (staged, moved, some (.refused target cause))).run world).2 =
        ((rollBack staged moved created).run world).2 ∧
      ∀ asked, (conclude created (staged, moved, some (.refused target cause))).Grants world asked ↔
        (rollBack staged moved created).Grants world asked :=
  Script.bind_still (fun outcome => by cases outcome <;> exact ⟨_, rfl⟩) world

section TakingBack

variable {base : Tree} {directory : Path} {stamps : Nat → Text} {names : List Text}
variable {here : Location} {world : World} {quiet : Prop}

/-! ## Restoring -/

/-- The target is what the backup was, or nothing if there was none. -/
structure Restored (job : Job) (old new : Standing) : Prop where
  temp : new.temp = old.temp
  backup : new.backup = if job.saved then none else old.backup
  target : new.target = if job.saved then old.backup else none

/-- There is a file at the target, and one that can be given back to it. -/
structure Restorable (directory : Path) (job : Job) (old : Standing) : Prop where
  tempFits : job.tempFits directory = true
  targetFits : job.targetFits directory = true
  target : ∃ content, old.target = some (.file content)
  backup : job.saved = true → ∃ content, old.backup = some (.file content)

/-- The change that a restoration makes, or none if it is denied. -/
abbrev RestoredIf (quiet : Prop) (job : Job) (old new : Standing) : Prop :=
  Restored job old new ∨ (¬ quiet ∧ new = old)

theorem unchanged_one {job : Job} {view : View} (loud : ¬ quiet) :
    Over here [job] (RestoredIf quiet) view view :=
  Over.refl fun _ _ => .inr ⟨loud, rfl⟩

theorem giveBack_over (fresh : Fresh base directory stamps names) {job : Job}
    (isFor : job.For stamps names) (saved : job.saved = true) {tree after : Tree}
    (houses : tree.Houses directory here)
    (moved : tree.rename (savedPath directory job.name job.stamp) (directory.join job.name) =
      .ok after) : Over here [job] (RestoredIf quiet) tree.entryAt after.entryAt := by
  obtain ⟨-, -, content, there, -, changed⟩ :=
    Tree.rename_ok (finds_backup fresh isFor houses) (finds_target fresh isFor houses) moved
  rw [changed]
  refine over_one (.inl ?_) fun location apart => ?_
  · rw [standing_update_target fresh isFor, standing_update_backup fresh isFor]
    exact ⟨rfl, by rw [saved]; rfl, by rw [saved]; exact there.symm⟩
  · rw [update_outside apart (by simp [Job.places]), update_outside apart (by simp [Job.places])]

theorem takeAway_over (fresh : Fresh base directory stamps names) {job : Job}
    (isFor : job.For stamps names) (unsaved : job.saved = false) {tree after : Tree}
    (houses : tree.Houses directory here)
    (removed : tree.removeFile (directory.join job.name) = .ok after) :
    Over here [job] (RestoredIf quiet) tree.entryAt after.entryAt := by
  obtain ⟨-, content, -, changed⟩ := Tree.removeFile_ok (finds_target fresh isFor houses) removed
  rw [changed]
  refine over_one (.inl ?_) fun location apart => update_outside apart (by simp [Job.places])
  rw [standing_update_target fresh isFor]
  exact ⟨rfl, by rw [unsaved]; rfl, by rw [unsaved]; rfl⟩

theorem restoreOne_over (fresh : Fresh base directory stamps names) {job : Job}
    (isFor : job.For stamps names) (houses : world.tree.Houses directory here)
    (calm : quiet → Undenied (restoreOne (job.staged directory)) world)
    (ready : Restorable directory job (job.standing here world.tree.entryAt)) :
    Over here [job] (RestoredIf quiet) world.tree.entryAt
      ((restoreOne (job.staged directory)).run world).2.tree.entryAt := by
  obtain ⟨content, target⟩ := ready.target
  have findsTarget := finds_target fresh isFor houses
  rw [ready.targetFits] at findsTarget
  cases saved : job.saved with
  | true =>
      have script : restoreOne (job.staged directory) =
          .call (.replace (savedPath directory job.name job.stamp) (directory.join job.name))
            (reportRefusal (directory.join job.name)) := by
        simp [restoreOne, Job.staged, saved]
      rw [script] at calm ⊢
      rcases world.answer_cases (.replace (savedPath directory job.name job.stamp)
        (directory.join job.name)) with ⟨cause, refused⟩ | ⟨_, after, granted, made, -⟩
      · rw [Script.run_call refused]
        refine unchanged_one fun isQuiet => ?_
        obtain ⟨kept, stands⟩ := ready.backup saved
        have findsBackup := finds_backup fresh isFor houses
        rw [ready.tempFits] at findsBackup
        have possible := Tree.rename_of_file findsBackup findsTarget stands
          (by rw [show world.tree.entryAt _ = _ from target]; simp)
        have granted := World.answer_of_attempt (calm isQuiet _ List.mem_cons_self)
          (show world.attempt _ = .ok ((), _) by rw [World.attempt, possible]; rfl)
        exact absurd (refused.symm.trans granted) (by simp)
      · rw [Script.run_call granted]
        exact giveBack_over fresh isFor saved houses (World.attempt_replace made)
  | false =>
      have script : restoreOne (job.staged directory) =
          .call (.removeFile (directory.join job.name))
            (reportRefusal (directory.join job.name)) := by
        simp [restoreOne, Job.staged, saved]
      rw [script] at calm ⊢
      rcases world.answer_cases (.removeFile (directory.join job.name)) with
        ⟨cause, refused⟩ | ⟨_, after, granted, made, -⟩
      · rw [Script.run_call refused]
        refine unchanged_one fun isQuiet => ?_
        have possible := Tree.removeFile_of_file findsTarget target
        have granted := World.answer_of_attempt (calm isQuiet _ List.mem_cons_self)
          (show world.attempt _ = .ok ((), _) by rw [World.attempt, possible]; rfl)
        exact absurd (refused.symm.trans granted) (by simp)
      · rw [Script.run_call granted]
        exact takeAway_over fresh isFor saved houses (World.attempt_removeFile made)

/-- **Restoring.**  Each target moved is restored, unless a call is denied; nothing else
changes. -/
theorem restoreAll_over (fresh : Fresh base directory stamps names)
    (houses : world.tree.Houses directory here) {jobs : List Job}
    (allFor : ∀ job ∈ jobs, job.For stamps names) (distinct : (jobs.map Job.name).Nodup)
    (calm : quiet → Undenied (restoreAll (jobs.map (Job.staged directory))) world)
    (ready : ∀ job ∈ jobs, Restorable directory job (job.standing here world.tree.entryAt)) :
    Over here jobs (RestoredIf quiet) world.tree.entryAt
      ((restoreAll (jobs.map (Job.staged directory))).run world).2.tree.entryAt := by
  induction jobs generalizing world with
  | nil => exact Over.refl (by simp)
  | cons job rest ih =>
      rw [List.map_cons, restoreAll, Script.run_bind]
      have calmParts : quiet → Undenied (restoreOne (job.staged directory)) world ∧
          Undenied (restoreAll (rest.map (Job.staged directory)))
            ((restoreOne (job.staged directory)).run world).2 := by
        intro isQuiet
        have undenied := calm isQuiet
        simp only [Undenied, List.map_cons, restoreAll, Script.calls_bind, List.forall_mem_append]
          at undenied
        exact undenied
      have keeps := Script.run_keeps ((restoreOne_asks (job.staged directory)).mono
        (by rintro asked rfl; exact (job.staged directory).restoration_keeps)) world
      have first := restoreOne_over fresh (allFor job List.mem_cons_self) houses
        (fun isQuiet => (calmParts isQuiet).1) (ready job List.mem_cons_self)
      refine Over.cons fresh allFor distinct first (ih (houses.keeps keeps)
        (fun each member => allFor each (List.mem_cons_of_mem _ member))
        (List.nodup_cons.1 distinct).2 (fun isQuiet => (calmParts isQuiet).2) ?_)
      intro each member
      have untouched : each.standing here
          ((restoreOne (job.staged directory)).run world).2.tree.entryAt =
            each.standing here world.tree.entryAt := by
        refine first.untouched fresh (allFor each (List.mem_cons_of_mem _ member)) ?_ ?_
        · simpa using allFor job List.mem_cons_self
        · simpa using (Over.different_of_nodup distinct each member).symm
      rw [untouched]
      exact ready each (List.mem_cons_of_mem _ member)

/-! ## Removing -/

/-- Files are removed by their names if that is granted, and no others are. -/
structure Discards (here : Location) (listed : List Text) (granted : Text → Prop) (quiet : Prop)
    (view after : View) : Prop where
  inside : ∀ name ∈ listed,
    (granted name ∧ view (child here name) ≠ none ∧ after (child here name) = none) ∨
      (¬ granted name ∧ after (child here name) = view (child here name))
  outside : ∀ location, (∀ name ∈ listed, location ≠ child here name) →
    after location = view location
  gone : quiet → ∀ name ∈ listed, after (child here name) = none

theorem Discards.congr {listed : List Text} {granted other : Text → Prop} {view after : View}
    (discards : Discards here listed granted quiet view after)
    (same : ∀ name ∈ listed, granted name ↔ other name) :
    Discards here listed other quiet view after :=
  ⟨fun name member => by
    rw [← same name member]
    exact discards.inside name member, discards.outside, discards.gone⟩

/-- One name and then the others. -/
theorem Discards.cons {name : Text} {rest : List Text} {granted : Text → Prop}
    {view between after : View}
    (elsewhere : ∀ other ∈ rest, child here other ≠ child here name)
    (first : (granted name ∧ view (child here name) ≠ none ∧ between (child here name) = none) ∨
      (¬ granted name ∧ between (child here name) = view (child here name)))
    (others : ∀ location, location ≠ child here name → between location = view location)
    (gone : quiet → between (child here name) = none)
    (discards : Discards here rest granted quiet between after) :
    Discards here (name :: rest) granted quiet view after := by
  have kept : after (child here name) = between (child here name) :=
    discards.outside _ fun other member => (elsewhere other member).symm
  refine ⟨List.forall_mem_cons.2 ⟨by rwa [kept], fun other member => ?_⟩, fun location apart => ?_,
    fun isQuiet => List.forall_mem_cons.2 ⟨kept.trans (gone isQuiet), discards.gone isQuiet⟩⟩
  · rw [← others _ (elsewhere other member)]
    exact discards.inside other member
  · obtain ⟨apartFirst, apartRest⟩ := List.forall_mem_cons.1 apart
    exact (discards.outside location apartRest).trans (others location apartFirst)

/-- The removal of the files of a directory, by their names. -/
def discarding (folder : Path) (listed : List Text) : Script (Except Refusal Unit) :=
  discardAll (listed.map folder.join)

theorem not_grants_discarding {folder : Path} {listed : List Text} {name : Text}
    (single : Path.IsComponent name) (allSingle : ∀ each ∈ listed, Path.IsComponent each)
    (absent : name ∉ listed) :
    ¬ (discarding folder listed).Grants world (.removeFile (folder.join name)) := by
  intro granted
  obtain ⟨path, member, same⟩ := (discardAll_asks _).of_grants granted
  obtain ⟨other, otherMember, rfl⟩ := List.mem_map.1 member
  have equal := Path.join_injective single (allSingle other otherMember) (Call.removeFile.inj same)
  exact absent (equal ▸ otherMember)

/-- **Removing.**  Unless a call is denied, all the files go, and nothing stops it. -/
theorem discarding_view {folder : Path} (houses : world.tree.Houses folder here)
    {listed : List Text} (single : ∀ name ∈ listed, Path.IsComponent name)
    (fits : ∀ name ∈ listed, folder.fits name = true) (distinct : listed.Nodup)
    (files : ∀ name ∈ listed, world.tree.entryAt (child here name) ≠ some .directory)
    (calm : quiet → Undenied (discarding folder listed) world) :
    let outcome := (discarding folder listed).run world
    Discards here listed
      (fun name => (discarding folder listed).Grants world (.removeFile (folder.join name))) quiet
      world.tree.entryAt outcome.2.tree.entryAt ∧ (quiet → outcome.1 = .ok ()) := by
  induction listed generalizing world with
  | nil => exact ⟨⟨(by simp), fun _ _ => rfl, fun _ => (by simp)⟩, fun _ => rfl⟩
  | cons name rest ih =>
      obtain ⟨nameSingle, restSingle⟩ := List.forall_mem_cons.1 single
      obtain ⟨nameFits, restFits⟩ := List.forall_mem_cons.1 fits
      obtain ⟨nameFile, restFiles⟩ := List.forall_mem_cons.1 files
      obtain ⟨absent, restDistinct⟩ := List.nodup_cons.1 distinct
      have finds := houses.finds nameSingle
      rw [nameFits] at finds
      have elsewhere : ∀ other ∈ rest, child here other ≠ child here name :=
        fun other member same => absent (Tree.child_injective same ▸ member)
      intro outcome
      rcases world.answer_cases (.removeFile (folder.join name)) with
        ⟨cause, refused⟩ | ⟨_, after, granted, made, -⟩
      · have missing : quiet → world.tree.entryAt (child here name) = none ∧
            cause.reason = .missing := by
          intro isQuiet
          have free := calm isQuiet (world, .removeFile (folder.join name)) List.mem_cons_self
          rcases stands : world.tree.entryAt (child here name) with _ | _ | content
          · have answered := World.answer_of_refusal free
              (show world.attempt _ = .error .missing by
                rw [World.attempt, Tree.removeFile_of_free finds stands]; rfl)
            have same := congrArg Prod.fst (refused.symm.trans answered)
            rw [Except.error.inj same]
            exact ⟨rfl, rfl⟩
          · exact absurd stands nameFile
          · have answered := World.answer_of_attempt free
              (show world.attempt _ = .ok ((), _) by
                rw [World.attempt, Tree.removeFile_of_file finds stands]; rfl)
            exact absurd (refused.symm.trans answered) (by simp)
        simp only [outcome, discarding, List.map_cons, discardAll, Script.run_call refused,
          Script.grants_of_refused refused]
        by_cases goesOn : cause.reason = .missing
        · simp only [goesOn, if_true]
          obtain ⟨discards, result⟩ := @ih world.tick houses restSingle restFits
            restDistinct restFiles (fun isQuiet step member => calm isQuiet step (by
              rw [discarding, List.map_cons, discardAll, Script.calls_call refused]
              simp only [goesOn, if_true]
              exact List.mem_cons_of_mem _ member))
          exact ⟨Discards.cons elsewhere
            (.inr ⟨not_grants_discarding nameSingle restSingle absent, rfl⟩) (fun _ _ => rfl)
            (fun isQuiet => (missing isQuiet).1) discards, result⟩
        · simp only [goesOn, if_false, Script.run, World.tick_tree]
          have loud : ¬ quiet := fun isQuiet => goesOn (missing isQuiet).2
          exact ⟨⟨fun _ _ => .inr ⟨Script.not_grants_done, rfl⟩, fun _ _ => rfl,
            fun isQuiet => absurd isQuiet loud⟩, fun isQuiet => absurd isQuiet loud⟩
      · have removed := World.attempt_removeFile made
        obtain ⟨-, content, there, changed⟩ := Tree.removeFile_ok finds removed
        have unchanged : ∀ location, location ≠ child here name →
            after.entryAt location = world.tree.entryAt location := by
          intro location other
          rw [changed, Function.update_of_ne other]
        have gone : after.entryAt (child here name) = none := by
          rw [changed, Function.update_self]
        obtain ⟨discards, result⟩ := @ih (world.changed after)
          (houses.keeps (Tree.removeFile_preserves removed).keeps) restSingle restFits restDistinct
          (fun other member => by
            rw [World.changed_tree, unchanged _ (elsewhere other member)]
            exact restFiles other member)
          (fun isQuiet step member => calm isQuiet step (by
            rw [discarding, List.map_cons, discardAll, Script.calls_call granted]
            exact List.mem_cons_of_mem _ member))
        simp only [outcome, discarding, List.map_cons, discardAll, Script.run_call granted,
          Script.grants_of_granted granted]
        refine ⟨Discards.cons elsewhere (.inl ⟨.inl rfl, by simp [there], gone⟩) unchanged
          (fun _ => gone) (discards.congr fun other member => ?_), result⟩
        refine (or_iff_right fun same => elsewhere other member ?_).symm
        rw [Path.join_injective (restSingle other member) nameSingle (Call.removeFile.inj same)]

end TakingBack

end TreeGrammar.Publish
