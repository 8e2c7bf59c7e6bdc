/-
# TreeGrammar.Proofs.Publish.Undoing -- what stands behind a failure that is taken back

If no restoration is refused, a run that reports a path which could not be written leaves no
file that was not there before, with the content it had (`rollBack_undoes`).  Nothing is
supposed of the names of the files: they may name one target twice, or name a temporary file or
a backup.

Staging and backing up only add files, at places where nothing stood.  Replacing
changes the places of targets, and apart from that only takes files away.  Restoring goes
backwards over the targets that were moved: behind each restoration, every place that is no
target of those that are left has lost its file or has it still (`restoreAll_returns`).

A restoration may take away what a target shows, if the target is named like a backup.  That
target had no backup of its own then, so its own restoration is a removal and finds nothing,
and is refused (`restoreAll_stuck`).
-/
import TreeGrammar.Proofs.Publish.Adding
import TreeGrammar.Proofs.Publish.Residue
import TreeGrammar.Proofs.Publish.Success

set_option autoImplicit false

namespace TreeGrammar.Publish

variable {base tree between after : Tree} {world : World} {path : Path} {place : Location}
variable {paths more : List Path} {content : Text.Octets}

/-! ## Replacing -/

theorem replaceAll_dwindles (alike : Alike base world.tree) (entries : List Staged) :
    let outcome := (replaceAll entries).run world
    Alike base outcome.2.tree ∧ outcome.1.1 <+: entries ∧
      ∀ place, (∀ entry ∈ outcome.1.1, ¬ base.Finds entry.target true place) →
        Dwindles place world.tree.entryAt outcome.2.tree.entryAt := by
  induction entries generalizing world with
  | nil => exact ⟨alike, List.prefix_rfl, fun place _ => .inl rfl⟩
  | cons entry rest ih =>
      intro outcome
      simp only [outcome, replaceAll]
      rcases world.answer_cases (.replace entry.temp entry.target) with
        ⟨cause, refused⟩ | ⟨_, after, granted, made, -⟩
      · rw [Script.run_call refused]
        exact ⟨alike, List.nil_prefix, fun place _ => .inl rfl⟩
      · rw [Script.run_call granted]
        obtain ⟨alikeThen, isPrefix, elsewhere⟩ := @ih (world.changed after)
          (alike.attempt (by simp) (by simp) made)
        simp only [Script.run, Script.run_bind]
        refine ⟨alikeThen, List.cons_prefix_cons.2 ⟨rfl, isPrefix⟩, fun place apart => ?_⟩
        obtain ⟨notHere, others⟩ := List.forall_mem_cons.1 apart
        refine Dwindles.trans ?_ (elsewhere place others)
        obtain ⟨here, there, content, -, findsToo, -, -, -, changed⟩ :=
          Tree.rename_changes (World.attempt_replace made)
        have other : place ≠ there := by
          rintro rfl
          exact notHere (alike.finds_iff.1 findsToo)
        rw [Dwindles, World.changed_tree, changed, Function.update_of_ne other]
        by_cases same : place = here
        · exact .inr (by rw [same, Function.update_self])
        · exact .inl (by rw [Function.update_of_ne same])

/-! ## Restoring -/

/-- No call of the script is refused. -/
def Unrefused {α : Type} (script : Script α) (world : World) : Prop :=
  ∀ step ∈ script.calls world, step.1.Grants step.2

theorem Unrefused.of_bind {α β : Type} {script : Script α} {next : α → Script β}
    (unrefused : Unrefused (script.bind next) world) :
    Unrefused script world ∧
      Unrefused (next (script.run world).1) (script.run world).2 :=
  ⟨fun step member => unrefused step (Script.mem_calls_left member),
    fun step member => unrefused step (Script.mem_calls_right member)⟩

theorem restoreOne_granted {entry : Staged} (unrefused : Unrefused (restoreOne entry) world) :
    ∃ result : entry.restoration.Answer,
      world.attempt entry.restoration = .ok (result, ((restoreOne entry).run world).2.tree) := by
  have granted : world.Grants entry.restoration := by
    unfold restoreOne Staged.restoration at *
    cases saved : entry.backup with
    | some backup =>
        simp only [saved] at unrefused
        exact unrefused _ List.mem_cons_self
    | none =>
        simp only [saved] at unrefused
        exact unrefused _ List.mem_cons_self
  obtain ⟨result, answered⟩ := granted
  rcases world.answer_cases entry.restoration with ⟨cause, refused⟩ | ⟨_, after, same, done, -⟩
  · rw [refused] at answered
    exact absurd answered (by simp)
  · rw [run_restoreOne, same]
    exact ⟨_, done⟩

theorem restoreOne_alike {entry : Staged} (alike : Alike base world.tree)
    (unrefused : Unrefused (restoreOne entry) world) :
    Alike base ((restoreOne entry).run world).2.tree := by
  obtain ⟨result, done⟩ := restoreOne_granted unrefused
  refine alike.attempt (entry.restoration_keeps) (fun path => ?_) done
  unfold Staged.restoration
  cases entry.backup <;> simp

/-- A target that had no backup is removed. -/
theorem restoreOne_removes {entry : Staged} (alike : Alike base world.tree)
    (unrefused : Unrefused (restoreOne entry) world) (unsaved : entry.backup = none) :
    ∃ place content, base.Finds entry.target true place ∧
      world.tree.entryAt place = some (.file content) ∧
      ((restoreOne entry).run world).2.tree.entryAt =
        Function.update world.tree.entryAt place none := by
  obtain ⟨result, done⟩ := restoreOne_granted unrefused
  revert result
  rw [Staged.restoration_of_none unsaved]
  intro result done
  have removed := World.attempt_removeFile done
  obtain ⟨place, finds, -⟩ := Tree.exists_place removed
  obtain ⟨-, content, stands, changed⟩ := Tree.removeFile_ok finds removed
  exact ⟨place, content, alike.finds_iff.1 finds, stands, changed⟩

/-- A target that had a backup gets it back. -/
theorem restoreOne_returns {entry : Staged} (alike : Alike base world.tree)
    (unrefused : Unrefused (restoreOne entry) world) {backup : Path}
    (saved : entry.backup = some backup) :
    ∃ place target content, base.Finds backup true place ∧ base.Finds entry.target true target ∧
      world.tree.entryAt place = some (.file content) ∧
      ((restoreOne entry).run world).2.tree.entryAt =
        Function.update (Function.update world.tree.entryAt place none) target
          (some (.file content)) := by
  obtain ⟨result, done⟩ := restoreOne_granted unrefused
  revert result
  rw [Staged.restoration_of_backup saved]
  intro result done
  obtain ⟨place, target, content, finds, findsToo, stands, -, -, changed⟩ :=
    Tree.rename_changes (World.attempt_replace done)
  exact ⟨place, target, content, alike.finds_iff.1 finds, alike.finds_iff.1 findsToo, stands,
    changed⟩

/-- Where nothing stands at a target that is to be removed, restoring is refused. -/
theorem restoreAll_stuck {entries : List Staged} (alike : Alike base world.tree)
    (unrefused : Unrefused (restoreAll entries) world) (free : world.tree.entryAt place = none)
    (aimed : ∃ entry ∈ entries, base.Finds entry.target true place)
    (unsaved : ∀ entry ∈ entries, base.Finds entry.target true place → entry.backup = none) :
    False := by
  induction entries generalizing world with
  | nil => simp at aimed
  | cons entry rest ih =>
      obtain ⟨first, others⟩ := Unrefused.of_bind unrefused
      obtain ⟨here, later⟩ := List.forall_mem_cons.1 unsaved
      by_cases finds : base.Finds entry.target true place
      · obtain ⟨there, content, findsToo, stands, -⟩ := restoreOne_removes alike first (here finds)
        rw [← finds.unique findsToo, free] at stands
        exact absurd stands (by simp)
      · refine ih (restoreOne_alike alike first) others ?_ ?_ later
        · cases saved : entry.backup with
          | none =>
              obtain ⟨there, content, -, -, changed⟩ := restoreOne_removes alike first saved
              rw [changed, Function.update_apply, free, ite_self]
          | some backup =>
              obtain ⟨origin, there, content, -, findsToo, -, changed⟩ :=
                restoreOne_returns alike first saved
              have other : place ≠ there := by
                rintro rfl
                exact finds findsToo
              rw [changed, Function.update_of_ne other, Function.update_apply, free, ite_self]
        · obtain ⟨other, member, findsOther⟩ := aimed
          rcases List.mem_cons.1 member with rfl | isLater
          · exact absurd findsOther finds
          · exact ⟨other, isLater, findsOther⟩

/-- **Restoring**, the last one first.  What stood at a place before any target was replaced
stands there again, or nothing does. -/
theorem restoreAll_returns {entries : List Staged} (alike : Alike base world.tree)
    (unrefused : Unrefused (restoreAll entries) world)
    (backups : ∀ entry ∈ entries, ∀ backup, entry.backup = some backup →
      BackedAt base between entry backup)
    (ordered : entries.Pairwise fun later earlier => Ordered base earlier later)
    (elsewhere : ∀ place, (∀ entry ∈ entries, ¬ base.Finds entry.target true place) →
      Dwindles place between.entryAt world.tree.entryAt) (place : Location) :
    Dwindles place between.entryAt ((restoreAll entries).run world).2.tree.entryAt := by
  induction entries generalizing world with
  | nil => exact elsewhere place (by simp)
  | cons entry rest ih =>
      obtain ⟨first, others⟩ := Unrefused.of_bind unrefused
      obtain ⟨entryBackup, restBackups⟩ := List.forall_mem_cons.1 backups
      obtain ⟨entryOrdered, restOrdered⟩ := List.pairwise_cons.1 ordered
      have alikeThen := restoreOne_alike alike first
      rw [restoreAll, Script.run_bind]
      refine ih alikeThen others restBackups restOrdered fun location apart => ?_
      -- of the places that are no later targets, only that of this one has to be looked at
      have onward : ∀ target, base.Finds entry.target true target → location ≠ target →
          Dwindles location between.entryAt world.tree.entryAt := fun target finds other =>
        elsewhere location (List.forall_mem_cons.2
          ⟨fun findsToo => other (findsToo.unique finds), apart⟩)
      cases saved : entry.backup with
      | none =>
          obtain ⟨target, content, finds, -, changed⟩ := restoreOne_removes alike first saved
          rw [Dwindles, changed]
          by_cases here : location = target
          · exact .inr (by rw [here, Function.update_self])
          · rw [Function.update_of_ne here]
            exact onward target finds here
      | some backup =>
          obtain ⟨source, target, content, findsBackup, finds, stands, changed⟩ :=
            restoreOne_returns alike first saved
          obtain ⟨sourceToo, targetToo, kept, findsBackupToo, findsToo, different, atBackup,
            atTarget⟩ := entryBackup backup saved
          obtain rfl := findsBackup.unique findsBackupToo
          obtain rfl := finds.unique findsToo
          have unaimed : ∀ other ∈ rest, ¬ base.Finds other.target true source := by
            intro other member aimed
            have emptied : ((restoreOne entry).run world).2.tree.entryAt source = none := by
              rw [changed, Function.update_of_ne different, Function.update_self]
            refine restoreAll_stuck alikeThen others emptied ⟨other, member, aimed⟩
              fun each eachMember eachAimed => ?_
            by_contra hasBackup
            exact entryOrdered each eachMember backup saved hasBackup source findsBackup eachAimed
          have still : content = kept := by
            have dwindles := elsewhere source (List.forall_mem_cons.2
              ⟨fun aimed => different (aimed.unique finds), unaimed⟩)
            rw [Dwindles, stands, atBackup] at dwindles
            simpa using dwindles
          rw [Dwindles, changed]
          by_cases here : location = target
          · exact .inl (by rw [here, Function.update_self, still, atTarget])
          · rw [Function.update_of_ne here]
            by_cases emptied : location = source
            · exact .inr (by rw [emptied, Function.update_self])
            · rw [Function.update_of_ne emptied]
              exact onward target finds here

/-! ## Removing -/

/-- **Removing** that is not stopped empties the places of the paths and adds nothing. -/
theorem discardAll_empties (alike : Alike base world.tree)
    (truthful : Truthful (discardAll paths) world)
    (done : ((discardAll paths).run world).1 = .ok ()) :
    (∀ place, Dwindles place world.tree.entryAt ((discardAll paths).run world).2.tree.entryAt) ∧
      ∀ path ∈ paths, ∀ place, base.Finds path true place →
        ((discardAll paths).run world).2.tree.entryAt place = none := by
  induction paths generalizing world with
  | nil => exact ⟨fun place => .inl rfl, by simp⟩
  | cons path rest ih =>
      -- once its place is free, it stays free
      have onward : ∀ next : World, Alike base next.tree →
          (∀ place, Dwindles place world.tree.entryAt next.tree.entryAt) →
          (∀ place, base.Finds path true place → next.tree.entryAt place = none) →
          Truthful (discardAll rest) next → ((discardAll rest).run next).1 = .ok () →
          (∀ place, Dwindles place world.tree.entryAt
            ((discardAll rest).run next).2.tree.entryAt) ∧
          ∀ each ∈ path :: rest, ∀ place, base.Finds each true place →
            ((discardAll rest).run next).2.tree.entryAt place = none := by
        intro next alikeThen dwindles gone truthfulThen doneThen
        obtain ⟨later, others⟩ := ih alikeThen truthfulThen doneThen
        refine ⟨fun place => (dwindles place).trans (later place),
          List.forall_mem_cons.2 ⟨fun place finds => ?_, others⟩⟩
        exact (later place).elim (fun same => same.trans (gone place finds)) id
      rw [discardAll] at done truthful ⊢
      rcases world.answer_cases (.removeFile path) with
        ⟨cause, refused⟩ | ⟨_, after, granted, made, -⟩
      · rw [Script.run_call refused] at done ⊢
        have goesOn : cause.reason = .missing := by
          by_contra other
          simp [other, Script.run] at done
        simp only [goesOn, if_true] at done ⊢
        refine onward world.tick alike (fun place => .inl rfl) (fun place finds => ?_)
          (fun step member => truthful step ?_) done
        · have missing : world.tree.entryAt place = none :=
            free_of_refused (fun other => truthful _ List.mem_cons_self _ rfl other)
              (alike.finds_iff.2 finds) refused goesOn
          exact missing
        · rw [Script.calls_call refused]
          simp only [goesOn, if_true]
          exact List.mem_cons_of_mem _ member
      · rw [Script.run_call granted] at done ⊢
        obtain ⟨there, finds, -⟩ := Tree.exists_place (World.attempt_removeFile made)
        obtain ⟨-, content, -, changed⟩ := Tree.removeFile_ok finds (World.attempt_removeFile made)
        refine onward (world.changed after) (alike.attempt (by simp) (by simp) made)
          (fun place => ?_) (fun place findsToo => ?_) (fun step member => truthful step ?_) done
        · rw [Dwindles, World.changed_tree, changed]
          by_cases here : place = there
          · exact .inr (by rw [here, Function.update_self])
          · exact .inl (by rw [Function.update_of_ne here])
        · rw [← (alike.finds_iff.1 finds).unique findsToo, World.changed_tree, changed,
            Function.update_self]
        · rw [Script.calls_call granted]
          exact List.mem_cons_of_mem _ member

/-! ## An attempt and its taking back -/

/-- What an attempt has done: it added temporary files and backups, and then replaced targets,
whose backups are told in order. -/
structure Attempts (base : Tree) (staged moved : List Staged) (after : Tree) : Prop where
  alike : Alike base after
  within : moved ⊆ staged
  undoable : ∃ between, Added base (litter staged) between ∧ Backed base between moved ∧
    ∀ place, (∀ entry ∈ moved, ¬ base.Finds entry.target true place) →
      Dwindles place between.entryAt after.entryAt

/-- An attempt that has replaced nothing. -/
theorem Attempts.of_added {staged : List Staged} (adds : Added base (litter staged) tree) :
    Attempts base staged [] tree :=
  ⟨adds.toAlike, List.nil_subset _, tree, adds, ⟨by simp, List.Pairwise.nil⟩,
    fun place _ => .inl rfl⟩

theorem attempt_undoable (sound : world.tree.Sound) (files : List (Text × Text))
    (directory : Path) :
    let outcome := (attempt files directory).run world
    Attempts world.tree outcome.1.1 outcome.1.2.1 outcome.2.tree := by
  intro outcome
  simp only [outcome, attempt, Script.run_bind]
  have first := stageAll_added (Added.refl sound) directory files
  have plain := (stageAll_strewn (Strewn.refl sound) directory files).2
  simp only [List.append_nil] at first
  generalize (stageAll directory files).run world = between at first plain
  rcases between with ⟨⟨staged, halt | _⟩, next⟩
  · simp only [Script.run_bind]
    obtain ⟨second, temps, whole⟩ := backUpAll_added first.toAlike plain
    generalize (backUpAll staged).run next = behind at second temps whole
    have both : Added world.tree (litter behind.1.1) behind.2.tree := by
      have within := strewn_subset_litter behind.1.1
      rw [temps] at within
      obtain ⟨backups, temps⟩ := List.append_subset.1 within
      exact first.trans (second.mono temps) backups
    rcases behind with ⟨⟨saved, halt | _⟩, last⟩
    · obtain ⟨-, backed⟩ := whole rfl
      obtain ⟨alike, isPrefix, elsewhere⟩ := replaceAll_dwindles both.toAlike saved
      simp only [Script.run_bind, Script.run]
      exact ⟨alike, isPrefix.subset, last.tree, both, backed.of_prefix isPrefix, elsewhere⟩
    · exact Attempts.of_added both
  · refine Attempts.of_added (first.mono fun path member => ?_)
    exact strewn_subset_litter _ (List.mem_append_left _ member)

/-- **Taking back** in which no restoration is refused, and that is not stopped, leaves no file that
was not there before, with the content it had. -/
theorem rollBack_undoes {staged moved : List Staged} {created : List Path}
    (attempts : Attempts base staged moved world.tree)
    (restores : Unrefused (restoreAll moved.reverse) world)
    (truthful : Truthful (rollBack staged moved created) world)
    (done : ((rollBack staged moved created).run world).1 = .ok ())
    (there : ((rollBack staged moved created).run world).2.tree.entryAt place =
      some (.file content)) : base.entryAt place = some (.file content) := by
  obtain ⟨alike, -, between, adds, backed, elsewhere⟩ := attempts
  have restored : Dwindles place between.entryAt
      ((restoreAll moved.reverse).run world).2.tree.entryAt :=
    restoreAll_returns alike restores
      (fun entry member => backed.backups entry (List.mem_reverse.1 member))
      (List.pairwise_reverse.2 backed.ordered)
      (fun place apart => elsewhere place fun entry member =>
        apart entry (List.mem_reverse.2 member)) place
  have alikeThen : Alike base ((restoreAll moved.reverse).run world).2.tree := by
    have sound := Script.run_sound (restoreAll moved.reverse) alike.sound
    refine ⟨alike.start, sound, alike.keeps.trans (Script.run_keeps ((restoreAll_asks _).mono ?_)
      world), (Script.run_adds_none fun path granted => ?_).trans alike.adds_none⟩
    · rintro asked ⟨entry, -, rfl⟩
      exact entry.restoration_keeps
    · obtain ⟨entry, -, same⟩ := (restoreAll_asks _).of_grants granted
      unfold Staged.restoration at same
      split at same <;> exact absurd same (by simp)
  rw [rollBack, Script.run_bind, Script.run_bind] at done there
  have discarding : Truthful (discardAll (litter staged))
      ((restoreAll moved.reverse).run world).2 := fun step member =>
    truthful step (Script.mem_calls_right (Script.mem_calls_left member))
  cases discarded : ((discardAll (litter staged)).run
      ((restoreAll moved.reverse).run world).2).1 with
  | error cause =>
      rw [discarded] at done
      exact absurd done (by simp [Script.run])
  | ok _ =>
      obtain ⟨dwindles, emptied⟩ := discardAll_empties alikeThen discarding discarded
      rw [discarded, Script.run_bind] at there
      -- what stands in the end has stood all the time since the targets were restored
      have stays : ∀ {view after : View}, Dwindles place view after →
          after place = some (.file content) → view place = some (.file content) := by
        rintro view after (same | gone) stands
        · exact same.symm.trans stands
        · exact absurd (gone.symm.trans stands) (by simp)
      have behind := stays (removeDirectories_dwindles created _ place) there
      have stood := stays restored (stays (dwindles place) behind)
      by_cases littered : ∃ path ∈ litter staged, base.Finds path true place
      · obtain ⟨path, member, finds⟩ := littered
        exact absurd ((emptied path member place finds).symm.trans behind) (by simp)
      · rw [← adds.elsewhere fun path member finds => littered ⟨path, member, finds⟩]
        exact stood

end TreeGrammar.Publish
