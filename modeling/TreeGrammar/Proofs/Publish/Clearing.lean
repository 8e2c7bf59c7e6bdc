/-
# TreeGrammar.Proofs.Publish.Clearing -- which directories a failed run leaves

The directories made for the output are removed deepest first, up to the first refusal.  If
the way of the output directory does not lead back behind the first name that is missing,
each of them holds nothing but the next one when taking back is that far, so all of them go
(`removeDirectories_built`).

Directories are removed only when the whole way has been made and a step is refused later.  A
run that fails while it makes the way, or breaks off at a NUL character, leaves what it has
made: a failed run leaves no new directory exactly if it made none or got to taking back
(`publish_clears_iff`).
-/
import TreeGrammar.Proofs.Directory.Straight
import TreeGrammar.Proofs.Publish.Attempt
import TreeGrammar.Proofs.Publish.PassMoments
import TreeGrammar.Proofs.Publish.Making
import TreeGrammar.Proofs.Publish.Strewn

set_option autoImplicit false

namespace TreeGrammar.Publish

open TreeGrammar.Tree (chain)

variable {old tree made : Tree} {absolute : Bool} {front names : List Text} {top : Location}
variable {directory path : Path} {world : World} {files : List (Text × Text)}

/-! ## A way that has been made -/

/-- The names, last one first, lead from a directory of the old tree through directories, and none
of them leads back. -/
structure Way (old : Tree) (absolute : Bool) (front names : List Text) (top : Location)
    (tree : Tree) : Prop where
  keeps : old.Keeps tree
  leads : old.Leads front top
  forth : ∀ name ∈ names.reverse, name ≠ Path.back
  short : ∀ name ∈ names.reverse, (Text.encode name).length ≤ Tree.nameLimit
  fits : (Text.encode (Path.text ⟨absolute, front ++ names.reverse⟩)).length ≤ Tree.pathLimit
  through : ∀ part, part <+: names.reverse → tree.entryAt (top ++ part) = some .directory

theorem Way.leads_part (way : Way old absolute front names top tree) {part : List Text}
    (isPart : part <+: names.reverse) : tree.Leads (front ++ part) (top ++ part) := by
  refine ((way.leads.keeps way.keeps).append_iff).2 ?_
  exact (Tree.follow_straight fun name member => way.forth name (isPart.subset member)).2
    ⟨rfl, fun name member => way.short name (isPart.subset member),
      fun shorter isPrefix => way.through shorter (isPrefix.trans isPart)⟩

theorem Way.finds (way : Way old absolute front names top tree) :
    tree.Finds ⟨absolute, front ++ names.reverse⟩ true (top ++ names.reverse) := by
  have leads := way.leads_part List.prefix_rfl
  rw [Tree.Finds, Tree.resolve, if_neg (Nat.not_lt.2 way.fits), if_pos rfl, Tree.placeAt,
    leads.entryAt]
  exact leads

/-- What leads to a new directory on the way leads to one of the names. -/
theorem Way.prefix_of_finds (way : Way old absolute front names top tree) {location : Location}
    (onWay : path.parts <+: front ++ names.reverse) (finds : tree.Finds path true location) :
    old.entryAt location = some .directory ∨ location <+: top ++ names.reverse := by
  rcases List.prefix_or_prefix_of_prefix onWay (List.prefix_append front _) with
    ⟨rest, split⟩ | ⟨part, same⟩
  · obtain ⟨between, leads⟩ := Tree.Leads.before (split ▸ way.leads)
    rw [finds.eq_of_leads (leads.keeps way.keeps)]
    exact .inl leads.entryAt
  · rw [← same] at onWay
    have isPart := (List.prefix_append_right_inj front).1 onWay
    rw [finds.eq_of_leads (same ▸ way.leads_part isPart)]
    exact .inr ((List.prefix_append_right_inj top).2 isPart)

/-- Such a way, where no other directory and no file is new. -/
structure Built (old : Tree) (absolute : Bool) (front names : List Text) (top : Location)
    (tree : Tree) : Prop extends Way old absolute front names top tree where
  start : old.Sound
  sound : tree.Sound
  directories : ∀ location, tree.entryAt location = some .directory →
    old.entryAt location = some .directory ∨ location <+: top ++ names.reverse
  files : ∀ location content, tree.entryAt location = some (.file content) →
    old.entryAt location ≠ none

namespace Built

variable {name : Text} {above : List Text}

/-- No directory is new where the deepest one is not. -/
theorem keeps_of_old (built : Built old absolute front names top tree)
    (stood : old.entryAt (top ++ names.reverse) = some .directory) : tree.Keeps old := by
  intro location stands
  exact (built.directories location stands).elim id fun isPrefix =>
    built.start.directory_of_prefix isPrefix stood

/-- The deepest directory is empty, if it is new. -/
theorem childless (built : Built old absolute front names top tree)
    (new : old.entryAt (top ++ names.reverse) ≠ some .directory) (name : Text) :
    tree.entryAt (top ++ names.reverse ++ [name]) = none := by
  have notOld : old.entryAt (top ++ names.reverse ++ [name]) = none := by
    by_contra there
    exact new (built.start _ name there)
  rcases stands : tree.entryAt (top ++ names.reverse ++ [name]) with _ | _ | content
  · rfl
  · rcases built.directories _ stands with stood | isPrefix
    · exact absurd (notOld.symm.trans stood) (by simp)
    · exact absurd isPrefix.length_le (by simp)
  · exact absurd notOld (built.files _ content stands)

/-- The deepest directory can be removed, and what is left is a way with one name less. -/
theorem step (built : Built old absolute front (name :: above) top tree)
    (new : old.entryAt (top ++ (name :: above).reverse) ≠ some .directory) :
    tree.removeDirectory ⟨absolute, front ++ (name :: above).reverse⟩ =
        .ok (tree.erase (top ++ (name :: above).reverse)) ∧
      Built old absolute front above top (tree.erase (top ++ (name :: above).reverse)) := by
  have forth := built.forth
  have short := built.short
  have below : top ++ (name :: above).reverse ≠ [] := by simp
  have changed := Tree.entryAt_erase tree below
  have removed := Tree.removeDirectory_of_empty built.finds (built.through _ List.prefix_rfl)
    (built.childless new) (by simp) (by simpa [Path.name] using forth name (by simp))
  simp only [List.reverse_cons, List.forall_mem_append] at forth short
  have elsewhere : ∀ location, location ≠ top ++ (name :: above).reverse →
      (tree.erase (top ++ (name :: above).reverse)).entryAt location = tree.entryAt location :=
    fun location other => by rw [changed, Function.update_of_ne other]
  have remains : ∀ location entry,
      (tree.erase (top ++ (name :: above).reverse)).entryAt location = some entry →
        location ≠ top ++ (name :: above).reverse ∧ tree.entryAt location = some entry := by
    intro location entry stands
    have other : location ≠ top ++ (name :: above).reverse := by
      rintro rfl
      rw [changed, Function.update_self] at stands
      exact absurd stands (by simp)
    exact ⟨other, elsewhere location other ▸ stands⟩
  refine ⟨removed, ⟨?_, built.leads, forth.1, short.1, ?_, ?_⟩, built.start,
    Tree.removeDirectory_sound removed built.sound, ?_, ?_⟩
  · intro location stood
    rw [elsewhere location (by rintro rfl; exact new stood), built.keeps location stood]
  · refine Nat.le_trans (Path.length_text_le ?_) (Nat.max_le.2 ⟨by decide, built.fits⟩)
    rw [List.reverse_cons, ← List.append_assoc]
    exact List.prefix_append _ _
  · intro part isPrefix
    have shorter : top ++ part ≠ top ++ (name :: above).reverse := by
      intro same
      have lengths := congrArg List.length same
      have := isPrefix.length_le
      simp at lengths this
      omega
    rw [elsewhere _ shorter]
    refine built.through part (isPrefix.trans ?_)
    rw [List.reverse_cons]
    exact List.prefix_append _ _
  · intro location stands
    obtain ⟨other, stood⟩ := remains location _ stands
    refine (built.directories location stood).imp_right fun isPrefix => ?_
    rw [List.reverse_cons, ← List.append_assoc] at isPrefix other
    exact (List.prefix_concat_iff.1 isPrefix).resolve_left other
  · exact fun location content stands =>
      built.files location content (remains location _ stands).2

end Built

/-! ## Removing it -/

/-- No removal of a directory is denied that the tree allows. -/
def Empties {α : Type} (script : Script α) (world : World) : Prop :=
  ∀ step ∈ script.calls world, ∀ path, step.2 = .removeDirectory path →
    (∃ after, step.1.tree.removeDirectory path = .ok after) → step.1.denial step.2 = none

theorem removeDirectories_adds_none (paths : List Path) (world : World) :
    ((removeDirectories paths).run world).2.tree.Keeps world.tree :=
  (removeDirectories_moments paths world _ (Script.end_mem_moments _ _)).keeps

/-- **Removing a way.**  All the directories go that the old tree does not have. -/
theorem removeDirectories_built (built : Built old absolute front names top world.tree)
    (empties : Empties (removeDirectories (chain absolute front names)) world) :
    ((removeDirectories (chain absolute front names)).run world).2.tree.Keeps old := by
  induction names generalizing world with
  | nil =>
      refine built.keeps_of_old ?_
      rw [List.reverse_nil, List.append_nil, built.leads.entryAt]
  | cons name above ih =>
      by_cases new : old.entryAt (top ++ (name :: above).reverse) = some .directory
      · exact (removeDirectories_adds_none _ world).trans (built.keeps_of_old new)
      · obtain ⟨removed, rest⟩ := built.step new
        have granted := World.answer_of_attempt
          (empties _ List.mem_cons_self _ rfl ⟨_, removed⟩)
          (show world.attempt _ = .ok ((), _) by rw [World.attempt, removed]; rfl)
        rw [chain, removeDirectories, Script.run_call granted]
        refine ih rest fun step member => empties step ?_
        rw [chain, removeDirectories, Script.calls_call granted]
        exact List.mem_cons_of_mem _ member

/-! ## Making it -/

/-- The way of a directory that has been made led to directories, or nowhere. -/
theorem prepare_looks {created : List Path} (sound : world.tree.Sound)
    (done : ((prepare directory).run world).1 = .ok created) :
    ∀ above ∈ directory :: directory.ancestors, world.tree.look above = .ok (some .directory) ∨
      world.tree.look above = .ok none := by
  obtain ⟨stands, -, looks⟩ := prepare_ok sound done
  have grown := (prepare_grown sound _ (Script.end_mem_moments (prepare directory) world)).2
  intro above member
  obtain ⟨found, looked⟩ := looks above member
  rcases found with _ | _ | content
  · exact .inr looked
  · exact .inl looked
  · -- a file would still be there
    have directoryNow : ((prepare directory).run world).2.tree.look above =
        .ok (some .directory) := by
      rcases List.mem_cons.1 member with rfl | ancestor
      · exact stands
      · exact Tree.look_ancestors stands ancestor
    obtain ⟨place, finds, file⟩ := Tree.exists_finds_of_look looked
    rw [Tree.look_eq (finds.keeps sound grown.keeps), if_pos rfl, grown.kept _ _ file]
      at directoryNow
    exact absurd directoryNow (by simp)

/-- **A way that has been made.**  When no name that leads back is missing, the missing paths are
a chain, and what is new is the way along it. -/
theorem prepare_built {created : List Path} (sound : world.tree.Sound)
    (straight : ∀ path ∈ directory :: directory.ancestors, world.tree.look path = .ok none →
      path.name ≠ Path.back)
    (done : ((prepare directory).run world).1 = .ok created) :
    ∃ front names top, created = chain directory.absolute front names ∧
      Built world.tree directory.absolute front names top
        ((prepare directory).run world).2.tree := by
  obtain ⟨stands, createdEq, -⟩ := prepare_ok sound done
  obtain ⟨madeSound, grown⟩ :=
    prepare_grown sound _ (Script.end_mem_moments (prepare directory) world)
  obtain ⟨front, names, split, frontStands, forth, missing⟩ :=
    Tree.missing_chain fun above member => (prepare_looks sound done above member).imp_right
      fun none => ⟨none, straight above member none⟩
  obtain ⟨top, -, leads⟩ := Tree.leads_of_look frontStands
  obtain ⟨here, resolved, whole⟩ := Tree.leads_of_look stands
  rw [split] at whole
  have forthReversed : ∀ name ∈ names.reverse, name ≠ Path.back := fun name member =>
    forth name (List.mem_reverse.1 member)
  obtain ⟨rfl, short, through⟩ := (Tree.follow_straight forthReversed).1
    (((leads.keeps grown.keeps).append_iff).1 whole)
  have fits : (Text.encode (Path.text ⟨directory.absolute, front ++ names.reverse⟩)).length ≤
      Tree.pathLimit := by
    rw [← split]
    unfold Tree.resolve at resolved
    split at resolved
    · exact absurd resolved (by simp)
    · next short => exact Nat.not_lt.1 short
  have way : Way world.tree directory.absolute front names top
      ((prepare directory).run world).2.tree :=
    ⟨grown.keeps, leads, forthReversed, short, fits, through⟩
  refine ⟨front, names, top, createdEq.trans missing, way, sound, madeSound, ?_, ?_⟩
  · intro location there
    rcases grown.cases location with same | ⟨-, -, path, onWay, finds⟩
    · exact .inl (same ▸ there)
    · refine way.prefix_of_finds ?_ finds
      rw [← split]
      exact (Path.mem_ancestors_iff.1 onWay).2
  · intro location content there
    rcases grown.cases location with same | ⟨-, now, -⟩
    · rw [← same, there]
      simp
    · exact absurd (now.symm.trans there) (by simp)

/-- What taking back leaves is as good as what was made. -/
theorem Built.of_strewn (built : Built old absolute front names top made)
    (strewn : Strewn made [] tree) : Built old absolute front names top tree where
  keeps := built.keeps.trans strewn.keeps
  leads := built.leads
  forth := built.forth
  short := built.short
  fits := built.fits
  through part isPart := strewn.keeps _ (built.through part isPart)
  start := built.start
  sound := strewn.sound
  directories location there := built.directories location (strewn.adds_none location there)
  files location content there := by
    rcases strewn.files location content there with ⟨old, stood⟩ | ⟨path, none, -⟩
    · exact built.files location old stood
    · exact absurd none List.not_mem_nil

/-! ## A run that fails -/

/-- **Taking back** leaves no directory that was made, unless a NUL character is in the way. -/
theorem conclude_clears (built : Built old absolute front names top world.tree)
    (unlinks : Unlinks ((attempt files directory).bind
      (conclude (chain absolute front names))) world)
    (empties : Empties ((attempt files directory).bind
      (conclude (chain absolute front names))) world) {failure : Failure}
    (failed : (((attempt files directory).bind
      (conclude (chain absolute front names))).run world).1 = .error failure)
    (unbroken : failure ≠ .nul) :
    (((attempt files directory).bind
      (conclude (chain absolute front names))).run world).2.tree.Keeps old := by
  obtain ⟨strewn, held⟩ := attempt_strewn built.sound files directory
  rw [Script.run_bind] at failed ⊢
  have unlinksThen : Unlinks (conclude (chain absolute front names)
      ((attempt files directory).run world).1) ((attempt files directory).run world).2 :=
    fun step member => unlinks step (Script.mem_calls_right member)
  have emptiesThen : Empties (conclude (chain absolute front names)
      ((attempt files directory).run world).1) ((attempt files directory).run world).2 :=
    fun step member => empties step (Script.mem_calls_right member)
  generalize (attempt files directory).run world = outcome at *
  rcases outcome with ⟨⟨staged, moved, _ | ⟨target, cause⟩ | _⟩, behind⟩
  · -- nothing stopped the attempt, so only a removal could have failed
    have wider := strewn.mono (List.subset_append_right (staged.filterMap Staged.backup) _)
    obtain ⟨-, done⟩ := discardAll_strewn wider fun step member =>
      unlinksThen step (Script.mem_calls_left member)
    rw [conclude, Script.run_bind, done] at failed
    exact absurd failed (by simp [Script.run])
  · obtain ⟨between, cleared, runs, calls⟩ := rollBack_strewn (chain absolute front names) strewn
      held fun step member => unlinksThen step (Script.mem_calls_left member)
    rw [(conclude_refused _ staged moved target cause behind).1, runs]
    exact removeDirectories_built (built.of_strewn cleared) fun step member =>
      emptiesThen step (Script.mem_calls_left (calls step member))
  · exact absurd (Except.error.inj failed).symm unbroken

/-- A run is broken off only by a NUL character in a name, and does no more then. -/
theorem conclude_broken {created : List Path} {staged moved : List Staged} {halt : Option Halt}
    (failed : ((conclude created (staged, moved, halt)).run world).1 = .error .nul) :
    (conclude created (staged, moved, halt)).calls world = [] := by
  rcases halt with _ | ⟨target, cause⟩ | _
  · rw [conclude, Script.run_bind] at failed
    revert failed
    generalize ((discardAll (staged.filterMap Staged.backup)).run world).1 = result
    cases result <;> exact fun failed => absurd failed (by simp [Script.run])
  · rw [conclude, Script.run_bind] at failed
    revert failed
    generalize ((rollBack staged moved created).run world).1 = result
    cases result <;> exact fun failed => absurd failed (by simp [Script.run])
  · rfl

/-- A run that does not get to taking back removes no directory. -/
theorem publish_removes_none {failure : Failure}
    (failed : ((publish files directory).run world).1 = .error failure)
    (broken : ∀ created, ((prepare directory).run world).1 = .ok created → failure = .nul) :
    ∀ step ∈ (publish files directory).calls world, ∀ path, step.2 ≠ .removeDirectory path := by
  have preparing : ∀ step ∈ (prepare directory).calls world, ∀ path,
      step.2 ≠ .removeDirectory path := by
    intro step member path same
    have sort := (prepare_asks directory).of_mem member
    rw [same] at sort
    exact absurd sort (by simp [Call.isPreparing])
  cases nul : directory.hasNul with
  | true =>
      rw [publish_of_nul nul]
      intro step member path same
      obtain ⟨other, looked⟩ := (lookThrough_asks directory).of_mem member
      exact absurd (same.symm.trans looked) (by simp)
  | false =>
      cases prepared : ((prepare directory).run world).1 with
      | error other => rwa [(publish_unprepared nul prepared).2.1]
      | ok created =>
          obtain rfl := broken created prepared
          obtain ⟨runs, calls, -⟩ := publish_prepared files nul prepared
          rw [runs, Script.run_bind] at failed
          rw [calls, Script.calls_bind, conclude_broken failed, List.append_nil]
          exact List.forall_mem_append.2
            ⟨preparing, fun step member => (attempt_asks files directory).of_mem member⟩

/-- **Directories behind a failure.**  Where no name that leads back is missing on the way of the
output directory, and what can be removed is removed, a run that fails leaves no new directory
exactly if it made none, or made the whole way and was not broken off. -/
theorem publish_clears_iff (sound : world.tree.Sound)
    (straight : ∀ path ∈ directory :: directory.ancestors, world.tree.look path = .ok none →
      path.name ≠ Path.back)
    (unlinks : Unlinks (publish files directory) world)
    (empties : Empties (publish files directory) world) {failure : Failure}
    (failed : ((publish files directory).run world).1 = .error failure) :
    ((publish files directory).run world).2.tree.Keeps world.tree ↔
      (∀ path, ¬ (publish files directory).Grants world (.makeDirectory path)) ∨
      ((∃ created, ((prepare directory).run world).1 = .ok created) ∧ failure ≠ .nul) := by
  constructor
  · intro cleared
    by_contra neither
    push Not at neither
    obtain ⟨⟨path, granted⟩, broken⟩ := neither
    exact Script.run_adds granted (publish_removes_none failed fun created prepared =>
      broken ⟨created, prepared⟩) cleared
  · rintro (none | ⟨⟨created, prepared⟩, unbroken⟩)
    · exact Script.run_adds_none none
    · cases nul : directory.hasNul with
      | true =>
          rw [publish_of_nul nul, run_of_exists (lookThrough_asks directory)]
          exact Tree.Keeps.refl _
      | false =>
          obtain ⟨runs, calls, -⟩ := publish_prepared files nul prepared
          obtain ⟨front, names, top, rfl, built⟩ := prepare_built sound straight prepared
          rw [runs] at failed ⊢
          exact conclude_clears built
            (fun step member => unlinks step (calls ▸ List.mem_append_right _ member))
            (fun step member => empties step (calls ▸ List.mem_append_right _ member))
            failed unbroken

/-- A removal that is not denied, and that the tree refuses only for want of a file; other calls
are settled anyway. -/
def settled (step : World × Call) : Bool :=
  match step.2 with
  | .removeFile path => (step.1.denial step.2).isNone &&
      match step.1.tree.removeFile path with
      | .ok _ => true
      | .error reason => reason = .missing
  | .removeDirectory _ => (step.1.denial step.2).isNone
  | _ => true

theorem unlinks_of_settled {α : Type} {script : Script α}
    (all : (script.calls world).all settled = true) :
    Unlinks script world ∧ Empties script world := by
  rw [List.all_eq_true] at all
  constructor
  · rintro ⟨before, asked⟩ member path rfl
    have holds := all _ member
    simp only [settled, Bool.and_eq_true, Option.isNone_iff_eq_none] at holds
    refine ⟨holds.1, fun reason refused => ?_⟩
    simpa [refused] using holds.2
  · rintro ⟨before, asked⟩ member path rfl -
    simpa [settled] using all _ member

/-- The output directory `x/y`, where nothing is. -/
def newDirectory : Path :=
  .relative [['x'], ['y']]

/-- A world where nothing is, and no file can be moved to the name `b`. -/
def refusingWorld : World :=
  { emptyWorld with faults := fun _ asked => Fault.denial [⟨.replace, some ['b'], none⟩] asked }

/-- Both directories on the way go when the second file cannot be moved. -/
theorem refused_replacement_cleared :
    let outcome := (publish sampleFiles newDirectory).run refusingWorld
    outcome.1 = .error (.unwritable (newDirectory.join ['b']) ⟨.accessDenied, []⟩) ∧
      outcome.2.tree.Keeps refusingWorld.tree := by
  have failed : ((publish sampleFiles newDirectory).run refusingWorld).1 =
      .error (.unwritable (newDirectory.join ['b']) ⟨.accessDenied, []⟩) := by decide +kernel
  have sound : refusingWorld.tree.Sound := fun location name there =>
    absurd there (by simp [refusingWorld, emptyWorld, Tree.empty, Tree.entryAt, Keyed.get?])
  have straight : ∀ path ∈ newDirectory :: newDirectory.ancestors,
      refusingWorld.tree.look path = .ok none → path.name ≠ Path.back := by decide +kernel
  have prepared : ((prepare newDirectory).run refusingWorld).1 =
      .ok [newDirectory, .relative [['x']]] := by decide +kernel
  obtain ⟨unlinks, empties⟩ : Unlinks (publish sampleFiles newDirectory) refusingWorld ∧
      Empties (publish sampleFiles newDirectory) refusingWorld :=
    unlinks_of_settled (by decide +kernel)
  exact ⟨failed, (publish_clears_iff sound straight unlinks empties failed).2
    (.inr ⟨⟨_, prepared⟩, by simp⟩)⟩

/-- A file `f` where the output directory `x/../f` should be. -/
def blockedWorld : World :=
  { emptyWorld with tree := ⟨[([['f']], .file [116])]⟩ }

def blockedDirectory : Path :=
  .relative [['x'], Path.back, ['f']]

/-- The directory `x` is made on the way, and stays when the way cannot be made. -/
theorem blocked_way_stays :
    let script := publish [(['a'], ['n', 'e', 'w'])] blockedDirectory
    let outcome := script.run blockedWorld
    outcome.1 = .error (.unwritable blockedDirectory ⟨.alreadyThere, [blockedDirectory.text]⟩) ∧
      Unlinks script blockedWorld ∧ Empties script blockedWorld ∧
      blockedWorld.tree.look (.relative [['x']]) = .ok none ∧
      outcome.2.tree.look (.relative [['x']]) = .ok (some .directory) := by
  intro script outcome
  obtain ⟨unlinks, empties⟩ : Unlinks script blockedWorld ∧ Empties script blockedWorld :=
    unlinks_of_settled (by decide +kernel)
  exact ⟨by decide +kernel, unlinks, empties, by decide, by decide +kernel⟩

end TreeGrammar.Publish
