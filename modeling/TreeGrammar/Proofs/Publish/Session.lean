/-
# TreeGrammar.Proofs.Publish.Session -- which sessions leave a temporary file or a backup

A session publishes files and generates the modules of grammars, one after the other, in one
world.  Whichever calls are denied but removals of files, and however the steps end, none of
the paths that were asked for as temporary files or backups leads to anything, as long as no
step is broken off by a surrogate in a name or a text (`session_leaves_none_iff`).  A step that
is broken off so, behind a temporary file that it has made, leaves it.

One step that is not broken off leaves nothing new but under names of its files and of its
output directory (`publish_adds`), so names that are neither stay unused through every session
(`session_orderly`).  Generating is publishing what is rendered, or nothing; a grammar has
characters only, so its modules are texts.
-/
import TreeGrammar.Proofs.Grammar.Soundness
import TreeGrammar.Proofs.Publish.BreakingOff
import TreeGrammar.Publish.Generate

set_option autoImplicit false

namespace TreeGrammar.Publish

/-! ## What is asked for -/

section Asked

variable {directory path : Path} {world : World} {files : List (Text × Text)}
variable {step : World × Call}

/-- The path of the temporary file or of the backup that a call asks for. -/
def stagedPath? : World × Call → Option Path
  | (world, .createTemp directory stem) =>
      some (tempPath directory stem (world.stamps world.clock))
  | (_, .link _ new) => some new
  | _ => none

/-- The paths that a script asks for as temporary files and backups, in order. -/
def stagedPaths {α : Type} (script : Script α) (world : World) : List Path :=
  (script.calls world).filterMap stagedPath?

/-- The path ends with a name that a stamp makes for one of the files. -/
def StagingPath (stamps : Nat → Text) (names : List Text) (path : Path) : Prop :=
  ∃ folder : Path, ∃ name ∈ names, ∃ time,
    path = tempPath folder name (stamps time) ∨ path = savedPath folder name (stamps time)

theorem stageOne_temp (directory : Path) (name text : Text) (world : World) :
    ∀ staged ∈ ((stageOne directory name text).run world).1.1,
      staged.temp = tempPath directory name (world.stamps world.clock) := by
  intro staged member
  rcases stageOne_cases directory name text world with
    ⟨halt, result, -⟩ | ⟨-, -, ⟨halt, result, -⟩ | ⟨halt, -, -, result, -⟩⟩
  all_goals
    rw [result] at member
    cases member
  · rfl
  · rfl

theorem stageAll_temps (directory : Path) (files : List (Text × Text)) (world : World) :
    ∀ staged ∈ ((stageAll directory files).run world).1.1, ∃ name ∈ files.map Prod.fst, ∃ time,
      staged.temp = tempPath directory name (world.stamps time) := by
  induction files generalizing world with
  | nil => simp [stageAll, Script.run]
  | cons file rest ih =>
      have first : ∀ staged ∈ ((stageOne directory file.1 file.2).run world).1.1,
          ∃ name ∈ (file :: rest).map Prod.fst, ∃ time,
            staged.temp = tempPath directory name (world.stamps time) := fun staged member =>
        ⟨file.1, by simp, world.clock, stageOne_temp directory file.1 file.2 world staged member⟩
      have stamped := Script.run_stamps (stageOne directory file.1 file.2) world
      rw [stageAll, Script.run_bind]
      generalize (stageOne directory file.1 file.2).run world = outcome at first stamped
      rcases outcome with ⟨⟨one, _ | halt⟩, behind⟩
      · simp only [Script.run_bind, Script.run]
        intro staged member
        rcases List.mem_append.1 member with here | later
        · exact first staged (Option.mem_toList.1 here)
        · obtain ⟨name, named, time, temp⟩ := ih behind staged later
          exact ⟨name, List.mem_cons_of_mem _ named, time, by rw [temp, stamped]⟩
      · exact fun staged member => first staged (Option.mem_toList.1 member)

/-- Staging asks for temporary files of the directory. -/
theorem stageAll_stages (directory : Path) (files : List (Text × Text)) :
    (stageAll directory files).Asks fun asked => ∀ folder stem,
      asked = .createTemp folder stem → folder = directory ∧ stem ∈ files.map Prod.fst := by
  induction files with
  | nil => trivial
  | cons file rest ih =>
      refine Script.asks_bind ((stageOne_calls directory file.1 file.2).mono ?_) fun outcome => ?_
      · rintro asked (⟨name, named, rfl⟩ | ⟨temp, ⟨content, -, rfl⟩ | rfl⟩) folder stem same
        · obtain ⟨rfl, rfl⟩ := Call.createTemp.inj same
          obtain rfl := Option.some.inj named
          exact ⟨rfl, by simp⟩
        · nomatch same
        · nomatch same
      · rcases outcome with ⟨staged, _ | halt⟩
        · refine Script.asks_bind (ih.mono fun asked sort folder stem same => ?_) fun _ => trivial
          exact (sort folder stem same).imp_right (List.mem_cons_of_mem _)
        · trivial

theorem stagedPath?_conclude {created : List Path}
    {outcome : List Staged × List Staged × Option Halt}
    (called : step ∈ (conclude created outcome).calls world) : stagedPath? step = none := by
  obtain ⟨before, asked⟩ := step
  rcases (conclude_calls created outcome).of_mem called with
    ⟨entry, -, same⟩ | ⟨path, same⟩ | ⟨path, -, same⟩
  · obtain rfl : asked = entry.restoration := same
    unfold Staged.restoration
    cases entry.backup <;> rfl
  · obtain rfl : asked = .removeFile path := same
    rfl
  · obtain rfl : asked = .removeDirectory path := same
    rfl

theorem stagedPath?_attempt (fileNames : FileNames (files.map Prod.fst))
    (plain : ∀ time, '/' ∉ world.stamps time)
    (called : step ∈ (attempt files directory).calls world) (asked : stagedPath? step = some path) :
    StagingPath world.stamps (files.map Prod.fst) path := by
  obtain ⟨before, call⟩ := step
  rw [attempt, Script.calls_bind, List.mem_append] at called
  rcases called with early | late
  · have sort := (stageAll_stages directory files).of_mem early
    have staging := (stageAll_asks directory files).of_mem early
    cases call with
    | createTemp folder stem =>
        obtain ⟨rfl, named⟩ := sort folder stem rfl
        rw [stagedPath?, Option.some.injEq, (Script.calls_world early).2] at asked
        exact ⟨_, stem, named, before.clock, .inl asked.symm⟩
    | link existing new => exact absurd staging (by simp [Call.isStaging])
    | _ => exact absurd asked (by simp [stagedPath?])
  · have temps := stageAll_temps directory files world
    have stamped := Script.run_stamps (stageAll directory files) world
    generalize (stageAll directory files).run world = outcome at late temps stamped
    rcases outcome with ⟨⟨staged, _ | halt⟩, behind⟩
    · simp only [Script.calls_bind, List.mem_append] at late
      rcases late with linking | moving
      · rcases (backUpAll_links staged).of_mem linking with ⟨other, rfl⟩ | ⟨entry, member, rfl⟩
        · exact absurd asked (by simp [stagedPath?])
        · obtain ⟨name, named, time, temp⟩ := temps entry member
          rw [stagedPath?, Option.some.injEq, temp,
            backupPath_tempPath directory (fileNames.single name named) (plain time)] at asked
          exact ⟨directory, name, named, time, .inr asked.symm⟩
      · generalize ((backUpAll staged).run behind).1 = saved at moving
        rcases saved with ⟨saved, _ | halt⟩
        · simp only [Script.calls_bind, List.mem_append] at moving
          rcases moving with replacing | none
          · obtain ⟨entry, -, rfl⟩ := (replaceAll_asks saved).of_mem replacing
            exact absurd asked (by simp [stagedPath?])
          · exact absurd none List.not_mem_nil
        · exact absurd moving List.not_mem_nil
    · exact absurd late List.not_mem_nil

/-- A run asks for nothing but temporary files and backups of its files. -/
theorem stages_of_publish (fileNames : FileNames (files.map Prod.fst))
    (plain : ∀ time, '/' ∉ world.stamps time)
    (called : step ∈ (publish files directory).calls world) (asked : stagedPath? step = some path) :
    StagingPath world.stamps (files.map Prod.fst) path := by
  have preparing : ∀ {other : World × Call}, other ∈ (prepare directory).calls world →
      stagedPath? other = none := by
    rintro ⟨before, call⟩ member
    have sort := (prepare_asks directory).of_mem member
    cases call <;> first | rfl | exact absurd sort (by simp [Call.isPreparing])
  cases nul : directory.hasNul with
  | true =>
      rw [publish_of_nul nul] at called
      obtain ⟨other, looked⟩ := (lookThrough_asks directory).of_mem called
      obtain ⟨before, call⟩ := step
      obtain rfl : call = .exists other := looked
      exact absurd asked (by simp [stagedPath?])
  | false =>
      cases prepared : ((prepare directory).run world).1 with
      | error failure =>
          rw [(publish_unprepared nul prepared).2.1] at called
          exact absurd (preparing called) (by simp [asked])
      | ok created =>
          rw [(publish_prepared files nul prepared).2.1, List.mem_append, Script.calls_bind,
            List.mem_append] at called
          have stamped := Script.run_stamps (prepare directory) world
          rcases called with early | attempting | concluding
          · exact absurd (preparing early) (by simp [asked])
          · rw [← stamped] at plain ⊢
            exact stagedPath?_attempt fileNames plain attempting asked
          · exact absurd (stagedPath?_conclude concluding) (by simp [asked])

end Asked

/-! ## Sessions -/

/-- One step of a session.  What is published as it is given may have surrogates in it. -/
inductive Step where
  | publish (files : List (Text.Wide Text.Stray × Text.Wide Text.Surrogate)) (directory : Path)
  | generate (grammar : Grammar) (strict : Bool) (directory : Text)

namespace Step

/-- The names of files that a step may use: those that are texts; none if there is nothing to
render. -/
def names : Step → List Text
  | .publish files _ => textNames files
  | .generate grammar strict _ => ((grammar.render strict).toOption.getD []).map Prod.fst

def directory : Step → Path
  | .publish _ directory => directory
  | .generate _ _ directory => .ofText directory

/-- A step, whatever it ends with. -/
def script : Step → Script Unit
  | .publish files directory => (Publish.publish files directory).bind fun _ => .done ()
  | .generate grammar strict directory =>
      (Generation.generate grammar strict directory).bind fun _ => .done ()

/-- A name or a text with a surrogate breaks the step off behind a temporary file that it has
made. -/
def Strands : Step → World → Prop
  | .publish files directory, world => Publish.Strands files directory world
  | .generate _ _ _, _ => False

/-- The names of the files are single names of a path without a NUL character, and those that are
published as they are given are distinct. -/
structure WellNamed (step : Step) : Prop where
  single : ∀ name ∈ step.names, Path.IsComponent name
  plain : ∀ name ∈ step.names, '\x00' ∉ name
  distinct : ∀ files directory, step = .publish files directory → (files.map Prod.fst).Nodup

theorem WellNamed.fileNames {step : Step} (wellNamed : step.WellNamed) :
    FileNames step.names := by
  refine ⟨wellNamed.single, wellNamed.plain, ?_⟩
  cases step with
  | publish files directory =>
      have byName : textNames files = (files.map Prod.fst).filterMap Text.Wide.text? := by
        rw [List.filterMap_map]
        rfl
      rw [names, byName]
      refine (wellNamed.distinct files directory rfl).filterMap fun name other text read readToo => ?_
      rw [Text.Wide.eq_of_text? read, Text.Wide.eq_of_text? readToo]
  | generate grammar strict directory =>
      -- modules of one name replace each other
      simp only [names]
      cases rendered : grammar.render strict with
      | error error => exact List.nodup_nil
      | ok rendering =>
          rw [Grammar.render, check_eq_ok_iff] at rendered
          rw [← Except.ok.inj rendered.2]
          exact Keyed.nodup_keys_ofList _

/-- **A step** that is not broken off behind a temporary file publishes files with some of its
names, or does nothing at all. -/
theorem script_cases (step : Step) {world : World} (unbroken : ¬ step.Strands world) :
    ((step.script.run world).2 = world ∧ step.script.calls world = []) ∨
      ∃ files : List (Text × Text), (files.map Prod.fst).Sublist step.names ∧
        (step.script.run world).2 = ((Publish.publish files step.directory).run world).2 ∧
        step.script.calls world = (Publish.publish files step.directory).calls world := by
  cases step with
  | publish files directory =>
      obtain ⟨texts, within, same, calls⟩ := publish_narrow unbroken
      refine .inr ⟨texts, within, ?_, ?_⟩
      · rw [script, Script.run_bind, Step.directory, ← same]
        rfl
      · rw [script, Script.calls_bind, Step.directory, ← calls]
        exact List.append_nil _
  | generate grammar strict text =>
      simp only [script, Generation.generate, names, Step.directory]
      cases rendered : grammar.render strict with
      | error error => exact .inl ⟨rfl, rfl⟩
      | ok files =>
          refine .inr ⟨files, List.Sublist.refl _, ?_⟩
          simp only [Script.run_bind, Script.calls_bind, Script.run_notes, Script.calls_notes]
          generalize (Publish.publish files (.ofText text)).run world = outcome
          rcases outcome with ⟨failure | paths, behind⟩ <;> simp [Script.run, Script.calls]

end Step

/-- The steps one after the other. -/
def session : List Step → Script Unit
  | [] => .done ()
  | step :: rest => step.script.bind fun _ => session rest

/-- None of the paths that a script asks for as temporary files and backups leads to anything in
the end. -/
def LeavesNone {α : Type} (script : Script α) (world : World) : Prop :=
  ∀ path ∈ stagedPaths script world, ∀ entry, (script.run world).2.tree.look path ≠ .ok (some entry)

/-- What every step of a session needs and keeps: no name that a stamp makes for one of the names is
used, and no removal of a file is denied. -/
structure Orderly (stamps : Nat → Text) (names : List Text) (world : World) : Prop where
  sound : world.tree.Sound
  removes : world.Removes
  stamped : world.stamps = stamps
  avoids : world.tree.Avoids (StagingName stamps names)

section Session

variable {stamps : Nat → Text} {names : List Text} {world : World} {steps : List Step}
variable {step : Step}

/-- The names of a step are some of the names, and the stamps make none of the names of its files
and of its directory. -/
structure Step.Apart (stamps : Nat → Text) (names : List Text) (step : Step) : Prop
    extends step.WellNamed where
  within : step.names ⊆ names
  apart : ∀ name, StagingName stamps names name → name ∉ step.names ∧ name ∉ step.directory.parts

theorem FileNames.sublist {some : List Text} (fileNames : FileNames names)
    (within : some.Sublist names) : FileNames some :=
  ⟨fun name member => fileNames.single name (within.subset member),
    fun name member => fileNames.plain name (within.subset member),
    fileNames.distinct.sublist within⟩

theorem Step.Apart.spare {some : List Text} (apart : step.Apart stamps names)
    (plain : ∀ time, '.' ∉ stamps time ∧ '/' ∉ stamps time) (within : some ⊆ step.names) :
    Spare stamps some step.directory.parts := by
  refine ⟨plain, fun name staging => ?_⟩
  obtain ⟨noName, noPart⟩ :=
    apart.apart name (staging.mono (List.Subset.trans within apart.within))
  exact ⟨fun member => noName (within member), noPart⟩

/-- **One step** keeps a session orderly. -/
theorem step_orderly (orderly : Orderly stamps names world)
    (plain : ∀ time, '.' ∉ stamps time ∧ '/' ∉ stamps time) (apart : step.Apart stamps names)
    (unbroken : ¬ step.Strands world) :
    Orderly stamps names (step.script.run world).2 := by
  obtain ⟨sound, removes, rfl, avoids⟩ := orderly
  refine ⟨Script.run_sound _ sound, ?_, Script.run_stamps _ _, ?_⟩
  · rw [World.Removes, Script.run_faults]
    exact removes
  · rcases step.script_cases unbroken with ⟨same, -⟩ | ⟨files, within, same, -⟩
    · rwa [same]
    · rw [same]
      intro location there part member staging
      have own : world.tree.Avoids (StagingName world.stamps (files.map Prod.fst)) :=
        fun location there part member staging => avoids location there part member
          (staging.mono (List.Subset.trans within.subset apart.within))
      rcases publish_adds sound removes (apart.fileNames.sublist within)
        (apart.spare plain within.subset) own there with stood | named
      · exact avoids location stood part member staging
      · obtain ⟨noName, noPart⟩ := apart.apart part staging
        exact (named part member).elim noPart fun mine => noName (within.subset mine)

/-- No step of a session is broken off behind a temporary file that it has made. -/
def Unbroken : List Step → World → Prop
  | [], _ => True
  | step :: rest, world => ¬ step.Strands world ∧ Unbroken rest (step.script.run world).2

theorem session_append (front rest : List Step) :
    session (front ++ rest) = (session front).bind fun _ => session rest := by
  induction front with
  | nil => rfl
  | cons step more ih =>
      rw [List.cons_append, session, session, Script.bind_assoc]
      exact congrArg _ (funext fun _ => ih)

theorem unbroken_append {front rest : List Step} :
    Unbroken (front ++ rest) world ↔
      Unbroken front world ∧ Unbroken rest ((session front).run world).2 := by
  induction front generalizing world with
  | nil => simp [Unbroken, session, Script.run]
  | cons step more ih =>
      rw [List.cons_append, Unbroken, Unbroken, ih, session, Script.run_bind, and_assoc]

/-- **A session** stays orderly. -/
theorem session_orderly (orderly : Orderly stamps names world)
    (plain : ∀ time, '.' ∉ stamps time ∧ '/' ∉ stamps time)
    (apart : ∀ step ∈ steps, step.Apart stamps names) (unbroken : Unbroken steps world) :
    Orderly stamps names ((session steps).run world).2 := by
  induction steps generalizing world with
  | nil => exact orderly
  | cons step rest ih =>
      obtain ⟨first, others⟩ := List.forall_mem_cons.1 apart
      rw [session, Script.run_bind]
      exact ih (step_orderly orderly plain first unbroken.1) others unbroken.2

/-- The paths that a session asks for end with names that the stamps make. -/
theorem stagingPath_of_session (plain : ∀ time, '/' ∉ stamps time) (stamped : world.stamps = stamps)
    (apart : ∀ step ∈ steps, step.Apart stamps names) (unbroken : Unbroken steps world) :
    ∀ path ∈ stagedPaths (session steps) world, StagingPath stamps names path := by
  induction steps generalizing world with
  | nil => simp [stagedPaths, session, Script.calls]
  | cons step rest ih =>
      obtain ⟨first, others⟩ := List.forall_mem_cons.1 apart
      intro path member
      rw [stagedPaths, session, Script.calls_bind, List.filterMap_append, List.mem_append] at member
      rcases member with here | later
      · obtain ⟨asked, called, same⟩ := List.mem_filterMap.1 here
        rcases step.script_cases unbroken.1 with ⟨-, none⟩ | ⟨files, within, -, calls⟩
        · exact absurd (none ▸ called) List.not_mem_nil
        · obtain ⟨folder, name, named, time, made⟩ :=
            stages_of_publish (first.fileNames.sublist within) (stamped ▸ plain) (calls ▸ called) same
          exact ⟨folder, name, first.within (within.subset named), time, stamped ▸ made⟩
      · exact ih ((Script.run_stamps _ _).trans stamped) others unbroken.2 path later

/-- A session of which no step is broken off leaves none. -/
theorem leavesNone_of_unbroken (orderly : Orderly stamps names world)
    (plain : ∀ time, '.' ∉ stamps time ∧ '/' ∉ stamps time)
    (apart : ∀ step ∈ steps, step.Apart stamps names)
    (single : ∀ name ∈ names, Path.IsComponent name) (unbroken : Unbroken steps world) :
    LeavesNone (session steps) world := by
  obtain ⟨soundThen, -, -, avoidsThen⟩ := session_orderly orderly plain apart unbroken
  intro path asked entry
  obtain ⟨folder, stem, named, time, made⟩ := stagingPath_of_session (fun time => (plain time).2)
    orderly.stamped apart unbroken path asked
  rcases made with rfl | rfl
  · exact avoidsThen.look soundThen (isComponent_tempName (single stem named) (plain time).2)
      (tempName_ne_back _ _) ⟨stem, named, time, .inl rfl⟩ entry
  · exact avoidsThen.look soundThen (isComponent_backupName (single stem named) (plain time).2)
      (backupName_ne_back _ _) ⟨stem, named, time, .inr rfl⟩ entry

/-- A step that is broken off leaves its temporary file. -/
theorem not_leavesNone_of_strands {front : List Step}
    (sound : ((session front).run world).2.tree.Sound)
    (strands : step.Strands ((session front).run world).2) :
    ¬ LeavesNone (session (front ++ [step])) world := by
  cases step with
  | generate grammar strict directory => exact strands.elim
  | publish files directory =>
      obtain ⟨before, stem, called, entry, stands⟩ := stands_of_strands sound strands
      intro leaves
      refine leaves _ (List.mem_filterMap.2 ⟨(before, .createTemp directory stem), ?_, rfl⟩) entry ?_
      · rw [session_append]
        refine Script.mem_calls_right ?_
        rw [session, Step.script]
        exact Script.mem_calls_left (Script.mem_calls_left called)
      · rw [session_append, Script.run_bind, session, Script.run_bind, Step.script, Script.run_bind]
        exact stands

/-- **Which sessions leave a temporary file or a backup.**  The steps of a session publish files and
generate modules; whatever is denied but removals of files, and however the steps end.  Behind no
beginning of the session does one of the paths that were asked for as temporary files or backups
lead to anything, exactly if no step of it is broken off by a surrogate behind a temporary file that
it has made, as long as the names that the stamps make are not used otherwise. -/
theorem session_leaves_none_iff (sound : world.tree.Sound) (removes : world.Removes)
    (plain : ∀ time, '.' ∉ world.stamps time ∧ '/' ∉ world.stamps time)
    (wellNamed : ∀ step ∈ steps, step.WellNamed)
    (unused : ∀ name, StagingName world.stamps (steps.flatMap Step.names) name →
      ∀ step ∈ steps, name ∉ step.names ∧ name ∉ step.directory.parts)
    (avoids : world.tree.Avoids (StagingName world.stamps (steps.flatMap Step.names))) :
    (∀ front, front <+: steps → LeavesNone (session front) world) ↔ Unbroken steps world := by
  have apart : ∀ step ∈ steps, step.Apart world.stamps (steps.flatMap Step.names) :=
    fun step member => ⟨wellNamed step member,
      fun name mine => List.mem_flatMap.2 ⟨step, member, mine⟩,
      fun name staging => unused name staging step member⟩
  have single : ∀ name ∈ steps.flatMap Step.names, Path.IsComponent name := by
    intro name member
    obtain ⟨step, isStep, mine⟩ := List.mem_flatMap.1 member
    exact (wellNamed step isStep).single name mine
  have orderly : Orderly world.stamps (steps.flatMap Step.names) world :=
    ⟨sound, removes, rfl, avoids⟩
  constructor
  · intro leaves
    -- the first step that is broken off would leave its temporary file
    have beginnings : ∀ front, front <+: steps → Unbroken front world := by
      intro front
      induction front using List.reverseRecOn with
      | nil => exact fun _ => trivial
      | append_singleton front step ih =>
          intro isPrefix
          have unbroken := ih ((List.prefix_append front [step]).trans isPrefix)
          have still := session_orderly orderly plain (fun each member =>
            apart each (isPrefix.subset (List.mem_append_left [step] member))) unbroken
          refine unbroken_append.2 ⟨unbroken, fun strands => ?_, trivial⟩
          exact not_leavesNone_of_strands still.sound strands (leaves _ isPrefix)
    exact beginnings steps List.prefix_rfl
  · rintro unbroken front ⟨rest, rfl⟩
    exact leavesNone_of_unbroken orderly plain
      (fun step member => apart step (List.mem_append_left rest member)) single
      (unbroken_append.1 unbroken).1

end Session

/-- Two files are published where the second one cannot be moved and the first one cannot be given
back, and modules are generated into the same directory. -/
def sampleSession : List Step :=
  [.publish (sampleFiles.map fun file => (file.1.wide, file.2.wide)) sampleDirectory,
    .generate Grammar.linkedGrammar true ['o']]

/-- The directory with one file, where `b` cannot be replaced and `a` cannot be given back. -/
def stuckWorld : World :=
  sampleWorld [⟨.replace, some ['b'], none⟩, ⟨.replace, some ['a'], some ".bak"⟩]

theorem stagingName_iff {names : List Text} {name : Text} :
    StagingName (fun _ => ['s']) names name ↔
      ∃ stem ∈ names, name = tempName stem ['s'] ∨ name = backupName stem ['s'] := by
  simp [StagingName]

/-- Whatever the stamps make of the names of the session is used by no step and not by the tree. -/
theorem sample_session_unused : ∀ stem ∈ sampleSession.flatMap Step.names,
    ∀ made ∈ [tempName stem ['s'], backupName stem ['s']],
      (∀ step ∈ sampleSession, made ∉ step.names ∧ made ∉ step.directory.parts) ∧
        ∀ entry ∈ sampleTree.entries, made ∉ entry.1 := by
  decide +kernel

theorem sample_session_leaves_none :
    sampleDirectory.join ".a.s.bak" ∈ stagedPaths (session sampleSession) stuckWorld ∧
      LeavesNone (session sampleSession) stuckWorld := by
  have made : ∀ name, StagingName stuckWorld.stamps (sampleSession.flatMap Step.names) name →
      (∀ step ∈ sampleSession, name ∉ step.names ∧ name ∉ step.directory.parts) ∧
        ∀ entry ∈ sampleTree.entries, name ∉ entry.1 := by
    intro name staging
    obtain ⟨stem, member, either⟩ := stagingName_iff.1 staging
    exact sample_session_unused stem member name (by simpa using either)
  have ends : ((publish (sampleFiles.map fun file =>
      ((file.1.wide : Text.Wide Text.Stray), (file.2.wide : Text.Wide Text.Surrogate)))
        sampleDirectory).run stuckWorld).1 ≠ .error .nul := by
    decide +kernel
  have unbroken : Unbroken sampleSession stuckWorld :=
    ⟨fun strands => ends strands.1, fun strands => strands.elim, trivial⟩
  refine ⟨by decide +kernel, (session_leaves_none_iff sample_sound (fun time path => ?_)
    (fun time => ?_) ?_ (fun name staging => (made name staging).1) ?_).2 unbroken _
      List.prefix_rfl⟩
  · simp [stuckWorld, sampleWorld, Fault.denial, Fault.hits, Call.deniable?]
  · simp [stuckWorld, sampleWorld]
  · refine List.forall_mem_cons.2 ⟨⟨by decide, by decide, ?_⟩, List.forall_mem_singleton.2
      ⟨by decide +kernel, by decide +kernel, nofun⟩⟩
    rintro files directory ⟨⟩
    decide
  · exact Tree.avoids_of_entries fun entry listed part member staging =>
      (made part staging).2 entry listed member

/-- A text of one lone surrogate, to be published where nothing is and nothing is denied: the run is
broken off, and the temporary file stays. -/
theorem surrogate_leaves_temp :
    let files : List (Text.Wide Text.Stray × Text.Wide Text.Surrogate) :=
      [(Text.wide ['a'], [.lone ⟨0xD800, by decide⟩])]
    let script := session [.publish files sampleDirectory]
    let temp := sampleDirectory.join ".a.s.tmp"
    ((publish files sampleDirectory).run emptyWorld).1 = .error .nul ∧
      stagedPaths script emptyWorld = [temp] ∧
      (script.run emptyWorld).2.tree.look temp = .ok (some (.file [])) := by
  decide +kernel

end TreeGrammar.Publish
