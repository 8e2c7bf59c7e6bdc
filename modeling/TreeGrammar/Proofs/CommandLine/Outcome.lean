/-
# TreeGrammar.Proofs.CommandLine.Outcome -- what the status of a run says

The status of the command tells what has become of the tree (`run_outcome`).  With wrong usage
or a grammar that is refused nothing has changed: the command line is parsed and the grammar
loaded, checked and rendered before the first call that could change anything.  With status 0
the grammar was loaded from the file that the command line names, or is the built-in one, and
every family's module stands in the output directory; directories may have been made on the
way there, and nothing else has changed.

The modules are named by identifiers, so no name made for a temporary file or a backup is one
of theirs.  Names that the stamps make may be taken in the tree: then a call is refused, and
the status is another one.
-/
import TreeGrammar.CommandLine.Run
import TreeGrammar.Proofs.Grammar.Soundness
import TreeGrammar.Proofs.NodeModule.Rendering
import TreeGrammar.Proofs.Publish.Residue
import TreeGrammar.Proofs.Publish.Success

set_option autoImplicit false

namespace TreeGrammar

/-- No stamp makes a name of a module, and nothing stands in the empty tree. -/
theorem fresh_fileNames {grammar : Grammar} (sound : grammar.Sound) {stamps : Nat → Text}
    (plain : ∀ time, '.' ∉ stamps time ∧ '/' ∉ stamps time) (directory : Path) :
    Fresh .empty directory stamps (grammar.families.map Family.fileName) := by
  have isFile : ∀ name ∈ grammar.families.map Family.fileName,
      ∃ family : Family, Grammar.IsName family.name ∧ family.fileName = name := by
    intro name member
    obtain ⟨family, isFamily, rfl⟩ := List.mem_map.1 member
    exact ⟨family, (sound.wellFormed.families family isFamily).name, rfl⟩
  have single : ∀ name ∈ grammar.families.map Family.fileName, Path.IsComponent name := by
    intro name member
    obtain ⟨family, named, rfl⟩ := isFile name member
    exact isComponent_fileName named
  have unpointed : ∀ rest, '.' :: rest ∉ grammar.families.map Family.fileName := by
    intro rest member
    obtain ⟨family, named, same⟩ := isFile _ member
    exact fileName_ne_pointed named rest same
  have empty : Tree.empty.Sound := fun location name there => by
    simp [Tree.entryAt, Tree.empty, Keyed.get?] at there
  have avoids : Tree.empty.Avoids fun _ => True :=
    Tree.avoids_of_entries fun entry listed => absurd listed List.not_mem_nil
  have vacant : ∀ {folder : Path} {name : Text} (entry : Entry), Path.IsComponent name →
      name ≠ Path.back → Tree.empty.look (folder.join name) ≠ .ok (some entry) :=
    fun entry isSingle forth => avoids.look empty isSingle forth trivial entry
  refine ⟨single, Grammar.nodup_fileNames.2 sound.modules, plain, fun name member time => ?_,
    fun name member time entry => ?_⟩
  · rw [tempName_eq, backupName_eq]
    exact ⟨unpointed _, unpointed _⟩
  · exact ⟨vacant entry (isComponent_tempName (single name member) (plain time).2)
        (tempName_ne_back _ _),
      vacant entry (isComponent_backupName (single name member) (plain time).2)
        (backupName_ne_back _ _)⟩

namespace CommandLine

open Publish (Truthful)

variable {world : World} {directory : Text} {value : GrammarValue} {strict : Bool}

/-- The status that a run ends with, unless it is broken off. -/
def Ending.status? : Ending → Option Nat
  | .exit last => some last.status
  | .nul => none

/-- The endings of a run that a file has stopped, or a NUL in a name. -/
def Ending.Stopped (ending : Ending) : Prop :=
  ending.status? = some fileStatus ∨ ending.status? = none

theorem Ending.Stopped.status_ne {ending : Ending} (stopped : ending.Stopped) :
    ending.status? ≠ some 0 ∧ ending.status? ≠ some usageStatus ∧
      ending.status? ≠ some dataStatus := by
  rcases stopped with same | same
  all_goals
    rw [same]
    decide

/-! ## The grammar of a run -/

/-- The grammar is what the file holds that the command line names, or the built-in one. -/
def GrammarValue.Names (value : GrammarValue) (tree : Tree) (grammar : Grammar) : Prop :=
  match value.file? with
  | none => Grammar.load Lox.grammarText = .ok grammar
  | some file => ∃ octets, tree.read file = .ok octets ∧ Grammar.loadFile octets = .ok grammar

theorem GrammarValue.Names.sound {tree : Tree} {grammar : Grammar}
    (names : value.Names tree grammar) : grammar.Sound := by
  unfold Names at names
  split at names
  · exact Grammar.sound_of_load names
  · obtain ⟨octets, -, loaded⟩ := names
    rw [Grammar.loadFile, bind_eq_ok_iff] at loaded
    obtain ⟨text, -, loaded⟩ := loaded
    exact Grammar.sound_of_load loaded

theorem loadReporting_bind {α : Type} (text : Text)
    (next : Except Grammar.Error Grammar → Script α) (world : World) :
    ((loadReporting text).bind next).run world = (next (Grammar.load text)).run world ∧
      ((loadReporting text).bind next).calls world = (next (Grammar.load text)).calls world := by
  simp only [loadReporting, Script.bind_assoc, Script.run_bind, Script.calls_bind,
    Script.run_notes, Script.calls_notes, Script.bind, List.nil_append, and_self]

/-! ## What a run does -/

/-- Once its grammar is loaded or refused, a run does nothing more, or it publishes what is
rendered. -/
theorem runGrammar_cases (loaded : Except Grammar.Error Grammar) (world : World) :
    let script := runGrammar directory value strict loaded
    ((script.run world).2 = world ∧ (script.run world).1.status? = some dataStatus) ∨
    ∃ grammar files, loaded = .ok grammar ∧ grammar.render strict = .ok files ∧
      let publishing := Publish.publish files (.ofText directory)
      (script.run world).2 = (publishing.run world).2 ∧
      script.calls world = publishing.calls world ∧
      (((∃ paths, (publishing.run world).1 = .ok paths) ∧
          (script.run world).1.status? = some 0) ∨ (script.run world).1.Stopped) := by
  cases loaded with
  | error error => exact .inl ⟨rfl, rfl⟩
  | ok grammar =>
      cases rendered : grammar.render strict with
      | error error =>
          refine .inl ?_
          simp only [runGrammar, Generation.generate, rendered, Script.bind, Script.run]
          exact ⟨trivial, rfl⟩
      | ok files =>
          refine .inr ⟨grammar, files, rfl, rendered, ?_⟩
          intro publishing
          simp only [runGrammar, Generation.generate, rendered, Script.bind_assoc,
            Script.run_bind, Script.calls_bind, Script.run_notes, Script.calls_notes,
            List.nil_append]
          rcases publishing.run world with ⟨failure | paths, last⟩
          · cases failure with
            | unwritable path cause => exact ⟨rfl, List.append_nil _, .inr (.inl rfl)⟩
            | system cause => exact ⟨rfl, List.append_nil _, .inr (.inl rfl)⟩
            | nul => exact ⟨rfl, List.append_nil _, .inr (.inr rfl)⟩
          · exact ⟨rfl, List.append_nil _, .inl ⟨⟨paths, rfl⟩, rfl⟩⟩

/-- A run cannot read the grammar file, or goes on with the grammar that is loaded or refused. -/
theorem runGenerate_cases (directory : Text) (value : GrammarValue) (strict : Bool)
    (world : World) :
    let script := runGenerate directory value strict
    ((script.run world).2.tree = world.tree ∧ (script.run world).1.Stopped) ∨
    ∃ opened loaded, opened.tree = world.tree ∧ opened.stamps = world.stamps ∧
      script.run world = (runGrammar directory value strict loaded).run opened ∧
      (runGrammar directory value strict loaded).calls opened ⊆ script.calls world ∧
      ∀ grammar, loaded = .ok grammar → value.Names world.tree grammar := by
  intro script
  simp only [script, runGenerate, GrammarValue.Names]
  cases value.file? with
  | none =>
      generalize Lox.grammarText = text
      obtain ⟨runs, calls⟩ :=
        loadReporting_bind text (runGrammar directory value strict) world
      refine .inr ⟨world, Grammar.load text, rfl, rfl, runs, ?_, fun grammar same => same⟩
      simp only [calls]
      exact List.Subset.refl _
  | some file =>
      by_cases nul : file.hasNul = true
      · simp only [nul, if_true]
        exact .inl ⟨rfl, .inr rfl⟩
      · simp only [nul, Bool.false_eq_true, if_false]
        rcases world.answer_cases (.read file) with
          ⟨cause, refused⟩ | ⟨octets, tree, granted, got, -⟩
        · rw [Script.run_call refused]
          exact .inl ⟨rfl, .inl rfl⟩
        · obtain ⟨holds, rfl⟩ := World.attempt_read got
          cases decoded : Grammar.decodeFile octets with
          | error error =>
              refine .inr ⟨world.changed world.tree, .error error, rfl, rfl, ?_, ?_,
                fun _ loaded => absurd loaded (by simp)⟩
              · rw [Script.run_call granted]
                simp only [decoded]
                rfl
              · rw [Script.calls_call granted]
                exact List.nil_subset _
          | ok text =>
              obtain ⟨runs, calls⟩ := loadReporting_bind text (runGrammar directory value strict)
                (world.changed world.tree)
              refine .inr ⟨world.changed world.tree, Grammar.load text, rfl, rfl, ?_, ?_,
                fun grammar loaded => ⟨octets, holds, ?_⟩⟩
              · rw [Script.run_call granted]
                simp only [decoded]
                exact runs
              · rw [Script.calls_call granted]
                simp only [decoded, calls]
                exact List.subset_cons_self _ _
              · rw [Grammar.loadFile, decoded]
                exact loaded

/-! ## What the status says -/

/-- A run that refuses its grammar has changed nothing. -/
theorem runGenerate_still
    (refused : ((runGenerate directory value strict).run world).1.status? = some usageStatus ∨
      ((runGenerate directory value strict).run world).1.status? = some dataStatus) :
    ((runGenerate directory value strict).run world).2.tree = world.tree := by
  rcases runGenerate_cases directory value strict world with
    ⟨same, -⟩ | ⟨opened, loaded, sameTree, -, runs, -, -⟩
  · exact same
  · rw [runs] at refused ⊢
    rcases runGrammar_cases loaded opened with
      ⟨same, -⟩ | ⟨-, -, -, -, -, -, ⟨-, status⟩ | stopped⟩
    · rw [same, sameTree]
    · rw [status] at refused
      exact absurd refused (by decide)
    · exact absurd refused (not_or.2 stopped.status_ne.2)

/-- The modules of a grammar stand in a directory, and nothing else has changed but that directories
have been made on the way there. -/
structure Generated (grammar : Grammar) (directory : Path) (before after : Tree) : Prop where
  modules : ∀ family ∈ grammar.families,
    after.read (directory.join family.fileName) = .ok (Text.encode (grammar.emit family))
  elsewhere : ∀ location,
    (∀ family ∈ grammar.families, ¬ after.Finds (directory.join family.fileName) true location) →
      after.entryAt location = before.entryAt location ∨
        (before.entryAt location = none ∧ after.entryAt location = some .directory ∧
          ∃ path ∈ directory :: directory.ancestors, after.Finds path true location)

theorem generated_of_publish {grammar : Grammar} {directory : Path} (isSound : grammar.Sound)
    (sound : world.tree.Sound) (plain : ∀ time, '.' ∉ world.stamps time ∧ '/' ∉ world.stamps time)
    (truthful : Truthful (Publish.publish (grammar.families.map grammar.ownFile) directory) world)
    {paths : List Path} (done : ((Publish.publish (grammar.families.map grammar.ownFile)
      directory).run world).1 = .ok paths) :
    Generated grammar directory world.tree
      ((Publish.publish (grammar.families.map grammar.ownFile) directory).run world).2.tree := by
  have names : (grammar.families.map grammar.ownFile).map Prod.fst =
      grammar.families.map Family.fileName := by
    rw [List.map_map]
    rfl
  have fresh := fresh_fileNames isSound plain directory
  have single : ∀ file ∈ grammar.families.map grammar.ownFile, Path.IsComponent file.1 :=
    fun file member => fresh.single _ (names ▸ List.mem_map_of_mem member)
  obtain ⟨made, here, -, madeSound, grown, houses, -, written⟩ :=
    Publish.publish_written sound (names ▸ fresh) truthful done
  refine ⟨fun family isFamily => ?_, fun location noTarget => ?_⟩
  · have member := List.mem_map_of_mem (f := grammar.ownFile) isFamily
    have reads := written.reads houses member (single _ member)
    rw [Grammar.ownFile] at reads
    exact reads
  · refine written.apart madeSound grown houses single fun file member => ?_
    obtain ⟨family, isFamily, rfl⟩ := List.mem_map.1 member
    exact noTarget family isFamily

/-- A run that succeeds has generated the modules of the grammar that it names. -/
theorem runGenerate_generates (sound : world.tree.Sound)
    (plain : ∀ time, '.' ∉ world.stamps time ∧ '/' ∉ world.stamps time)
    (truthful : Truthful (runGenerate directory value strict) world)
    (succeeded : ((runGenerate directory value strict).run world).1.status? = some 0) :
    ∃ grammar, value.Names world.tree grammar ∧
      grammar.render strict = .ok (grammar.families.map grammar.ownFile) ∧
      (strict = true → grammar.unresolved = []) ∧
      Generated grammar (.ofText directory) world.tree
        ((runGenerate directory value strict).run world).2.tree := by
  rcases runGenerate_cases directory value strict world with
    ⟨-, stopped⟩ | ⟨opened, loaded, sameTree, stamped, runs, within, names⟩
  · exact absurd succeeded stopped.status_ne.1
  · rw [runs] at succeeded ⊢
    rcases runGrammar_cases loaded opened with
      ⟨-, refused⟩ | ⟨grammar, files, rfl, rendered, ends, calls, ⟨⟨paths, done⟩, -⟩ | stopped⟩
    · rw [refused] at succeeded
      cases succeeded
    · have isSound := (names grammar rfl).sound
      obtain ⟨-, resolved, rfl⟩ := Grammar.render_eq_ok_iff.1 rendered
      have own := (Grammar.ownFiles_iff_nodup.2 (Grammar.nodup_fileNames.2 isSound.modules)).each
      rw [own] at rendered done ends calls
      refine ⟨grammar, names grammar rfl, rendered, resolved, ?_⟩
      rw [ends, ← sameTree]
      exact generated_of_publish isSound (sameTree ▸ sound) (stamped ▸ plain)
        (fun step called => truthful step (within (calls ▸ called))) done
    · exact absurd succeeded stopped.status_ne.1

/-- **What the status says**, whichever release takes the command line apart.  A run that ends with
the status of wrong usage or of a refused grammar leaves the tree as it was.  A run that generates and ends with status 0 has loaded the
grammar that its arguments name, in strict runs one that knows all names that it refers to; every
family's module stands in the output directory as it was rendered, and nothing else has changed but
that directories have been made on the way there. -/
theorem run_outcome (release : Release) (arguments : List Text) (world : World) :
    let outcome := (run arguments release).run world
    (outcome.1.status? = some usageStatus ∨ outcome.1.status? = some dataStatus →
      outcome.2.tree = world.tree) ∧
    ∀ directory value strict verbose,
      parse release arguments = .ok (.generate directory value strict verbose) →
      outcome.1.status? = some 0 → world.tree.Sound →
      (∀ time, '.' ∉ world.stamps time ∧ '/' ∉ world.stamps time) →
      Truthful (run arguments release) world →
        ∃ grammar, value.Names world.tree grammar ∧
          grammar.render strict = .ok (grammar.families.map grammar.ownFile) ∧
          (strict = true → grammar.unresolved = []) ∧
          Generated grammar (.ofText directory) world.tree outcome.2.tree := by
  intro outcome
  constructor
  · cases parsed : parse release arguments with
    | error error => simp [outcome, run, parsed, Script.run]
    | ok request =>
        cases request with
        | help => simp [outcome, run, parsed, Script.run]
        | generate directory value strict verbose =>
            simp only [outcome, run, parsed]
            exact runGenerate_still
  · intro directory value strict verbose parsed
    simp only [outcome, run, parsed]
    exact fun succeeded sound plain truthful =>
      runGenerate_generates sound plain truthful succeeded

/-- A grammar file, and nothing else. -/
def grammarWorld : World :=
  { Publish.emptyWorld with tree := ⟨[([['g']], .file (Text.encode "E \x7b A: \x7d"))]⟩ }

theorem grammarWorld_sound : grammarWorld.tree.Sound := by
  intro location name there
  rcases location with _ | ⟨first, rest⟩
  · exact Tree.entryAt_root _
  · simp [grammarWorld, Tree.entryAt, Keyed.get?] at there

/-- A run without an output directory, and one that generates into a directory that it makes. -/
theorem grammarWorld_outcome :
    let arguments : List Text := ["--grammar", "g", "--strict", "o"]
    ((run ["--strict"] .current).run grammarWorld).2.tree = grammarWorld.tree ∧
      ∃ grammar, (GrammarValue.path ['g']).Names grammarWorld.tree grammar ∧
        grammar.render true = .ok (grammar.families.map grammar.ownFile) ∧
        grammar.unresolved = [] ∧
        Generated grammar (.ofText ['o']) grammarWorld.tree
          ((run arguments .current).run grammarWorld).2.tree := by
  intro arguments
  have parsed : parse .current arguments = .ok (.generate ['o'] (.path ['g']) true false) := by
    decide +kernel
  have succeeded : ((run arguments .current).run grammarWorld).1.status? = some 0 := by
    decide +kernel
  have truthful : Truthful (run arguments .current) grammarWorld := by
    intro step called path _ cause denied
    rw [World.denial, (Script.calls_world called).1] at denied
    exact absurd denied (by simp [grammarWorld, Publish.emptyWorld])
  obtain ⟨grammar, names, rendered, resolved, generated⟩ :=
    (run_outcome .current arguments grammarWorld).2 _ _ _ _ parsed succeeded grammarWorld_sound
      (fun _ => by simp [grammarWorld, Publish.emptyWorld]) truthful
  exact ⟨(run_outcome .current ["--strict"] grammarWorld).1 (by decide +kernel), grammar, names,
    rendered, resolved rfl, generated⟩

end CommandLine

end TreeGrammar
