/-
# TreeGrammar.Proofs.Publish.Making -- what making the output directory changes

While the output directory is made, nothing comes or goes but directories on its way
(`prepare_grown`).  When it has been made, it is there, and the paths found missing are
those on its way that led to nothing before (`prepare_ok`).

Where the directory is there from the start, nothing is made at all
(`missing_of_grown`).
-/
import TreeGrammar.Proofs.Publish.Preparing
import TreeGrammar.Proofs.Script.Moments

set_option autoImplicit false

namespace TreeGrammar.Publish

variable {directory path : Path} {world : World}

/-! ## At every moment -/

theorem grown_of_attempt {asked : Call} {result : asked.Answer} {after : Tree}
    (makes : asked.Makes directory) (sound : world.tree.Sound)
    (done : world.attempt asked = .ok (result, after)) :
    Tree.Grown (directory :: directory.ancestors) world.tree after := by
  obtain ⟨preparing, onWay⟩ := makes
  cases asked with
  | «exists» path =>
      obtain ⟨-, -, -, rfl⟩ := World.attempt_exists done
      exact Tree.Grown.refl _ _
  | isDirectory path =>
      obtain ⟨-, -, -, rfl⟩ := World.attempt_isDirectory done
      exact Tree.Grown.refl _ _
  | makeDirectory path =>
      refine (Tree.grown_of_makeDirectory sound (World.attempt_makeDirectory done)).mono ?_
      exact List.cons_subset.2 ⟨onWay path rfl, List.nil_subset _⟩
  | _ => simp [Call.isPreparing] at preparing

/-- **Making a directory.**  At every moment the tree is sound, and it has nothing new but
directories on the way of the one that is made. -/
theorem prepare_grown (sound : world.tree.Sound) :
    ∀ tree ∈ (prepare directory).moments world,
      tree.Sound ∧ Tree.Grown (directory :: directory.ancestors) world.tree tree := by
  refine (prepare_makes directory).invariant ⟨sound, Tree.Grown.refl _ _⟩ ?_
  rintro between asked result after makes ⟨betweenSound, grown⟩ done
  have more := grown_of_attempt makes betweenSound done
  have afterSound : after.Sound := by
    refine (between.attempt_preserves asked ?_ done).sound betweenSound
    rintro path rfl
    exact absurd makes.1 (by simp [Call.isPreparing])
  exact ⟨afterSound, grown.trans betweenSound more⟩

/-- Where something new stands on the way of a directory, the directory was not there. -/
theorem missing_of_grown {tree after : Tree} {location : Location} (sound : tree.Sound)
    (grown : Tree.Grown (directory :: directory.ancestors) tree after)
    (free : tree.entryAt location = none) (there : after.entryAt location ≠ none) :
    tree.look directory ≠ .ok (some .directory) := by
  intro looked
  obtain ⟨entry, stands⟩ := Option.ne_none_iff_exists'.1 there
  obtain ⟨-, path, member, finds⟩ := grown.added location entry free stands
  have old : tree.look path = .ok (some .directory) := by
    rcases List.mem_cons.1 member with rfl | above
    · exact looked
    · exact Tree.look_ancestors looked above
  obtain ⟨place, findsOld, standsOld⟩ := Tree.exists_finds_of_look old
  have same := finds.unique (findsOld.keeps sound grown.keeps)
  rw [← same, free] at standsOld
  exact absurd standsOld (by simp)

/-! ## When it has been made -/

theorem missingAmong_ok {paths created : List Path}
    (done : ((missingAmong paths).run world).1 = .ok created) :
    created = paths.filter (fun path => world.tree.look path = .ok none) ∧
      ∀ path ∈ paths, ∃ found, world.tree.look path = .ok found := by
  induction paths generalizing world created with
  | nil => exact ⟨(Except.ok.inj done).symm, by simp⟩
  | cons path rest ih =>
      rw [missingAmong] at done
      rcases world.answer_cases (.exists path) with
        ⟨cause, refused⟩ | ⟨there, tree, granted, made, -⟩
      · rw [Script.run_call refused] at done
        exact absurd done (by simp [Script.run])
      · obtain ⟨found, looked, rfl, rfl⟩ := World.attempt_exists made
        rw [Script.run_call granted, Script.run_bind] at done
        cases others : ((missingAmong rest).run (world.changed world.tree)).1 with
        | error cause =>
            rw [others] at done
            exact absurd done (by simp [Script.run, Except.map])
        | ok more =>
            obtain ⟨rfl, looks⟩ := ih others
            rw [others] at done
            refine ⟨?_, List.forall_mem_cons.2 ⟨⟨found, looked⟩, looks⟩⟩
            rw [← Except.ok.inj done]
            cases found with
            | none => rw [List.filter_cons_of_pos (by simp [looked])]; rfl
            | some entry => rw [List.filter_cons_of_neg (by simp [looked])]; rfl

/-- Once a directory has been made, or found after a refusal, it is there. -/
theorem look_of_made (sound : world.tree.Sound)
    {otherwise : Refusal → Script (Except Refusal Unit)}
    (later : ∀ cause, ((otherwise cause).run world.tick).1 = .ok () →
      ((otherwise cause).run world.tick).2.tree.look path = .ok (some .directory)) :
    let outcome := (Script.call (.makeDirectory path) fun
      | .ok _ => .done (.ok ())
      | .error cause => if cause.reason = .missing then otherwise cause
          else acceptDirectory path cause).run world
    outcome.1 = .ok () → outcome.2.tree.look path = .ok (some .directory) := by
  intro outcome
  simp only [outcome]
  rcases world.answer_cases (.makeDirectory path) with
    ⟨cause, refused⟩ | ⟨_, after, granted, done, -⟩
  · rw [Script.run_call refused]
    by_cases missing : cause.reason = .missing
    · simp only [missing, if_true]
      exact later cause
    · simp only [missing, if_false, acceptDirectory]
      rcases world.tick.answer_cases (.isDirectory path) with
        ⟨other, refusedToo⟩ | ⟨there, tree, granted, done, -⟩
      · rw [Script.run_call refusedToo]
        exact fun none => absurd none (by simp [Script.run])
      · rw [Script.run_call granted]
        obtain ⟨entry, found, rfl, rfl⟩ := World.attempt_isDirectory done
        rw [World.tick_tree] at found
        by_cases isDirectory : entry = some .directory <;>
          simp [Script.run, isDirectory, found]
  · rw [Script.run_call granted]
    exact fun _ => Tree.look_makeDirectory sound (World.attempt_makeDirectory done)

theorem makeDirectory_ok (sound : world.tree.Sound)
    (done : ((makeDirectory path).run world).1 = .ok ()) :
    ((makeDirectory path).run world).2.tree.look path = .ok (some .directory) := by
  refine look_of_made sound (fun cause later => ?_) done
  exact absurd later (by simp [Script.run])

theorem makeDirectories_ok {absolute : Bool} {names : List Text} (sound : world.tree.Sound)
    (done : ((makeDirectories absolute names).run world).1 = .ok ()) :
    ((makeDirectories absolute names).run world).2.tree.look ⟨absolute, names.reverse⟩ =
      .ok (some .directory) := by
  cases names with
  | nil => exact makeDirectory_ok sound done
  | cons name above =>
      refine look_of_made sound (fun cause later => ?_) done
      rw [Script.run_bind] at later ⊢
      cases made : ((makeDirectories absolute above).run world.tick).1 with
      | error other =>
          rw [made] at later
          exact absurd later (by simp [Script.run])
      | ok _ =>
          rw [made] at later
          exact makeDirectory_ok (Script.run_sound _ sound) later

/-- **A directory that has been made** is there, and the paths that were found missing are those
on its way that led to nothing. -/
theorem prepare_ok {created : List Path} (sound : world.tree.Sound)
    (done : ((prepare directory).run world).1 = .ok created) :
    ((prepare directory).run world).2.tree.look directory = .ok (some .directory) ∧
      created = (directory :: directory.ancestors).filter
        (fun path => world.tree.look path = .ok none) ∧
      ∀ path ∈ directory :: directory.ancestors, ∃ found, world.tree.look path = .ok found := by
  rw [prepare, Script.run_bind] at done ⊢
  cases found : ((missingAmong (directory :: directory.ancestors)).run world).1 with
  | error cause =>
      rw [found] at done
      exact absurd done (by simp [Script.run])
  | ok missing =>
      rw [found] at done
      rw [Script.run_bind] at done ⊢
      cases made : ((makeDirectories directory.absolute directory.parts.reverse).run
          ((missingAmong (directory :: directory.ancestors)).run world).2).1 with
      | error cause =>
          rw [made] at done
          exact absurd done (by simp [Script.run])
      | ok _ =>
          rw [made] at done
          obtain rfl := Except.ok.inj done
          have looked := makeDirectories_ok (Script.run_sound _ sound) made
          rw [List.reverse_reverse] at looked
          exact ⟨looked, missingAmong_ok found⟩

/-- The directory that has been made houses files. -/
theorem prepare_houses {created : List Path} (sound : world.tree.Sound)
    (done : ((prepare directory).run world).1 = .ok created) :
    ∃ here, ((prepare directory).run world).2.tree.Houses directory here := by
  obtain ⟨here, -, leads⟩ := Tree.leads_of_look (prepare_ok sound done).1
  exact ⟨here, leads, (Script.run_sound _ sound).above (by rw [leads.entryAt]; simp)⟩

/-! ## Publishing behind it -/

section Publishing

variable {ν τ : Type} [Text.Wording ν] [Text.Wording τ] {files : List (ν × τ)}

/-- A path with a NUL character is looked at only. -/
theorem publish_of_nul (nul : directory.hasNul = true) :
    publish files directory = lookThrough directory := by
  simp [publish, nul]

theorem lookThrough_moments (directory : Path) (world : World) :
    ∀ tree ∈ (lookThrough directory).moments world, world.tree = tree := by
  refine (lookThrough_asks directory).invariant rfl ?_
  rintro between asked result after ⟨path, rfl⟩ same done
  obtain ⟨-, -, -, rfl⟩ := World.attempt_exists done
  exact same

/-- Where the directory cannot be made, nothing else is done. -/
theorem publish_unprepared (plain : directory.hasNul = false) {failure : Failure}
    (done : ((prepare directory).run world).1 = .error failure) :
    (publish files directory).run world = (.error failure, ((prepare directory).run world).2) ∧
      (publish files directory).calls world = (prepare directory).calls world ∧
      (publish files directory).moments world = (prepare directory).moments world := by
  simp only [publish, plain, Bool.false_eq_true, if_false, Script.run_bind, Script.calls_bind,
    Script.moments_bind, done, Script.run, Script.calls, Script.trees, List.append_nil, and_self]

/-- Once the directory has been made, publishing is an attempt and its conclusion. -/
theorem publish_prepared (files : List (ν × τ)) (plain : directory.hasNul = false)
    {created : List Path} (done : ((prepare directory).run world).1 = .ok created) :
    let start := ((prepare directory).run world).2
    (publish files directory).run world =
        ((attempt files directory).bind (conclude created)).run start ∧
      (publish files directory).calls world = (prepare directory).calls world ++
        ((attempt files directory).bind (conclude created)).calls start ∧
      (publish files directory).moments world = (prepare directory).moments world ++
        ((attempt files directory).bind (conclude created)).trees start := by
  have steps : ∀ next : Except Failure (List Path) → Script (Except Failure (List Path)),
      ((prepare directory).bind next).run world =
          (next (.ok created)).run ((prepare directory).run world).2 ∧
        ((prepare directory).bind next).calls world = (prepare directory).calls world ++
          (next (.ok created)).calls ((prepare directory).run world).2 ∧
        ((prepare directory).bind next).moments world = (prepare directory).moments world ++
          (next (.ok created)).trees ((prepare directory).run world).2 := by
    intro next
    rw [Script.run_bind, Script.calls_bind, Script.moments_bind, done]
    exact ⟨rfl, rfl, rfl⟩
  simp only [publish, plain, Bool.false_eq_true, if_false]
  exact steps _

end Publishing

end TreeGrammar.Publish
