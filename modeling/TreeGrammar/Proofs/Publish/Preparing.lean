/-
# TreeGrammar.Proofs.Publish.Preparing -- publishing into a directory that is there

Where the directory is there already, making it changes nothing and finds nothing to
be taken back later (`prepare_there`).  The files are then staged from the tree as it
was, so publishing is an attempt and its conclusion (`publish_there`).
-/
import TreeGrammar.Proofs.Directory.Growth
import TreeGrammar.Proofs.Script.Calls
import TreeGrammar.Publish.Basic

set_option autoImplicit false

namespace TreeGrammar

/-- Calls that look for directories or make them. -/
def Call.isPreparing : Call → Bool
  | .exists _ => true
  | .isDirectory _ => true
  | .makeDirectory _ => true
  | _ => false

/-- Calls that look for directories or make one on the way of a path. -/
def Call.Makes (directory : Path) (asked : Call) : Prop :=
  asked.isPreparing ∧
    ∀ path, asked = .makeDirectory path → path ∈ directory :: directory.ancestors

namespace Publish

/-- No call of the script meets a refusal that the tree does not make. -/
def Undenied {α : Type} (script : Script α) (world : World) : Prop :=
  ∀ step ∈ script.calls world, step.1.denial step.2 = none

variable {directory : Path} {world : World}

theorem missingAmong_asks (paths : List Path) :
    (missingAmong paths).Asks fun asked => ∃ path, asked = .exists path := by
  induction paths with
  | nil => trivial
  | cons path rest ih =>
      refine ⟨⟨path, rfl⟩, fun found => ?_⟩
      cases found with
      | error cause => trivial
      | ok there => exact Script.asks_bind ih fun _ => trivial

theorem makeDirectory_asks (path : Path) :
    (makeDirectory path).Asks fun asked =>
      asked = .makeDirectory path ∨ asked = .isDirectory path := by
  refine ⟨.inl rfl, fun made => ?_⟩
  cases made with
  | ok _ => trivial
  | error cause =>
      by_cases missing : cause.reason = .missing
      · simp only [missing, if_true]
        trivial
      · simp only [missing, if_false]
        exact ⟨.inr rfl, fun found => by cases found <;> trivial⟩

/-- The directories that are made, and those that are asked for, lie on the way of the path. -/
theorem makeDirectories_asks (absolute : Bool) (names : List Text) :
    (makeDirectories absolute names).Asks fun asked => ∃ front, front <+: names.reverse ∧
      (asked = .makeDirectory ⟨absolute, front⟩ ∨ asked = .isDirectory ⟨absolute, front⟩) := by
  induction names with
  | nil => exact (makeDirectory_asks _).mono fun asked sort => ⟨[], List.prefix_rfl, sort⟩
  | cons name above ih =>
      refine ⟨⟨_, List.prefix_rfl, .inl rfl⟩, fun made => ?_⟩
      cases made with
      | ok _ => trivial
      | error cause =>
          by_cases missing : cause.reason = .missing
          · simp only [missing, if_true]
            refine Script.asks_bind (ih.mono ?_) fun outcome => ?_
            · rintro asked ⟨front, isPrefix, sort⟩
              refine ⟨front, ?_, sort⟩
              rw [List.reverse_cons]
              exact isPrefix.trans (List.prefix_append _ _)
            · cases outcome with
              | error other => trivial
              | ok _ =>
                  exact (makeDirectory_asks _).mono fun asked sort => ⟨_, List.prefix_rfl, sort⟩
          · simp only [missing, if_false]
            exact ⟨⟨_, List.prefix_rfl, .inr rfl⟩, fun found => by cases found <;> trivial⟩

theorem prepare_makes (directory : Path) : (prepare directory).Asks (Call.Makes directory) := by
  refine Script.asks_bind ((missingAmong_asks _).mono ?_) fun found => ?_
  · rintro asked ⟨path, rfl⟩
    exact ⟨rfl, fun _ other => nomatch other⟩
  cases found with
  | error cause => trivial
  | ok created =>
      refine Script.asks_bind ((makeDirectories_asks _ _).mono ?_) fun made => ?_
      · rintro asked ⟨front, isPrefix, rfl | rfl⟩
        · refine ⟨rfl, fun other same => ?_⟩
          rw [List.reverse_reverse] at isPrefix
          rw [← Call.makeDirectory.inj same]
          exact Path.mem_ancestors_iff.2 ⟨rfl, isPrefix⟩
        · exact ⟨rfl, fun _ other => nomatch other⟩
      · cases made <;> trivial

theorem prepare_asks (directory : Path) :
    (prepare directory).Asks fun asked => asked.isPreparing :=
  (prepare_makes directory).mono fun _ makes => makes.1

/-! ## A directory that is there -/

theorem answer_exists_there {path : Path} {entry : Entry}
    (there : world.tree.look path = .ok (some entry))
    (free : world.denial (.exists path) = none) :
    world.answer (.exists path) = (.ok true, world.tick) :=
  World.answer_of_attempt free (by simp [World.attempt, there, Except.map])

theorem missingAmong_there {paths : List Path}
    (there : ∀ path ∈ paths, world.tree.look path = .ok (some .directory))
    (calm : Undenied (missingAmong paths) world) :
    ((missingAmong paths).run world).1 = .ok [] ∧
      ((missingAmong paths).run world).2.tree = world.tree := by
  induction paths generalizing world with
  | nil => exact ⟨rfl, rfl⟩
  | cons path rest ih =>
      obtain ⟨first, others⟩ := List.forall_mem_cons.1 there
      have answered := answer_exists_there first (calm _ List.mem_cons_self)
      have restCalm : Undenied (missingAmong rest) world.tick := by
        intro step member
        refine calm step ?_
        rw [missingAmong, Script.calls_call answered]
        exact List.mem_cons_of_mem _ (Script.mem_calls_left member)
      obtain ⟨result, same⟩ := @ih world.tick others restCalm
      rw [missingAmong, Script.run_call answered, Script.run_bind, result]
      exact ⟨rfl, same⟩

/-- Making a directory that is there is refused, and then it is seen to be there. -/
theorem made_there (there : world.tree.look directory = .ok (some .directory))
    {otherwise : Refusal → Script (Except Refusal Unit)}
    (calm : Undenied (.call (.makeDirectory directory) fun
      | .ok _ => .done (.ok ())
      | .error cause =>
          if cause.reason = .missing then otherwise cause else acceptDirectory directory cause)
      world) :
    let outcome := (Script.call (.makeDirectory directory) fun
      | .ok _ => .done (.ok ())
      | .error cause => if cause.reason = .missing then otherwise cause
          else acceptDirectory directory cause).run world
    outcome.1 = .ok () ∧ outcome.2.tree = world.tree := by
  obtain ⟨here, resolved, -⟩ := Tree.leads_of_look there
  have refused : world.tree.makeDirectory directory = .error .alreadyThere := by
    simp [Tree.makeDirectory, resolved, bind, Except.bind, throw, throwThe, MonadExceptOf.throw]
  have answered := World.answer_of_refusal (calm _ List.mem_cons_self)
    (show world.attempt (.makeDirectory directory) = .error .alreadyThere by
      rw [World.attempt, refused]; rfl)
  have seen : world.tick.answer (.isDirectory directory) = (.ok true, world.tick.tick) := by
    refine World.answer_of_attempt (calm (world.tick, .isDirectory directory) ?_) ?_
    · rw [Script.calls_call answered]
      exact List.mem_cons_of_mem _ List.mem_cons_self
    · simp [World.attempt, there, Except.map]
  rw [Script.run_call answered]
  simp only [reduceCtorEq, if_false, acceptDirectory]
  rw [Script.run_call seen]
  exact ⟨rfl, rfl⟩

theorem makeDirectories_there (there : world.tree.look directory = .ok (some .directory))
    (calm : Undenied (makeDirectories directory.absolute directory.parts.reverse) world) :
    let outcome := (makeDirectories directory.absolute directory.parts.reverse).run world
    outcome.1 = .ok () ∧ outcome.2.tree = world.tree := by
  obtain ⟨absolute, parts⟩ := directory
  rcases names : parts.reverse with _ | ⟨name, above⟩
  · rw [List.reverse_eq_nil_iff] at names
    subst names
    exact made_there there calm
  · have whole : parts = (name :: above).reverse := by rw [← names, List.reverse_reverse]
    subst whole
    rw [List.reverse_reverse] at calm
    exact made_there there calm

/-- **A directory that is there** is found, and nothing changes. -/
theorem prepare_there (there : world.tree.look directory = .ok (some .directory))
    (calm : Undenied (prepare directory) world) :
    ((prepare directory).run world).1 = .ok [] ∧
      ((prepare directory).run world).2.tree = world.tree := by
  have all : ∀ path ∈ directory :: directory.ancestors,
      world.tree.look path = .ok (some .directory) :=
    List.forall_mem_cons.2 ⟨there, fun path member => Tree.look_ancestors there member⟩
  obtain ⟨found, same⟩ := missingAmong_there all fun step member =>
    calm step (Script.mem_calls_left member)
  have calmThen : Undenied (makeDirectories directory.absolute directory.parts.reverse)
      ((missingAmong (directory :: directory.ancestors)).run world).2 := by
    intro step member
    refine calm step (Script.mem_calls_right ?_)
    rw [found]
    exact Script.mem_calls_left member
  obtain ⟨made, sameThen⟩ := makeDirectories_there (by rw [same, there]) calmThen
  rw [prepare, Script.run_bind, found, Script.run_bind, made]
  exact ⟨rfl, sameThen.trans same⟩

/-- **Publishing into a directory that is there** is an attempt and its conclusion. -/
theorem publish_there {files : List (Text × Text)} (plain : directory.hasNul = false)
    (there : world.tree.look directory = .ok (some .directory))
    (calm : Undenied (prepare directory) world) :
    let start := ((prepare directory).run world).2
    start.tree = world.tree ∧
      (publish files directory).run world =
        ((attempt files directory).bind (conclude [])).run start ∧
      (publish files directory).calls world = (prepare directory).calls world ++
        ((attempt files directory).bind (conclude [])).calls start := by
  obtain ⟨found, same⟩ := prepare_there there calm
  refine ⟨same, ?_, ?_⟩
  · simp only [publish, plain, Bool.false_eq_true, if_false]
    rw [Script.run_bind, found]
  · simp only [publish, plain, Bool.false_eq_true, if_false]
    rw [Script.calls_bind, found]

theorem lookThrough_asks (directory : Path) :
    (lookThrough directory).Asks fun asked => ∃ path, asked = .exists path := by
  refine Script.asks_bind (missingAmong_asks _) fun found => ?_
  cases found <;> trivial

/-- Looking changes nothing. -/
theorem run_of_exists {α : Type} {script : Script α}
    (asks : script.Asks fun asked => ∃ path, asked = .exists path) (world : World) :
    (script.run world).2.tree = world.tree := by
  induction script generalizing world with
  | done result => rfl
  | note entry rest ih => exact ih asks world
  | call asked rest ih =>
      obtain ⟨path, rfl⟩ := asks.1
      rw [Script.run, ih _ (asks.2 _)]
      rcases world.answer_cases (.exists path) with ⟨cause, same⟩ | ⟨found, tree, same, done, -⟩
      · rw [same]
        rfl
      · obtain ⟨-, -, -, rfl⟩ := World.attempt_exists done
        rw [same]
        rfl

end Publish

end TreeGrammar
