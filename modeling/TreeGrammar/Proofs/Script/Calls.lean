/-
# TreeGrammar.Proofs.Script.Calls -- the calls of a run

`Script.calls` are the calls that a run makes, each with the world it is made in;
`Script.Grants` says that a run makes a call which is not refused, and
`Script.Asks` that a script makes calls of one sort only, in whatever world.

A refused call changes nothing but the clock; a granted one does to the tree what
the tree's own operation does (`World.answer_cases`).  So a sound tree stays sound
along every run (`Script.run_sound`), a run that removes no directory keeps all of them
(`Script.run_keeps`) and those that it makes (`Script.run_adds`), and one that makes none
adds none (`Script.run_adds_none`).
-/
import TreeGrammar.Proofs.Directory.Sound
import TreeGrammar.Script.World

set_option autoImplicit false

namespace TreeGrammar

/-! ## One answer -/

namespace World

variable (world : World) (asked : Call)

/-- The refusal that the call meets whatever the tree is. -/
def denial : Option Refusal :=
  world.faults world.clock asked

/-- Whether the call is not refused. -/
def Grants : Prop :=
  ∃ result, (world.answer asked).1 = .ok result

@[simp] theorem tick_tree : world.tick.tree = world.tree := rfl

@[simp] theorem tick_stamps : world.tick.stamps = world.stamps := rfl

@[simp] theorem tick_faults : world.tick.faults = world.faults := rfl

/-- The world behind a granted call. -/
def changed (tree : Tree) : World :=
  { world.tick with tree := tree }

@[simp] theorem changed_tree (tree : Tree) : (world.changed tree).tree = tree := rfl

@[simp] theorem changed_stamps (tree : Tree) : (world.changed tree).stamps = world.stamps := rfl

@[simp] theorem changed_faults (tree : Tree) : (world.changed tree).faults = world.faults := rfl

/-- A call is refused and leaves the tree alone, or is not denied and does what the tree allows. -/
theorem answer_cases :
    (∃ cause, world.answer asked = (.error cause, world.tick)) ∨
    ∃ result tree, world.answer asked = (.ok result, world.changed tree) ∧
      world.attempt asked = .ok (result, tree) ∧ world.denial asked = none := by
  unfold answer perform denial
  cases denied : world.faults world.clock asked with
  | some cause => exact .inl ⟨cause, rfl⟩
  | none =>
      cases tried : world.attempt asked with
      | error reason => exact .inl ⟨_, rfl⟩
      | ok outcome => exact .inr ⟨outcome.1, outcome.2, rfl, rfl, rfl⟩

theorem answer_of_attempt {world : World} {asked : Call} {result : asked.Answer} {tree : Tree}
    (free : world.denial asked = none) (tried : world.attempt asked = .ok (result, tree)) :
    world.answer asked = (.ok result, world.changed tree) := by
  unfold denial at free
  simp [answer, perform, free, tried, changed]

theorem answer_of_denial {world : World} {asked : Call} {cause : Refusal}
    (denied : world.denial asked = some cause) :
    world.answer asked = (.error cause, world.tick) := by
  unfold denial at denied
  simp [answer, denied]

theorem answer_of_refusal {world : World} {asked : Call} {reason : Refusal.Reason}
    (free : world.denial asked = none) (tried : world.attempt asked = .error reason) :
    world.answer asked = (.error ⟨reason, asked.subjects⟩, world.tick) := by
  unfold denial at free
  simp [answer, perform, free, tried]

@[simp] theorem answer_stamps : (world.answer asked).2.stamps = world.stamps := by
  rcases world.answer_cases asked with ⟨cause, same⟩ | ⟨result, tree, same, -⟩ <;> simp [same]

@[simp] theorem answer_faults : (world.answer asked).2.faults = world.faults := by
  rcases world.answer_cases asked with ⟨cause, same⟩ | ⟨result, tree, same, -⟩ <;> simp [same]

section Attempt

variable {world : World} {tree : Tree} {path directory source target : Path} {stem : Text}
variable {content : Text.Octets} {there : Bool} {result : Unit}

theorem attempt_exists (done : world.attempt (.exists path) = .ok (there, tree)) :
    ∃ found, world.tree.look path = .ok found ∧ there = found.isSome ∧ tree = world.tree := by
  cases found : world.tree.look path with
  | error reason => simp [attempt, found, Except.map] at done
  | ok entry =>
      simp only [attempt, found, Except.map, Except.ok.injEq, Prod.mk.injEq] at done
      exact ⟨entry, rfl, done.1.symm, done.2.symm⟩

theorem attempt_isDirectory (done : world.attempt (.isDirectory path) = .ok (there, tree)) :
    ∃ found, world.tree.look path = .ok found ∧ there = decide (found = some .directory) ∧
      tree = world.tree := by
  cases found : world.tree.look path with
  | error reason => simp [attempt, found, Except.map] at done
  | ok entry =>
      simp only [attempt, found, Except.map, Except.ok.injEq, Prod.mk.injEq] at done
      exact ⟨entry, rfl, done.1.symm, done.2.symm⟩

theorem attempt_read (done : world.attempt (.read path) = .ok (content, tree)) :
    world.tree.read path = .ok content ∧ tree = world.tree := by
  cases got : world.tree.read path <;> simp [attempt, got, Except.map] at done
  exact ⟨congrArg _ done.1, done.2.symm⟩

theorem attempt_makeDirectory (done : world.attempt (.makeDirectory path) = .ok (result, tree)) :
    world.tree.makeDirectory path = .ok tree := by
  cases made : world.tree.makeDirectory path <;> simp [attempt, made, Except.map] at done
  rw [done]

theorem attempt_createTemp (done : world.attempt (.createTemp directory stem) = .ok (path, tree)) :
    path = tempPath directory stem (world.stamps world.clock) ∧
      world.tree.createFile path = .ok tree := by
  cases made : world.tree.createFile (tempPath directory stem (world.stamps world.clock)) with
  | error reason => simp [attempt, made, Except.map] at done
  | ok after =>
      simp only [attempt, made, Except.map, Except.ok.injEq, Prod.mk.injEq] at done
      rw [← done.1, ← done.2, made]
      exact ⟨rfl, rfl⟩

theorem attempt_write (done : world.attempt (.write path content) = .ok (result, tree)) :
    world.tree.writeFile path content = .ok tree := by
  cases made : world.tree.writeFile path content <;> simp [attempt, made, Except.map] at done
  rw [done]

theorem attempt_publish (done : world.attempt (.publish path) = .ok (result, tree)) :
    tree = world.tree := by
  cases got : world.tree.read path <;> simp [attempt, got, Except.map] at done
  exact done.symm

theorem attempt_link (done : world.attempt (.link source target) = .ok (result, tree)) :
    world.tree.link source target = .ok tree := by
  cases made : world.tree.link source target <;> simp [attempt, made, Except.map] at done
  rw [done]

theorem attempt_replace (done : world.attempt (.replace source target) = .ok (result, tree)) :
    world.tree.rename source target = .ok tree := by
  cases made : world.tree.rename source target <;> simp [attempt, made, Except.map] at done
  rw [done]

theorem attempt_removeFile (done : world.attempt (.removeFile path) = .ok (result, tree)) :
    world.tree.removeFile path = .ok tree := by
  cases made : world.tree.removeFile path <;> simp [attempt, made, Except.map] at done
  rw [done]

theorem attempt_removeDirectory
    (done : world.attempt (.removeDirectory path) = .ok (result, tree)) :
    world.tree.removeDirectory path = .ok tree := by
  cases made : world.tree.removeDirectory path <;> simp [attempt, made, Except.map] at done
  rw [done]

end Attempt

/-- Every call but the removal of a directory keeps the directories. -/
theorem attempt_preserves {result : asked.Answer} {tree : Tree}
    (other : ∀ path, asked ≠ .removeDirectory path)
    (done : world.attempt asked = .ok (result, tree)) : world.tree.Preserves tree := by
  cases asked with
  | «exists» path =>
      obtain ⟨-, -, -, rfl⟩ := attempt_exists done
      exact Tree.Preserves.refl _
  | isDirectory path =>
      obtain ⟨-, -, -, rfl⟩ := attempt_isDirectory done
      exact Tree.Preserves.refl _
  | read path => exact (attempt_read done).2 ▸ Tree.Preserves.refl _
  | makeDirectory path => exact Tree.makeDirectory_preserves (attempt_makeDirectory done)
  | createTemp directory stem => exact Tree.createFile_preserves (attempt_createTemp done).2
  | write path content => exact Tree.writeFile_preserves (attempt_write done)
  | publish path => exact attempt_publish done ▸ Tree.Preserves.refl _
  | link existing new => exact Tree.link_preserves (attempt_link done)
  | replace source target => exact Tree.rename_preserves (attempt_replace done)
  | removeFile path => exact Tree.removeFile_preserves (attempt_removeFile done)
  | removeDirectory path => exact absurd rfl (other path)

/-- Every call but the making of a directory has each directory from before it. -/
theorem attempt_adds_none {result : asked.Answer} {after : Tree}
    (other : ∀ path, asked ≠ .makeDirectory path)
    (done : world.attempt asked = .ok (result, after)) : after.Keeps world.tree := by
  cases asked with
  | «exists» path =>
      obtain ⟨-, -, -, rfl⟩ := attempt_exists done
      exact Tree.Keeps.refl _
  | isDirectory path =>
      obtain ⟨-, -, -, rfl⟩ := attempt_isDirectory done
      exact Tree.Keeps.refl _
  | read path => exact (attempt_read done).2 ▸ Tree.Keeps.refl _
  | makeDirectory path => exact absurd rfl (other path)
  | createTemp directory stem =>
      obtain ⟨-, made⟩ := attempt_createTemp done
      obtain ⟨there, finds, -⟩ := Tree.exists_place made
      exact Tree.keeps_of_put (by simp) (Tree.createFile_ok finds made).2.2
  | write path content =>
      have written := attempt_write done
      obtain ⟨there, finds, -⟩ := Tree.exists_place written
      exact Tree.keeps_of_put (by simp) (Tree.writeFile_ok finds written).2.2
  | publish path => exact attempt_publish done ▸ Tree.Keeps.refl _
  | link existing new =>
      obtain ⟨-, there, content, -, -, -, -, changed⟩ := Tree.link_changes (attempt_link done)
      exact Tree.keeps_of_put (by simp) changed
  | replace source target => exact Tree.rename_adds_none (attempt_replace done)
  | removeFile path =>
      have removed := attempt_removeFile done
      obtain ⟨there, finds, -⟩ := Tree.exists_place removed
      obtain ⟨-, content, -, changed⟩ := Tree.removeFile_ok finds removed
      exact Tree.keeps_of_put (by simp) changed
  | removeDirectory path => exact Tree.removeDirectory_adds_none (attempt_removeDirectory done)

theorem answer_keeps (other : ∀ path, asked ≠ .removeDirectory path) :
    world.tree.Keeps (world.answer asked).2.tree := by
  rcases world.answer_cases asked with ⟨cause, same⟩ | ⟨result, tree, same, done, -⟩
  · rw [same]
    exact Tree.Keeps.refl _
  · rw [same]
    exact (world.attempt_preserves asked other done).keeps

theorem answer_sound (sound : world.tree.Sound) : (world.answer asked).2.tree.Sound := by
  rcases world.answer_cases asked with ⟨cause, same⟩ | ⟨result, tree, same, done, -⟩
  · rwa [same]
  · rw [same]
    by_cases other : ∀ path, asked ≠ .removeDirectory path
    · exact (world.attempt_preserves asked other done).sound sound
    · push Not at other
      obtain ⟨path, rfl⟩ := other
      exact Tree.removeDirectory_sound (attempt_removeDirectory done) sound

end World

/-! ## All answers of a run -/

namespace Script

variable {α β : Type}

/-- The calls that a script makes, each with the world it is made in. -/
def calls : Script α → World → List (World × Call)
  | .done _, _ => []
  | .note _ next, world => next.calls world
  | .call asked next, world =>
      (world, asked) :: (next (world.answer asked).1).calls (world.answer asked).2

theorem run_call {asked : Call} {next : Except Refusal asked.Answer → Script α}
    {world after : World} {answer : Except Refusal asked.Answer}
    (answered : world.answer asked = (answer, after)) :
    (Script.call asked next).run world = (next answer).run after := by
  rw [run, answered]

theorem calls_call {asked : Call} {next : Except Refusal asked.Answer → Script α}
    {world after : World} {answer : Except Refusal asked.Answer}
    (answered : world.answer asked = (answer, after)) :
    (Script.call asked next).calls world = (world, asked) :: (next answer).calls after := by
  rw [calls, answered]

theorem calls_bind (script : Script α) (next : α → Script β) (world : World) :
    (script.bind next).calls world =
      script.calls world ++ (next (script.run world).1).calls (script.run world).2 := by
  induction script generalizing world with
  | done result => rfl
  | note entry rest ih => exact ih world
  | call asked rest ih => exact congrArg (_ :: ·) (ih _ _)

theorem mem_calls_left {script : Script α} {next : α → Script β} {world : World}
    {step : World × Call} (member : step ∈ script.calls world) :
    step ∈ (script.bind next).calls world := by
  rw [calls_bind]
  exact List.mem_append_left _ member

theorem mem_calls_right {script : Script α} {next : α → Script β} {world : World}
    {step : World × Call} (member : step ∈ (next (script.run world).1).calls (script.run world).2) :
    step ∈ (script.bind next).calls world := by
  rw [calls_bind]
  exact List.mem_append_right _ member

@[simp] theorem run_notes (entries : List Log.Entry) (world : World) :
    (notes entries).run world = ((), world) := by
  induction entries with
  | nil => rfl
  | cons entry rest ih => exact ih

@[simp] theorem calls_notes (entries : List Log.Entry) (world : World) :
    (notes entries).calls world = [] := by
  induction entries with
  | nil => rfl
  | cons entry rest ih => exact ih

/-- The script makes the call, and the call is not refused. -/
def Grants (script : Script α) (world : World) (asked : Call) : Prop :=
  ∃ before, (before, asked) ∈ script.calls world ∧ before.Grants asked

theorem not_grants_done {result : α} {world : World} {asked : Call} :
    ¬ (Script.done result).Grants world asked := by
  rintro ⟨before, member, -⟩
  exact absurd member List.not_mem_nil

theorem grants_note {entry : Log.Entry} {next : Script α} {world : World} {asked : Call} :
    (Script.note entry next).Grants world asked ↔ next.Grants world asked :=
  Iff.rfl

section Call

variable {asked other : Call} {next : Except Refusal asked.Answer → Script α}
variable {world after : World}

theorem grants_of_granted {result : asked.Answer}
    (answered : world.answer asked = (.ok result, after)) :
    (Script.call asked next).Grants world other ↔
      other = asked ∨ (next (.ok result)).Grants after other := by
  simp only [Grants, calls_call answered, List.mem_cons, or_and_right, exists_or]
  refine or_congr_left ⟨?_, ?_⟩
  · rintro ⟨before, same, -⟩
    exact congrArg Prod.snd same
  · rintro rfl
    exact ⟨world, rfl, result, by rw [answered]⟩

theorem grants_of_refused {cause : Refusal}
    (answered : world.answer asked = (.error cause, after)) :
    (Script.call asked next).Grants world other ↔ (next (.error cause)).Grants after other := by
  simp only [Grants, calls_call answered, List.mem_cons, or_and_right, exists_or]
  refine or_iff_right ?_
  rintro ⟨before, same, result, granted⟩
  cases same
  rw [answered] at granted
  exact absurd granted (by simp)

end Call

theorem grants_bind {script : Script α} {next : α → Script β} {world : World} {asked : Call} :
    (script.bind next).Grants world asked ↔ script.Grants world asked ∨
      (next (script.run world).1).Grants (script.run world).2 asked := by
  simp only [Grants, calls_bind, List.mem_append, or_and_right, exists_or]

/-- What only makes something of a result calls nothing. -/
theorem bind_still {script : Script α} {next : α → Script β}
    (still : ∀ result, ∃ last, next result = .done last) (world : World) :
    ((script.bind next).run world).2 = (script.run world).2 ∧
      ∀ asked, (script.bind next).Grants world asked ↔ script.Grants world asked := by
  obtain ⟨last, same⟩ := still (script.run world).1
  rw [run_bind, same]
  refine ⟨rfl, fun asked => ?_⟩
  rw [grants_bind, same, or_iff_left not_grants_done]

/-- The script makes only calls of one sort, however they are answered. -/
def Asks (sort : Call → Prop) : Script α → Prop
  | .done _ => True
  | .note _ next => next.Asks sort
  | .call asked next => sort asked ∧ ∀ answer, (next answer).Asks sort

variable {sort other : Call → Prop} {script : Script α}

theorem asks_bind {next : α → Script β} (first : script.Asks sort)
    (later : ∀ result, (next result).Asks sort) : (script.bind next).Asks sort := by
  induction script with
  | done result => exact later result
  | note entry rest ih => exact ih first
  | call asked rest ih => exact ⟨first.1, fun answer => ih answer (first.2 answer)⟩

theorem Asks.mono (asks : script.Asks sort) (weaker : ∀ asked, sort asked → other asked) :
    script.Asks other := by
  induction script with
  | done result => trivial
  | note entry rest ih => exact ih asks
  | call asked rest ih => exact ⟨weaker _ asks.1, fun answer => ih answer (asks.2 answer)⟩

theorem Asks.of_mem (asks : script.Asks sort) {world : World} {step : World × Call}
    (member : step ∈ script.calls world) : sort step.2 := by
  induction script generalizing world with
  | done result => exact absurd member List.not_mem_nil
  | note entry rest ih => exact ih asks member
  | call asked rest ih =>
      rcases List.mem_cons.1 member with rfl | later
      · exact asks.1
      · exact ih _ (asks.2 _) later

theorem Asks.of_grants (asks : script.Asks sort) {world : World} {asked : Call}
    (granted : script.Grants world asked) : sort asked := by
  obtain ⟨before, member, -⟩ := granted
  exact asks.of_mem member

/-- However its calls are answered, the script gives a result of one sort only. -/
def Gives (wanted : α → Prop) : Script α → Prop
  | .done result => wanted result
  | .note _ next => next.Gives wanted
  | .call _ next => ∀ answer, (next answer).Gives wanted

theorem gives_bind {wanted : α → Prop} {last : β → Prop} {next : α → Script β}
    (first : script.Gives wanted) (later : ∀ result, wanted result → (next result).Gives last) :
    (script.bind next).Gives last := by
  induction script with
  | done result => exact later result first
  | note entry rest ih => exact ih first
  | call asked rest ih => exact fun answer => ih answer (first answer)

theorem Gives.run {wanted : α → Prop} (gives : script.Gives wanted) (world : World) :
    wanted (script.run world).1 := by
  induction script generalizing world with
  | done result => exact gives
  | note entry rest ih => exact ih gives world
  | call asked rest ih => exact ih _ (gives _) _

/-! ## What lasts through a run -/

@[simp] theorem run_stamps (script : Script α) (world : World) :
    (script.run world).2.stamps = world.stamps := by
  induction script generalizing world with
  | done result => rfl
  | note entry rest ih => exact ih world
  | call asked rest ih => rw [run, ih, World.answer_stamps]

@[simp] theorem run_faults (script : Script α) (world : World) :
    (script.run world).2.faults = world.faults := by
  induction script generalizing world with
  | done result => rfl
  | note entry rest ih => exact ih world
  | call asked rest ih => rw [run, ih, World.answer_faults]

/-- What the system denies, and the stamps, are the same in every world of a run. -/
theorem calls_world {script : Script α} {world : World} {step : World × Call}
    (member : step ∈ script.calls world) :
    step.1.faults = world.faults ∧ step.1.stamps = world.stamps := by
  induction script generalizing world with
  | done result => exact absurd member List.not_mem_nil
  | note entry rest ih => exact ih member
  | call asked rest ih =>
      rcases List.mem_cons.1 member with rfl | later
      · exact ⟨rfl, rfl⟩
      · obtain ⟨faults, stamps⟩ := ih _ later
        exact ⟨faults.trans (world.answer_faults asked), stamps.trans (world.answer_stamps asked)⟩

/-- **Soundness along runs.**  What is read, written and removed in a run leaves a sound tree
sound, whichever calls are refused. -/
theorem run_sound (script : Script α) {world : World} (sound : world.tree.Sound) :
    (script.run world).2.tree.Sound := by
  induction script generalizing world with
  | done result => exact sound
  | note entry rest ih => exact ih sound
  | call asked rest ih => exact ih _ (world.answer_sound asked sound)

/-- A run that removes no directory keeps all of them. -/
theorem run_keeps_of_calls {world : World}
    (others : ∀ step ∈ script.calls world, ∀ path, step.2 ≠ .removeDirectory path) :
    world.tree.Keeps (script.run world).2.tree := by
  induction script generalizing world with
  | done result => exact Tree.Keeps.refl _
  | note entry rest ih => exact ih others
  | call asked rest ih =>
      obtain ⟨first, later⟩ := List.forall_mem_cons.1 others
      exact (world.answer_keeps asked first).trans (ih _ later)

theorem run_keeps (asks : script.Asks fun asked => ∀ path, asked ≠ .removeDirectory path)
    (world : World) : world.tree.Keeps (script.run world).2.tree :=
  run_keeps_of_calls fun _ member => asks.of_mem member

/-- Where the making of no directory is granted, none comes. -/
theorem run_adds_none {world : World}
    (none : ∀ path, ¬ script.Grants world (.makeDirectory path)) :
    (script.run world).2.tree.Keeps world.tree := by
  induction script generalizing world with
  | done result => exact Tree.Keeps.refl _
  | note entry rest ih => exact ih none
  | call asked rest ih =>
      rcases world.answer_cases asked with ⟨cause, refused⟩ | ⟨result, after, granted, done, -⟩
      · rw [run_call refused]
        exact ih _ fun path later => none path ((grants_of_refused refused).2 later)
      · rw [run_call granted]
        have others : ∀ path, asked ≠ .makeDirectory path := fun path same =>
          none path ((grants_of_granted granted).2 (.inl same.symm))
        refine Tree.Keeps.trans (ih _ fun path later => ?_)
          (world.attempt_adds_none asked others done)
        exact none path ((grants_of_granted granted).2 (.inr later))

/-- A directory that is made stays, unless the run removes some. -/
theorem run_adds {world : World} {path : Path} (made : script.Grants world (.makeDirectory path))
    (others : ∀ step ∈ script.calls world, ∀ path, step.2 ≠ .removeDirectory path) :
    ¬ (script.run world).2.tree.Keeps world.tree := by
  intro same
  induction script generalizing world with
  | done result => exact not_grants_done made
  | note entry rest ih => exact ih made others same
  | call asked rest ih =>
      obtain ⟨first, later⟩ := List.forall_mem_cons.1 others
      have keeps := world.answer_keeps asked first
      rcases world.answer_cases asked with ⟨cause, refused⟩ | ⟨result, after, granted, done, -⟩
      · rw [refused] at later
        rw [run_call refused] at same
        exact ih _ ((grants_of_refused refused).1 made) later same
      · rw [granted] at keeps later
        rw [run_call granted] at same
        rcases (grants_of_granted granted).1 made with rfl | after
        · have changed := World.attempt_makeDirectory done
          obtain ⟨there, finds, -⟩ := Tree.exists_place changed
          obtain ⟨-, free, becomes⟩ := Tree.makeDirectory_ok finds changed
          have stays := same there (run_keeps_of_calls later there (by
            rw [World.changed_tree, becomes, Function.update_self]))
          exact absurd (free.symm.trans stays) (by simp)
        · exact ih _ after later (same.trans keeps)

end Script

end TreeGrammar
