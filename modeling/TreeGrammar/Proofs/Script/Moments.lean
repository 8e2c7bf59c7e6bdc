/-
# TreeGrammar.Proofs.Script.Moments -- the trees that a run goes through

The moments of a run are the tree that it starts from and the trees behind its calls, so
whatever breaks a run off leaves one of them.  The moments of two scripts that follow
each other are those of the one and then those of the other (`moments_bind`).

What holds at the start and is broken by no call holds at every moment
(`moments_invariant`).  A script that makes calls of one sort only need not be run for
this: it is enough that no granted call of the sort breaks it (`Asks.invariant`).
-/
import TreeGrammar.Proofs.Script.Calls

set_option autoImplicit false

namespace TreeGrammar.Script

variable {α β : Type} {script : Script α} {world : World}

/-- The tree before a script and the trees behind its calls, in order. -/
def moments (script : Script α) (world : World) : List Tree :=
  world.tree :: script.trees world

theorem moments_call {asked : Call} {next : Except Refusal asked.Answer → Script α}
    {after : World} {answer : Except Refusal asked.Answer}
    (answered : world.answer asked = (answer, after)) :
    (Script.call asked next).moments world = world.tree :: (next answer).moments after := by
  rw [moments, trees, answered]
  rfl

theorem moments_bind (script : Script α) (next : α → Script β) (world : World) :
    (script.bind next).moments world =
      script.moments world ++ (next (script.run world).1).trees (script.run world).2 := by
  rw [moments, trees_bind, moments, List.cons_append]

theorem end_mem_moments (script : Script α) (world : World) :
    (script.run world).2.tree ∈ script.moments world := by
  induction script generalizing world with
  | done result => exact List.mem_cons_self
  | note entry rest ih => exact ih world
  | call asked rest ih => exact List.mem_cons_of_mem _ (ih _ _)

/-- A moment of two scripts is one of the first or of the second. -/
theorem mem_moments_bind {next : α → Script β} {tree : Tree}
    (member : tree ∈ (script.bind next).moments world) :
    tree ∈ script.moments world ∨
      tree ∈ (next (script.run world).1).moments (script.run world).2 := by
  rw [moments_bind, List.mem_append] at member
  exact member.imp_right (List.mem_cons_of_mem _)

/-- What only makes something of a result adds no moment. -/
theorem mem_moments_of_still {next : α → Script β} {tree : Tree}
    (still : ∀ result, ∃ last, next result = .done last)
    (member : tree ∈ (script.bind next).moments world) : tree ∈ script.moments world := by
  obtain ⟨last, same⟩ := still (script.run world).1
  rw [moments_bind, same, trees, List.append_nil] at member
  exact member

/-- A moment of two runs that follow each other is one of the first, or the first is over. -/
theorem moment_cases {first second earlier later : List Tree} {tree : Tree}
    (split : first ++ second = earlier ++ tree :: later) :
    tree ∈ first ∨ ∃ between, second = between ++ tree :: later ∧ earlier = first ++ between := by
  rcases List.append_eq_append_iff.1 split with ⟨middle, front, back⟩ | ⟨middle, front, back⟩
  · exact .inr ⟨middle, back, front⟩
  · cases middle with
    | nil => exact .inr ⟨[], back.symm, by simp [front]⟩
    | cons head rest =>
        rw [List.cons_append, List.cons.injEq] at back
        exact .inl (by simp [front, back.1])

/-- **Invariants along runs.**  What holds at the start and is broken by no call holds at every
moment. -/
theorem moments_invariant {invariant : Tree → Prop} (start : invariant world.tree)
    (kept : ∀ step ∈ script.calls world, invariant step.1.tree →
      invariant (step.1.answer step.2).2.tree) :
    ∀ tree ∈ script.moments world, invariant tree := by
  induction script generalizing world with
  | done result => exact List.forall_mem_singleton.2 start
  | note entry rest ih => exact ih start kept
  | call asked rest ih =>
      obtain ⟨first, later⟩ := List.forall_mem_cons.1 kept
      exact List.forall_mem_cons.2 ⟨start, ih _ (first start) later⟩

/-- A refused call changes nothing, so what no granted call of the sort breaks holds at every
moment. -/
theorem Asks.invariant {sort : Call → Prop} {invariant : Tree → Prop} (asks : script.Asks sort)
    (start : invariant world.tree)
    (kept : ∀ (world : World) (asked : Call) (result : asked.Answer) (after : Tree), sort asked →
      invariant world.tree → world.attempt asked = .ok (result, after) → invariant after) :
    ∀ tree ∈ script.moments world, invariant tree := by
  refine moments_invariant start fun step member holds => ?_
  rcases step.1.answer_cases step.2 with ⟨cause, same⟩ | ⟨result, after, same, done, -⟩
  · rw [same]
    exact holds
  · rw [same]
    exact kept step.1 step.2 result after (asks.of_mem member) holds done

theorem moments_sound (sound : world.tree.Sound) :
    ∀ tree ∈ script.moments world, tree.Sound :=
  moments_invariant sound fun step _ => step.1.answer_sound step.2

/-- A script that removes no directory keeps all of them at every moment. -/
theorem moments_keeps (asks : script.Asks fun asked => ∀ path, asked ≠ .removeDirectory path) :
    ∀ tree ∈ script.moments world, world.tree.Keeps tree :=
  asks.invariant (Tree.Keeps.refl _) fun between asked _ _ other keeps done =>
    keeps.trans (between.attempt_preserves asked other done).keeps

end TreeGrammar.Script
