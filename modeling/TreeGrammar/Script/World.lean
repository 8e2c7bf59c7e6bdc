/-
# TreeGrammar.Script.World -- scripts carried out on a tree of files

A world is a tree together with all that the tree does not decide: which calls
fail for other reasons, and the random parts of fresh names.  `Script.run` gives
the result and the world at the end, `Script.trees` the tree behind every call
and `Script.log` what was reported.
-/
import TreeGrammar.Directory.Tree
import TreeGrammar.Script.Basic

set_option autoImplicit false

namespace TreeGrammar

open Refusal (Reason)

structure World where
  tree : Tree
  /-- The number of calls answered so far. -/
  clock : Nat
  /-- The random part of the fresh name made at a point of time. -/
  stamps : Nat → Text
  /-- The calls that are refused whatever the tree is. -/
  faults : Nat → Call → Option Refusal

/-- The name of a temporary file. -/
def tempName (stem stamp : Text) : Text :=
  ['.'] ++ stem ++ "." ++ stamp ++ ".tmp"

/-- The path of a temporary file; its directory is named without `..`. -/
def tempPath (directory : Path) (stem stamp : Text) : Path :=
  directory.collapsed.join (tempName stem stamp)

namespace World

/-- The answer to a call that only the tree decides, and the tree behind the call. -/
def attempt (world : World) : (asked : Call) → Except Reason (asked.Answer × Tree)
  | .exists path => (world.tree.look path).map fun found => (found.isSome, world.tree)
  | .isDirectory path =>
      (world.tree.look path).map fun found => (found = some .directory, world.tree)
  | .read path => (world.tree.read path).map fun content => (content, world.tree)
  | .makeDirectory path => (world.tree.makeDirectory path).map fun tree => ((), tree)
  | .createTemp directory stem =>
      let path := tempPath directory stem (world.stamps world.clock)
      (world.tree.createFile path).map fun tree => (path, tree)
  | .write path content => (world.tree.writeFile path content).map fun tree => ((), tree)
  | .publish path => (world.tree.read path).map fun _ => ((), world.tree)
  | .link existing new => (world.tree.link existing new).map fun tree => ((), tree)
  | .replace source target => (world.tree.rename source target).map fun tree => ((), tree)
  | .removeFile path => (world.tree.removeFile path).map fun tree => ((), tree)
  | .removeDirectory path => (world.tree.removeDirectory path).map fun tree => ((), tree)

/-- The world one call later. -/
def tick (world : World) : World :=
  { world with clock := world.clock + 1 }

/-- The answer to a call that nothing but the tree refuses. -/
def perform (world : World) (asked : Call) : Except Refusal asked.Answer × World :=
  match world.attempt asked with
  | .error reason => (.error ⟨reason, asked.subjects⟩, world.tick)
  | .ok (answer, tree) => (.ok answer, { world.tick with tree := tree })

/-- The answer to a call. -/
def answer (world : World) (asked : Call) : Except Refusal asked.Answer × World :=
  match world.faults world.clock asked with
  | some refusal => (.error refusal, world.tick)
  | none => world.perform asked

end World

namespace Script

variable {α β : Type}

/-- The result of a script and the world at its end. -/
def run : Script α → World → α × World
  | .done result, world => (result, world)
  | .note _ next, world => next.run world
  | .call asked next, world => (next (world.answer asked).1).run (world.answer asked).2

/-- The trees behind the calls of a script, in order. -/
def trees : Script α → World → List Tree
  | .done _, _ => []
  | .note _ next, world => next.trees world
  | .call asked next, world =>
      (world.answer asked).2.tree :: (next (world.answer asked).1).trees (world.answer asked).2

/-- The reports of a script, in order. -/
def log : Script α → World → List Log.Entry
  | .done _, _ => []
  | .note entry next, world => entry :: next.log world
  | .call asked next, world => (next (world.answer asked).1).log (world.answer asked).2

theorem run_bind (script : Script α) (next : α → Script β) (world : World) :
    (script.bind next).run world = (next (script.run world).1).run (script.run world).2 := by
  induction script generalizing world with
  | done result => rfl
  | note entry rest ih => exact ih world
  | call asked rest ih => exact ih _ _

theorem trees_bind (script : Script α) (next : α → Script β) (world : World) :
    (script.bind next).trees world =
      script.trees world ++ (next (script.run world).1).trees (script.run world).2 := by
  induction script generalizing world with
  | done result => rfl
  | note entry rest ih => exact ih world
  | call asked rest ih => exact congrArg (_ :: ·) (ih _ _)

end Script

end TreeGrammar
