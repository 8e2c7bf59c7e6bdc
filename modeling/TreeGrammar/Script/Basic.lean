/-
# TreeGrammar.Script.Basic -- runs as sequences of system calls

A script says which calls a run makes, in which order, and how each answer decides
what comes next.  It can be carried out on a tree of files (`TreeGrammar.Script.World`)
or by the system itself.

The system has two ways to ask whether a path leads to something, one that follows a
symbolic link at its end (asked of the output directory and its parents) and one that does
not (asked of the targets).  They differ where a link leads nowhere.  Trees have no links,
so one call stands for both.
-/
import TreeGrammar.Directory.Path
import TreeGrammar.Directory.Refusal
import TreeGrammar.Log
import TreeGrammar.Text.Utf8

set_option autoImplicit false

namespace TreeGrammar

/-- What a run may ask of the system. -/
inductive Call where
  /-- Whether a path leads to something. -/
  | exists (path : Path)
  /-- Whether a path leads to a directory. -/
  | isDirectory (path : Path)
  | read (path : Path)
  | makeDirectory (path : Path)
  /-- Make an empty file with a fresh name made from `stem`. -/
  | createTemp (directory : Path) (stem : Text)
  | write (path : Path) (content : Text.Octets)
  /-- Let everyone read a file. -/
  | publish (path : Path)
  | link (existing new : Path)
  | replace (source target : Path)
  | removeFile (path : Path)
  | removeDirectory (path : Path)
  deriving DecidableEq

/-- The type of the answer to a call that is not refused. -/
@[reducible] def Call.Answer : Call → Type
  | .exists _ => Bool
  | .isDirectory _ => Bool
  | .read _ => Text.Octets
  | .makeDirectory _ => Unit
  | .createTemp _ _ => Path
  | .write _ _ => Unit
  | .publish _ => Unit
  | .link _ _ => Unit
  | .replace _ _ => Unit
  | .removeFile _ => Unit
  | .removeDirectory _ => Unit

/-- The texts of the paths that a refused call is reported with. -/
def Call.subjects : Call → List Text
  | .exists path => [path.text]
  | .isDirectory path => [path.text]
  | .read path => [path.text]
  | .makeDirectory path => [path.text]
  | .createTemp directory _ => [directory.text]
  | .write path _ => [path.text]
  | .publish path => [path.text]
  | .link existing new => [existing.text, new.text]
  | .replace source target => [source.text, target.text]
  | .removeFile path => [path.text]
  | .removeDirectory path => [path.text]

/-- A run that ends with a result. -/
inductive Script (α : Type) where
  | done (result : α)
  | note (entry : Log.Entry) (next : Script α)
  | call (asked : Call) (next : Except Refusal asked.Answer → Script α)

namespace Script

variable {α β : Type}

/-- A script and then another one that depends on its result. -/
def bind : Script α → (α → Script β) → Script β
  | .done result, next => next result
  | .note entry rest, next => .note entry (rest.bind next)
  | .call asked rest, next => .call asked fun answer => (rest answer).bind next

instance : Monad Script where
  pure := .done
  bind := Script.bind

/-- Reports without anything else. -/
def notes (entries : List Log.Entry) : Script Unit :=
  entries.foldr .note (.done ())

theorem bind_done (script : Script α) : script.bind .done = script := by
  induction script with
  | done result => rfl
  | note entry rest ih => simp [Script.bind, ih]
  | call asked rest ih => simp [Script.bind, ih]

theorem bind_assoc {γ : Type} (script : Script α) (next : α → Script β) (last : β → Script γ) :
    (script.bind next).bind last = script.bind fun result => (next result).bind last := by
  induction script with
  | done result => rfl
  | note entry rest ih => simp [Script.bind, ih]
  | call asked rest ih => simp [Script.bind, ih]

end Script

end TreeGrammar
