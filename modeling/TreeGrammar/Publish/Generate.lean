/-
# TreeGrammar.Publish.Generate -- the modules of a grammar, rendered and published

All modules are rendered before anything is written.
-/
import TreeGrammar.NodeModule.Render
import TreeGrammar.Publish.Basic

set_option autoImplicit false

namespace TreeGrammar

/-- Why a generation run fails. -/
inductive Generation.Failure where
  | grammar (error : Grammar.Error)
  | publish (failure : Publish.Failure)

namespace Generation

def renderedEntry (family : Family) : Log.Entry :=
  ⟨.debug, Publish.source,
    "rendered " ++ family.name ++ " with " ++ Text.natural family.variants.length ++ " variants"⟩

def generatedEntry (count : Nat) (directory : Text) : Log.Entry :=
  ⟨.info, Publish.source,
    "generated " ++ Text.natural count ++ " modules in " ++ directory⟩

/-- Publish the modules of a grammar into a directory; the paths written. -/
def generate (grammar : Grammar) (strict : Bool) (directory : Text) :
    Script (Except Failure (List Path)) :=
  match grammar.render strict with
  | .error error => .done (.error (.grammar error))
  | .ok files =>
      (Script.notes (grammar.families.map renderedEntry)).bind fun _ =>
        (Publish.publish files (.ofText directory)).bind fun
          | .error failure => .done (.error (.publish failure))
          | .ok paths => .note (generatedEntry paths.length directory) (.done (.ok paths))

end Generation

end TreeGrammar
