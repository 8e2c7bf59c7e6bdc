/-
# TreeGrammar.NodeModule.Render -- the files generated for a grammar
-/
import TreeGrammar.Grammar.Validity
import TreeGrammar.NodeModule.Printer

set_option autoImplicit false

namespace TreeGrammar

/-- The refusal of a reference to a name that is not known. -/
def Reference.unknown (reference : Reference) : Grammar.Error :=
  .unknownType reference.family.name reference.variant.name reference.field.name reference.name

namespace Grammar

/-- The grammar must be valid; if `strict`, every name must be known as well. -/
def checkFor (grammar : Grammar) (strict : Bool) : Except Error Unit := do
  grammar.validate
  if strict then
    match grammar.unresolved with
    | [] => return ()
    | reference :: _ => throw reference.unknown

/-- The file names with their texts, a text replacing an earlier one of the same name. -/
def files (grammar : Grammar) : List (Text × Text) :=
  Keyed.ofList (grammar.families.map fun family => (family.fileName, grammar.emit family))

/-- The files generated for a grammar. -/
def render (grammar : Grammar) (strict : Bool) : Except Error (List (Text × Text)) := do
  grammar.checkFor strict
  return grammar.files

end Grammar

end TreeGrammar
