/-
# TreeGrammar.NodeModule.Basic -- what a generated module declares

The module of a family declares the family's base class, its visitor with one
operation for each variant, and one class for each variant.  A class with fields
that hold a sequence stores them as tuples when a node is made (`Freeze`).
-/
import TreeGrammar.Grammar.Name
import TreeGrammar.Grammar.Reference
import TreeGrammar.NodeModule.TypeHint

set_option autoImplicit false

namespace TreeGrammar

/-- An import of names from a module, by the module's path. -/
structure Import where
  path : Text
  names : List Text

/-- How a field comes to hold a tuple. -/
inductive Freeze where
  /-- The field is stored as a tuple. -/
  | always (field : Text)
  /-- The field is stored as a tuple unless it is absent. -/
  | ifPresent (field : Text)

/-- How a field of this type comes to hold a tuple, if it is a sequence or an optional one. -/
def Field.freeze? (field : Field) : Option Freeze :=
  match field.type with
  | .sequence _ => some (.always field.name)
  | .optional (.sequence _) => some (.ifPresent field.name)
  | _ => none

/-- The class of a variant. -/
structure NodeClass where
  name : Text
  /-- The fields with their annotations. -/
  fields : List (Text × Text)
  freezes : List Freeze
  /-- The visitor's operation for the class. -/
  operation : Text

/-- The module of a family. -/
structure NodeModule where
  family : Text
  visitor : Text
  /-- The imports from other packages. -/
  uses : List Import
  /-- The imports from the modules of other families. -/
  relatives : List Import
  classes : List NodeClass

/-- The class of one of a family's variants. -/
def Family.nodeClass (families : List Text) (family : Family) (variant : Variant) : NodeClass where
  name := variant.name
  fields := variant.fields.map fun field => (field.name, field.type.hint families)
  freezes := variant.fields.filterMap Field.freeze?
  operation := family.operationName variant

/-- The module of a family, which need not belong to the grammar. -/
def Grammar.nodeModule (grammar : Grammar) (family : Family) : NodeModule where
  family := family.name
  visitor := family.visitorName
  uses := grammar.uses.map fun use => ⟨use.path, use.names⟩
  relatives := (grammar.familyImports family).map fun entry =>
    ⟨'.' :: entry.1.moduleName, entry.2⟩
  classes := family.variants.map (family.nodeClass grammar.familyNames)

end TreeGrammar
