/-
# TreeGrammar.Grammar.Validity -- whether the generated modules can define and import their names

Families are checked in order, and each family before its variants: its module
must have a name of its own that is no keyword, and no name may mean two things in
one module.  A family without a name hides no later one from having its module
name.  Field types are not checked here.
-/
import TreeGrammar.Grammar.Error
import TreeGrammar.Grammar.Name
import TreeGrammar.Grammar.Reference

set_option autoImplicit false

namespace TreeGrammar.Grammar

/-- The names that every generated module defines or imports itself. -/
def generatedNames : List Text :=
  ["ABC", "TYPE_CHECKING", "VARIANTS", "abstractmethod", "annotations", "dataclass", "dispatch",
    "final"]

/-- The names that no family and no variant may have. -/
def reservedNames (grammar : Grammar) : List Text :=
  generatedNames ++ grammar.usedNames

/-- The names that no variant of the family may have. -/
def takenNames (grammar : Grammar) (family : Family) : List Text :=
  grammar.reservedNames ++ [family.visitorName] ++ grammar.familyNames
    ++ (grammar.familyImports family).flatMap Prod.snd

/-- Check variants behind those with the names in `seen`. -/
def checkVariants (taken : List Text) (family : Text) (seen : List Text) :
    List Variant → Except Error Unit
  | [] => .ok ()
  | variant :: rest =>
      if variant.name ∈ seen then .error (.duplicate (.variant variant.name family) none)
      else if variant.name ∈ taken then .error (.clash (.variant family variant.name))
      else checkVariants taken family (variant.name :: seen) rest

/-- The family, other than a nameless one, that has the module name already. -/
def holder? (modules : List (Text × Text)) (moduleName : Text) : Option Text :=
  (Keyed.get? moduleName modules).filter (· ≠ [])

/-- The module of a family must have a name of its own that is no keyword. -/
def checkModule (modules : List (Text × Text)) (family : Family) : Except Error Unit :=
  if family.moduleName ∈ keywords then
    .error (.clash (.moduleKeyword family.name family.moduleName))
  else
    match holder? modules family.moduleName with
    | some first => .error (.duplicate (.moduleName first family.name family.moduleName) none)
    | none => .ok ()

/-- The name of a family must mean nothing else in its module. -/
def checkFamilyName (grammar : Grammar) (family : Family) : Except Error Unit :=
  if family.name ∈ grammar.reservedNames then .error (.clash (.generatedName family.name))
  else .ok ()

/-- The name of a family's visitor must mean nothing else in its module. -/
def checkVisitor (grammar : Grammar) (family : Family) : Except Error Unit :=
  if family.visitorName ∈ grammar.reservedNames ++ grammar.familyNames then
    .error (.clash (.visitor family.visitorName family.name))
  else .ok ()

/-- Check one family behind those with the modules in `modules`. -/
def checkFamily (grammar : Grammar) (modules : List (Text × Text)) (family : Family) :
    Except Error Unit := do
  checkModule modules family
  checkFamilyName grammar family
  checkVisitor grammar family
  checkVariants (grammar.takenNames family) family.name [] family.variants

/-- Check families behind those with the modules in `modules`. -/
def checkFamilies (grammar : Grammar) (modules : List (Text × Text)) :
    List Family → Except Error Unit
  | [] => .ok ()
  | family :: rest => do
      checkFamily grammar modules family
      checkFamilies grammar (Keyed.put family.moduleName family.name modules) rest

/-- The first clash of a grammar, if it has one. -/
def validate (grammar : Grammar) : Except Error Unit :=
  checkFamilies grammar [] grammar.families

end TreeGrammar.Grammar
