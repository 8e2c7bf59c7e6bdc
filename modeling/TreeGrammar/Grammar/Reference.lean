/-
# TreeGrammar.Grammar.Reference -- what the field types of a grammar refer to

A reference is a field with the variant and the family it stands in; what it
refers to is the name inside its type.  `Grammar.resolves` says whether a name is
known, `Grammar.familyImports` which other families a family needs and which of
their names.
-/
import TreeGrammar.Grammar.Basic

set_option autoImplicit false

namespace TreeGrammar

/-- A field in its place. -/
structure Reference where
  family : Family
  variant : Variant
  field : Field

/-- The name that is referred to. -/
def Reference.name (reference : Reference) : Text :=
  reference.field.type.name

/-- The names inside the field types of a family, in order. -/
def Family.referredNames (family : Family) : List Text :=
  family.variants.flatMap fun variant => variant.fields.map fun field => field.type.name

namespace Grammar

/-- The references of a grammar, in order. -/
def references (grammar : Grammar) : List Reference :=
  grammar.families.flatMap fun family =>
    family.variants.flatMap fun variant =>
      variant.fields.map fun field => ⟨family, variant, field⟩

/-- A name is known if it is a scalar, a used name, a family, or a variant behind its family. -/
def resolves (grammar : Grammar) (name : Text) : Bool :=
  if TypeRef.isScalar name || name ∈ grammar.usedNames then true
  else
    match TypeRef.qualifier? name with
    | none => (grammar.family? name).isSome
    | some qualifier =>
        match grammar.family? qualifier with
        | none => false
        | some family => (family.variant? (TypeRef.localName name)).isSome

/-- The references to names that are not known. -/
def unresolved (grammar : Grammar) : List Reference :=
  grammar.references.filter fun reference => !grammar.resolves reference.name

/-- The family that a name speaks of: its qualifier, or the whole name without one. -/
def target? (grammar : Grammar) (name : Text) : Option Family :=
  grammar.family? ((TypeRef.properQualifier? name).getD name)

/-- What a family needs of other families: pairs of a family and a local name. -/
def wantedNames (grammar : Grammar) (family : Family) : List (Text × Text) :=
  family.referredNames.filterMap fun name =>
    if TypeRef.isScalar name then none
    else
      match grammar.target? name with
      | none => none
      | some target =>
          if target.name = family.name then none else some (target.name, TypeRef.localName name)

/-- The other families that a family refers to, each with those of its own name and its
variants' names that are needed. -/
def familyImports (grammar : Grammar) (family : Family) : List (Family × List Text) :=
  let wanted := grammar.wantedNames family
  grammar.families.filterMap fun other =>
    if other.name ∈ wanted.map Prod.fst then
      let known := other.name :: other.variantNames
      some (other, known.filter fun name => (other.name, name) ∈ wanted)
    else none

end Grammar

end TreeGrammar
