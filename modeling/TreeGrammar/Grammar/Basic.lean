/-
# TreeGrammar.Grammar.Basic -- families of nodes, their variants and fields

A grammar is a list of families and a list of uses.  A family is a closed set of
node shapes, its variants; a variant is a list of typed fields; a use names types
that come from elsewhere.  Order counts everywhere.  All look-ups by name find the
first of that name.
-/
import TreeGrammar.TypeRef.Basic

set_option autoImplicit false

namespace TreeGrammar

structure Field where
  name : Text
  type : TypeRef
  deriving DecidableEq

/-- One node shape. -/
structure Variant where
  name : Text
  fields : List Field
  deriving DecidableEq

/-- A closed set of node shapes with one visitor. -/
structure Family where
  name : Text
  variants : List Variant
  deriving DecidableEq

/-- Types that a generated module takes from another module, by its dotted path. -/
structure Use where
  path : Text
  names : List Text
  deriving DecidableEq

structure Grammar where
  families : List Family
  uses : List Use
  deriving DecidableEq

def Variant.fieldNames (variant : Variant) : List Text :=
  variant.fields.map Field.name

def Family.variantNames (family : Family) : List Text :=
  family.variants.map Variant.name

def Family.variant? (family : Family) (name : Text) : Option Variant :=
  family.variants.find? (·.name = name)

namespace Grammar

def familyNames (grammar : Grammar) : List Text :=
  grammar.families.map Family.name

def family? (grammar : Grammar) (name : Text) : Option Family :=
  grammar.families.find? (·.name = name)

/-- The used names, in order; a name that is used twice stands there twice. -/
def usedNames (grammar : Grammar) : List Text :=
  grammar.uses.flatMap Use.names

/-- The used names, each with the path it comes from: its first use fixes its place, its
last the path. -/
def importedNames (grammar : Grammar) : List (Text × Text) :=
  Keyed.ofList (grammar.uses.flatMap fun use => use.names.map fun name => (name, use.path))

end Grammar

end TreeGrammar
