/-
# TreeGrammar.NodeModule.TypeHint -- the annotations of fields

A scalar is annotated by its type, a variant behind a known family by its local
name and any other name by itself.  A sequence is annotated as a tuple.
-/
import TreeGrammar.Grammar.Basic

set_option autoImplicit false

namespace TreeGrammar

/-- The annotation of a name, where the families are known. -/
def nameHint (families : List Text) (name : Text) : Text :=
  match TypeRef.scalarHint? name with
  | some hint => hint
  | none =>
      match TypeRef.properQualifier? name with
      | none => name
      | some qualifier => if qualifier ∈ families then TypeRef.localName name else name

/-- The annotation of a sequence of what is annotated by `element`. -/
def sequenceHint (element : Text) : Text :=
  "tuple[" ++ element ++ ", ...]"

/-- The annotation of what may be absent, else is annotated by `inner`. -/
def optionalHint (inner : Text) : Text :=
  inner ++ " | None"

/-- The annotation of a type, where the families are known. -/
def TypeRef.hint (families : List Text) : TypeRef → Text
  | .named name => nameHint families name
  | .sequence element => sequenceHint (element.hint families)
  | .optional inner => optionalHint (inner.hint families)

end TreeGrammar
