/-
# TreeGrammar.TypeRef.Basic -- the types of fields

A field type is a name, a sequence of a type or an optional type, so exactly one
name stands inside every type.  A name is a scalar, or it may be qualified: in
`Expr.Variable` the qualifier is `Expr` and the local name is `Variable`.
-/
import TreeGrammar.Keyed
import TreeGrammar.Text.Basic

set_option autoImplicit false

namespace TreeGrammar

/-- The type of a field. -/
inductive TypeRef where
  | named (name : Text)
  | sequence (element : TypeRef)
  | optional (inner : TypeRef)
  deriving DecidableEq

namespace TypeRef

/-- The grammar's scalars, each with the type that annotates it in a generated module. -/
def grammarScalars : List (Text × Text) :=
  [("Object", "object"), ("Value", "object"), ("String", "str"), ("Number", "float"),
    ("Double", "float"), ("Integer", "int"), ("Int", "int"), ("Boolean", "bool"), ("Nil", "None")]

/-- The types of the generated modules that a grammar may name as they are. -/
def builtinScalars : List Text :=
  ["object", "str", "float", "int", "bool", "bytes", "None"]

/-- The annotation of a scalar. -/
def scalarHint? (name : Text) : Option Text :=
  match Keyed.get? name grammarScalars with
  | some hint => some hint
  | none => if name ∈ builtinScalars then some name else none

def isScalar (name : Text) : Bool :=
  (scalarHint? name).isSome

/-- What stands before the first point of a name, if it has a point. -/
def qualifier? (name : Text) : Option Text :=
  if (Text.cut '.' name).2.isSome then some (Text.cut '.' name).1 else none

/-- What stands behind the last point of a name. -/
def localName (name : Text) : Text :=
  Text.afterLast '.' name

/-- The qualifier of a name, unless the name has none or an empty one. -/
def properQualifier? (name : Text) : Option Text :=
  match qualifier? name with
  | some [] => none
  | other => other

/-- The name inside a type. -/
def name : TypeRef → Text
  | .named name => name
  | .sequence element => element.name
  | .optional inner => inner.name

/-- The type as grammar text. -/
def text : TypeRef → Text
  | .named name => name
  | .sequence element => "List<" ++ element.text ++ ">"
  | .optional inner => "Optional<" ++ inner.text ++ ">"

end TypeRef

end TreeGrammar
