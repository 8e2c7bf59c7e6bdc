/-
# TreeGrammar.TypeRef.Kind -- the kinds of types and their tags

Each kind of type is known by a tag, which is what a document writes for it, and
has one member.  A further kind gets the tag that is chosen for it or one made
from its name, unless another kind has that tag or the name is none.
-/
import TreeGrammar.Text.LowerCase
import TreeGrammar.TypeRef.Basic

set_option autoImplicit false

namespace TreeGrammar.TypeRef

inductive Kind where
  | named
  | sequence
  | optional
  deriving DecidableEq

namespace Kind

def all : List Kind := [.named, .sequence, .optional]

def tag : Kind → Text
  | .named => "named"
  | .sequence => "sequence"
  | .optional => "optional"

/-- The key of the one member of a type of this kind. -/
def member : Kind → Text
  | .named => "name"
  | .sequence => "element"
  | .optional => "inner"

/-- The name by which messages speak of the kind. -/
def className : Kind → Text
  | .named => "NamedRef"
  | .sequence => "SequenceRef"
  | .optional => "OptionalRef"

def ofTag? (tag : Text) : Option Kind :=
  all.find? fun kind => kind.tag = tag

theorem ofTag?_tag (kind : Kind) : ofTag? kind.tag = some kind := by
  cases kind <;> decide

/-- The tag made from a name: the name in lower case, without `ref` at its end. -/
def tagOf (name : Text) : Text :=
  Text.dropEnd "ref" (Text.lower name)

/-- Why there can be no further kind. -/
inductive Refusal where
  /-- A NUL character stands in its name. -/
  | nulInName
  /-- Another kind has its tag. -/
  | taken (kind : Kind)
  deriving DecidableEq

/-- The tag of a further kind.  An empty choice is none. -/
def newTag (name : Text) (chosen : Option Text) : Except Refusal Text :=
  let tag := if chosen.getD [] = [] then tagOf name else chosen.getD []
  if '\x00' ∈ name then .error .nulInName
  else
    match ofTag? tag with
    | some kind => .error (.taken kind)
    | none => .ok tag

def Refusal.message : Refusal → Text
  | .nulInName => "type name must not contain null characters"
  | .taken kind =>
      "Tag '" ++ kind.tag ++ "' already registered to <class 'astgen.types." ++ kind.className
        ++ "'>. Choose a different tag."

end Kind

end TreeGrammar.TypeRef
