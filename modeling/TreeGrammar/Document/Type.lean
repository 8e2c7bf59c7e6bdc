/-
# TreeGrammar.Document.Type -- what can be asked of a type in a document

In a document the place of a type or a name may hold any value, so printing a
type, asking for the name inside it and annotating it can fail.
-/
import TreeGrammar.Document.Basic
import TreeGrammar.Json.Shown
import TreeGrammar.NodeModule.TypeHint

set_option autoImplicit false

namespace TreeGrammar.Document

/-- Whether a value can be looked up among names. -/
def isComparable : Json → Bool
  | .array _ => false
  | .object _ => false
  | _ => true

namespace TypeForm

/-- Why a form is no type. -/
inductive Fault where
  /-- A text is asked for, and what stands in the place of a name is none. -/
  | nameNotText
  /-- The name inside a value that is no type is asked for. -/
  | noNames
  /-- A name is looked up among others, and is or holds an array. -/
  | notComparable
  /-- A name that is no text is taken apart. -/
  | noParts
  /-- A value that is no type is annotated. -/
  | unsupported (content : Json)

def unsupportedMessage (content : Json) : Text :=
  "Unsupported type reference: " ++ Json.shown content

/-- The form as grammar text. -/
def text : TypeForm → Except Fault Text
  | .value content => .ok (Json.inserted content)
  | .named (.value (.text name)) => .ok name
  | .named _ => .error .nameNotText
  | .sequence element => return "List<" ++ (← element.text) ++ ">"
  | .optional inner => return "Optional<" ++ (← inner.text) ++ ">"

/-- Whether no array stands in the place of a name or type. -/
def comparable : TypeForm → Bool
  | .value content => isComparable content
  | .named name => name.comparable
  | .sequence element => element.comparable
  | .optional inner => inner.comparable

/-- What stands in the place of the name inside the form. -/
def inside : TypeForm → Except Fault TypeForm
  | .value _ => .error .noNames
  | .named name => .ok name
  | .sequence element => element.inside
  | .optional inner => inner.inside

/-- The text that stands in the place of a name.  It is looked for among the scalars and then
taken apart. -/
def needName : TypeForm → Except Fault Text
  | .value (.text name) => .ok name
  | form => .error (if form.comparable then .noParts else .notComparable)

/-- The name inside the form. -/
def name (form : TypeForm) : Except Fault Text := do
  (← form.inside).needName

/-- The annotation of the form, where the families are known. -/
def hint (families : List Text) : TypeForm → Except Fault Text
  | .value content => .error (.unsupported content)
  | .named name => return nameHint families (← name.needName)
  | .sequence element => return sequenceHint (← element.hint families)
  | .optional inner => return optionalHint (← inner.hint families)

end TypeForm

end TreeGrammar.Document
