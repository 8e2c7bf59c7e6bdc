/-
# TreeGrammar.Document.Reference -- what the field types of a document refer to

A value that is no text may stand in the place of a name.  Where it is looked for
among names it is found if it is the same value (`Json.same`), and where it is only
written out it is shown (`Document.shown`).  What is looked up by a text is found
among the texts alone (`Document.declared`).
-/
import TreeGrammar.Document.Type
import TreeGrammar.Grammar.Error
import TreeGrammar.Grammar.Printer
import TreeGrammar.Grammar.Reference

set_option autoImplicit false

namespace TreeGrammar.Document

/-! ## Values written out -/

def TypeForm.shown : TypeForm → TypeRef
  | .value content => .named (Json.inserted content)
  | .named name => .named name.shown.name
  | .sequence element => .sequence element.shown
  | .optional inner => .optional inner.shown

def Field.shown (field : Field) : TreeGrammar.Field :=
  ⟨Json.inserted field.name, field.type.shown⟩

def Variant.shown (variant : Variant) : TreeGrammar.Variant :=
  ⟨Json.inserted variant.name, variant.fields.map Field.shown⟩

def Family.shown (family : Family) : TreeGrammar.Family :=
  ⟨Json.inserted family.name, family.variants.map Variant.shown⟩

def Use.shown (use : Use) : TreeGrammar.Use :=
  ⟨Json.inserted use.path, use.names.map Json.inserted⟩

/-- The grammar with every value in the place of a name written out. -/
def shown (document : Document) : Grammar :=
  ⟨document.families.map Family.shown, document.uses.map Use.shown⟩

/-- The line of a variant. -/
def Variant.text (variant : Variant) : Except TypeForm.Fault Text := do
  variant.fields.forM fun field => field.type.text.map fun _ => ()
  return variant.shown.text

/-! ## Values looked up -/

/-- Each of the values must be a text. -/
def needTexts (names : List Json) : Except TypeForm.Fault Unit :=
  if names.all fun name => name.text?.isSome then .ok () else .error .nameNotText

/-- Each of the values must be fit to be looked up among names. -/
def needComparable (names : List Json) : Except TypeForm.Fault Unit :=
  if names.all isComparable then .ok () else .error .notComparable

def Variant.declared? (variant : Variant) : Option TreeGrammar.Variant :=
  variant.name.text?.map fun name => ⟨name, variant.fields.map Field.shown⟩

def Family.declared? (family : Family) : Option TreeGrammar.Family :=
  family.name.text?.map fun name => ⟨name, family.variants.filterMap Variant.declared?⟩

def Use.declared (use : Use) : TreeGrammar.Use :=
  ⟨Json.inserted use.path, use.names.filterMap Json.text?⟩

/-- The grammar of the families, variants and used names that have texts for names. -/
def declared (document : Document) : Grammar :=
  ⟨document.families.filterMap Family.declared?, document.uses.map Use.declared⟩

def usedNames (document : Document) : List Json :=
  document.uses.flatMap Use.names

/-- Used names with one more.  Of two that are the same the first stays, with the last path. -/
def putUsed (name path : Json) : List (Json × Json) → List (Json × Json)
  | [] => [(name, path)]
  | entry :: rest =>
      if Json.same entry.1 name then (entry.1, path) :: rest else entry :: putUsed name path rest

/-- The used names, each with the path it comes from. -/
def importedNames (document : Document) : Except TypeForm.Fault (List (Json × Json)) := do
  needComparable document.usedNames
  let entries := document.uses.flatMap fun use => use.names.map fun name => (name, use.path)
  return entries.foldl (fun list entry => putUsed entry.1 entry.2 list) []

/-! ## References -/

/-- A field in its place. -/
structure Place where
  family : Family
  variant : Variant
  field : Field

/-- The fields of a document, in order. -/
def places (document : Document) : List Place :=
  document.families.flatMap fun family =>
    family.variants.flatMap fun variant =>
      variant.fields.map fun field => ⟨family, variant, field⟩

/-- The name inside the type of a field, with the names of its place. -/
structure Reference where
  family : Json
  variant : Json
  field : Json
  name : Text

/-- The refusal of a reference to a name that is not known. -/
def Reference.message (reference : Reference) : Text :=
  (Grammar.Error.unknownType (Json.inserted reference.family) (Json.inserted reference.variant)
    (Json.inserted reference.field) reference.name).message

def Place.reference (place : Place) (name : Text) : Reference :=
  ⟨place.family.name, place.variant.name, place.field.name, name⟩

/-- The references of a document, in order. -/
def references (document : Document) : Except TypeForm.Fault (List Reference) :=
  document.places.mapM fun place => return place.reference (← place.field.type.name)

/-- Whether what stands in the place of a name is known: a scalar, a used name, a family, or a
variant behind its family. -/
def resolves (document : Document) : TypeForm → Except TypeForm.Fault Bool
  | .value (.text name) => do
      if TypeRef.isScalar name then return true
      needComparable document.usedNames
      return document.declared.resolves name
  | form => do
      if !form.comparable then throw .notComparable
      needComparable document.usedNames
      match form with
      | .value content =>
          if document.usedNames.any (Json.same content) then return true else throw .noParts
      | _ => throw .noParts

/-- The reference of a field, unless what it refers to is known. -/
def unknownAt (document : Document) (place : Place) : Except TypeForm.Fault (Option Reference) := do
  let form ← place.field.type.inside
  if ← document.resolves form then return none
  return some (place.reference (← form.needName))

/-- The references of a document to names that are not known. -/
def unresolved (document : Document) : Except TypeForm.Fault (List Reference) := do
  return (← document.places.mapM document.unknownAt).filterMap id

def Family.types (family : Family) : List TypeForm :=
  family.variants.flatMap fun variant => variant.fields.map Field.type

/-- The other families that a family refers to, each with those of its own name and its
variants' names that are needed.  All families are looked up among those that are needed, and
so are the variants of those that are. -/
def familyImports (document : Document) (family : Family) :
    Except TypeForm.Fault (List (TreeGrammar.Family × List Text)) := do
  family.types.forM fun form => form.name.map fun _ => ()
  needComparable (document.families.map Family.name)
  let imports := document.declared.familyImports family.shown
  let needed := document.families.filter fun other =>
    other.name ∈ imports.map fun entry => Json.text entry.1.name
  needComparable (needed.flatMap fun other => other.variants.map Variant.name)
  return imports

/-! ## Grammar text -/

/-- The document as grammar text. -/
def text (document : Document) : Except TypeForm.Fault Text := do
  needTexts document.usedNames
  (document.families.flatMap Family.types).forM fun form => form.text.map fun _ => ()
  return document.shown.text

end TreeGrammar.Document
