/-
# TreeGrammar.Document.Basic -- grammars as documents declare them

A document is JSON with the members of a grammar.  What stands in the place of a
name is kept as it is, and so is anything but an object in the place of a type;
so a document may declare more than a grammar (`Document.grammar?`).
-/
import TreeGrammar.Grammar.Basic
import TreeGrammar.Json.Basic
import TreeGrammar.TypeRef.Kind

set_option autoImplicit false

namespace TreeGrammar.Document

/-- What stands in the place of a type or of a type's member. -/
inductive TypeForm where
  /-- A value that is no object. -/
  | value (content : Json)
  | named (name : TypeForm)
  | sequence (element : TypeForm)
  | optional (inner : TypeForm)
  deriving DecidableEq

structure Field where
  name : Json
  type : TypeForm
  deriving DecidableEq

structure Variant where
  name : Json
  fields : List Field
  deriving DecidableEq

structure Family where
  name : Json
  variants : List Variant
  deriving DecidableEq

structure Use where
  path : Json
  names : List Json
  deriving DecidableEq

end Document

/-- A grammar as a document declares it. -/
structure Document where
  families : List Document.Family
  uses : List Document.Use
  deriving DecidableEq

namespace Document

/-- The form of a type of the given kind around its member. -/
def TypeForm.ofKind : TypeRef.Kind → TypeForm → TypeForm
  | .named => .named
  | .sequence => .sequence
  | .optional => .optional

/-! ## Grammars in document form -/

def TypeForm.ofType : TypeRef → TypeForm
  | .named name => .named (.value (.text name))
  | .sequence element => .sequence (ofType element)
  | .optional inner => .optional (ofType inner)

def Field.ofField (field : TreeGrammar.Field) : Field :=
  ⟨.text field.name, .ofType field.type⟩

def Variant.ofVariant (variant : TreeGrammar.Variant) : Variant :=
  ⟨.text variant.name, variant.fields.map .ofField⟩

def Family.ofFamily (family : TreeGrammar.Family) : Family :=
  ⟨.text family.name, family.variants.map .ofVariant⟩

def Use.ofUse (use : TreeGrammar.Use) : Use :=
  ⟨.text use.path, use.names.map .text⟩

def ofGrammar (grammar : Grammar) : Document :=
  ⟨grammar.families.map .ofFamily, grammar.uses.map .ofUse⟩

/-! ## Documents that declare a grammar -/

def TypeForm.type? : TypeForm → Option TypeRef
  | .named (.value (.text name)) => some (.named name)
  | .named _ => none
  | .sequence element => element.type?.map .sequence
  | .optional inner => inner.type?.map .optional
  | .value _ => none

def Field.field? (field : Field) : Option TreeGrammar.Field := do
  return ⟨← field.name.text?, ← field.type.type?⟩

def Variant.variant? (variant : Variant) : Option TreeGrammar.Variant := do
  return ⟨← variant.name.text?, ← variant.fields.mapM Field.field?⟩

def Family.family? (family : Family) : Option TreeGrammar.Family := do
  return ⟨← family.name.text?, ← family.variants.mapM Variant.variant?⟩

def Use.use? (use : Use) : Option TreeGrammar.Use := do
  return ⟨← use.path.text?, ← use.names.mapM Json.text?⟩

/-- The grammar that a document declares if every name is a text and every type a type. -/
def grammar? (document : Document) : Option Grammar := do
  return ⟨← document.families.mapM Family.family?, ← document.uses.mapM Use.use?⟩

theorem TypeForm.type?_ofType (type : TypeRef) : (TypeForm.ofType type).type? = some type := by
  induction type with
  | named name => rfl
  | sequence element ih => simp [ofType, type?, ih]
  | optional inner ih => simp [ofType, type?, ih]

end Document

end TreeGrammar
