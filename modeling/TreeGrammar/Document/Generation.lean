/-
# TreeGrammar.Document.Generation -- generating from documents

A document that declares a grammar is generated from like that grammar.  Any other
document is generated from as far as its values serve in the places they stand in:
a value is written where a name is only written out, and it is a fault where a
name is taken apart or turned into another name, or where an array is looked up
among names.  The first fault met is the one reported, in the order in which a
grammar is checked and its modules are written.
-/
import TreeGrammar.Document.Reference
import TreeGrammar.NodeModule.Render

set_option autoImplicit false

namespace TreeGrammar.Document

/-- Why nothing is generated from a document. -/
inductive Rejection where
  | invalid (error : Grammar.Error)
  | unknown (reference : Reference)
  | unfit (fault : TypeForm.Fault)

/-- The names of a family and its variants are turned into other names. -/
def Family.checkWords (family : Family) : Except TypeForm.Fault Unit :=
  needTexts (family.name :: family.variants.map Variant.name)

/-! ## Validity -/

/-- The names that no variant of a family may have, where `needed` are the names that the family
needs of others. -/
def takenNames (document : Document) (family : Family) (needed : List Text) : List Json :=
  (Grammar.generatedNames.map Json.text) ++ document.usedNames ++ [.text family.shown.visitorName]
    ++ document.families.map Family.name ++ needed.map Json.text

/-- Check variants behind those with the names in `seen`. -/
def checkVariants (taken : List Json) (family : Text) (seen : List Json) :
    List Variant → Except Rejection Unit
  | [] => .ok ()
  | variant :: rest => do
      (needComparable [variant.name]).mapError .unfit
      if seen.any (Json.same variant.name) then
        throw (.invalid (.duplicate (.variant variant.shown.name family) none))
      if taken.any (Json.same variant.name) then
        throw (.invalid (.clash (.variant family variant.shown.name)))
      checkVariants taken family (variant.name :: seen) rest

/-- Check one family behind those with the modules in `modules`. -/
def checkFamily (document : Document) (modules : List (Text × Text)) (family : Family) :
    Except Rejection Unit := do
  (needTexts [family.name]).mapError .unfit
  (Grammar.checkModule modules family.shown).mapError .invalid
  (document.declared.checkFamilyName family.shown).mapError .invalid
  (needComparable (document.families.map Family.name)).mapError .unfit
  (document.declared.checkVisitor family.shown).mapError .invalid
  let imports ← (document.familyImports family).mapError .unfit
  checkVariants (document.takenNames family (imports.flatMap Prod.snd)) family.shown.name []
    family.variants

def checkFamilies (document : Document) (modules : List (Text × Text)) :
    List Family → Except Rejection Unit
  | [] => .ok ()
  | family :: rest => do
      document.checkFamily modules family
      checkFamilies document
        (Keyed.put family.shown.moduleName family.shown.name modules) rest

/-- The first clash or fault of a document, if it has one. -/
def validate (document : Document) : Except Rejection Unit :=
  match document.grammar? with
  | some grammar => grammar.validate.mapError .invalid
  | none => do
      (needComparable document.usedNames).mapError .unfit
      document.checkFamilies [] document.families

/-! ## Modules -/

/-- The text of the module generated for a family. -/
def emit (document : Document) (family : Family) : Except TypeForm.Fault Text := do
  needTexts document.usedNames
  let _ ← document.familyImports family
  if !family.variants.isEmpty then family.checkWords
  return document.declared.emit family.shown

/-- The files generated from a document. -/
def render (document : Document) (strict : Bool) : Except Rejection (List (Text × Text)) :=
  match document.grammar? with
  | some grammar => (grammar.render strict).mapError .invalid
  | none => do
      document.validate
      if strict then
        match ← document.unresolved.mapError .unfit with
        | [] => pure ()
        | reference :: _ => throw (.unknown reference)
      let texts ← (document.families.mapM document.emit).mapError .unfit
      return Keyed.ofList ((document.families.map fun family => family.shown.fileName).zip texts)

end TreeGrammar.Document
