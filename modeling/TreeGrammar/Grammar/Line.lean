/-
# TreeGrammar.Grammar.Line -- variant lines and use lines

A variant line is `Name: Type field, Type field`, a use line `use path: Name, Name`.
The first fault of a line, read from the left, is the one reported.
-/
import TreeGrammar.Grammar.Error
import TreeGrammar.Grammar.Name
import TreeGrammar.Text.Identifier

set_option autoImplicit false

namespace TreeGrammar

namespace Grammar

/-- The field names that every generated class uses itself. -/
def reservedFields : List Text :=
  ["self", "accept"]

/-- A name must be an identifier and no keyword. -/
def checkName (role : Role) (name : Text) (number : LineNumber) : Except Error Unit :=
  if !Text.isIdentifier name then .error (.invalidName (.notIdentifier role name) number)
  else if name ∈ keywords then .error (.invalidName (.keyword role name) number)
  else .ok ()

/-- Every name must be an identifier and no keyword. -/
def checkNames (role : Role) (names : List Text) (number : LineNumber) : Except Error Unit :=
  names.forM fun name => checkName role name number

/-- A type on its own, without a line number. -/
def readType (text : Text) : Except Error TypeRef :=
  match TypeRef.parse text with
  | .error fault => .error (.malformedLine (.type fault) (Text.trim text) none)
  | .ok type => .ok type

end Grammar

open Grammar

/-- One field of a variant line, behind the fields that stand before it. -/
def Field.parse (variant : Text) (before : List Field) (source : Text) (number : LineNumber)
    (entry : Text) : Except Error Field := do
  match Text.cutLastWord? entry with
  | none => throw (.malformedLine (.notField (Text.trim entry)) source number)
  | some (type, name) =>
      checkName .field name number
      if name ∈ reservedFields then throw (.invalidName (.reservedField name) number)
      if name ∈ before.map Field.name then throw (.duplicate (.field name variant) number)
      match TypeRef.parse type with
      | .error fault => throw (.malformedLine (.type fault) source number)
      | .ok type => return ⟨name, type⟩

/-- The fields of a variant line, behind the fields that stand before them. -/
def Field.parseAll (variant source : Text) (number : LineNumber) (before : List Field) :
    List Text → Except Error (List Field)
  | [] => .ok before
  | entry :: rest => do
      let field ← Field.parse variant before source number entry
      Field.parseAll variant source number (before ++ [field]) rest

/-- The variant that a line declares; errors show `source`. -/
def Variant.parse (line : Text) (number : LineNumber) (source : Text) : Except Error Variant := do
  match Text.cut ':' line with
  | (_, none) => throw (.malformedLine .missingSeparator source number)
  | (before, some after) =>
      let name := Text.trim before
      if name = [] then throw (.malformedLine .missingVariantName source number)
      checkName .variant name number
      let entries := if Text.trim after = [] then [] else Text.split ',' (Text.trim after)
      let fields ← Field.parseAll name source number [] entries
      return ⟨name, fields⟩

/-- The use that a line declares. -/
def Use.parse (line : Text) (number : LineNumber) : Except Error Use := do
  let (before, after) := Text.cut ':' (Text.trim (Text.dropStart "use" (Text.trim line)))
  let path := Text.trim before
  let names := ((Text.split ',' (after.getD [])).map Text.trim).filter (· ≠ [])
  if after = none ∨ path = [] ∨ names = [] then throw (.malformedLine .notUse line number)
  if !(Text.split '.' path).all Text.isIdentifier then
    throw (.malformedLine (.badPath path) line number)
  checkNames .imported names number
  return ⟨path, names⟩

end TreeGrammar
