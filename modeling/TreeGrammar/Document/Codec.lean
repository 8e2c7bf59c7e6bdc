/-
# TreeGrammar.Document.Codec -- documents written as JSON and read back

Reading asks for members in a fixed order and stops at the first that is not
there.  Where a list is asked for, a text gives its characters and an object its
keys.  `uses` and `fields` may be left out; other members than those asked for are
passed over.  Values and types nest to any depth, in what is read and in what is written:
the limit that an interpreter sets to recursion is left out.
-/
import TreeGrammar.Document.Basic
import TreeGrammar.Json.Parser
import TreeGrammar.Json.Printer
import TreeGrammar.Json.Shown

set_option autoImplicit false

namespace TreeGrammar.Document

/-- Why a value is no document. -/
inductive Fault where
  /-- An object lacks a member. -/
  | missing (key : Text)
  /-- A member is asked of a value that is no object. -/
  | noMembers
  /-- A member that may be left out is asked of a value that is no object. -/
  | noOptionalMembers
  /-- Items are asked of a value that has none. -/
  | noItems
  /-- A tag is an array or an object. -/
  | unfitTag
  /-- A tag is the tag of no kind of type. -/
  | unknownTag (tag : Json)
  /-- A text is no JSON. -/
  | malformed
  /-- An integer in a text has more digits than are read. -/
  | tooLong (digits : Nat)

def unknownTagMessage (tag : Json) : Text :=
  "Unknown type reference tag: " ++ Json.shown tag

def tooLongMessage (digits : Nat) : Text :=
  "Exceeds the limit (" ++ Text.natural Json.Numeral.digitLimit
    ++ " digits) for integer string conversion: value has " ++ Text.natural digits
    ++ " digits; use sys.set_int_max_str_digits() to increase the limit"

/-! ## Writing -/

def TypeForm.json : TypeForm → Json
  | .value content => content
  | .named name =>
      .object [("tag", .text TypeRef.Kind.named.tag), (TypeRef.Kind.named.member, name.json)]
  | .sequence element =>
      .object
        [("tag", .text TypeRef.Kind.sequence.tag), (TypeRef.Kind.sequence.member, element.json)]
  | .optional inner =>
      .object [("tag", .text TypeRef.Kind.optional.tag), (TypeRef.Kind.optional.member, inner.json)]

def Field.json (field : Field) : Json :=
  .object [("name", field.name), ("type", field.type.json)]

def Variant.json (variant : Variant) : Json :=
  .object [("name", variant.name), ("fields", .array (variant.fields.map Field.json))]

def Family.json (family : Family) : Json :=
  .object [("name", family.name), ("variants", .array (family.variants.map Variant.json))]

def Use.json (use : Use) : Json :=
  .object [("module", use.path), ("names", .array use.names)]

/-- The document as a JSON value. -/
def json (document : Document) : Json :=
  .object [("uses", .array (document.uses.map Use.json)),
    ("families", .array (document.families.map Family.json))]

/-! ## Reading -/

/-- A member that must be there. -/
def member (key : Text) : Json → Except Fault Json
  | .object members =>
      match Keyed.get? key members with
      | some value => .ok value
      | none => .error (.missing key)
  | _ => .error .noMembers

/-- A member that may be left out. -/
def member? (key : Text) : Json → Except Fault (Option Json)
  | .object members => .ok (Keyed.get? key members)
  | _ => .error .noOptionalMembers

/-- The items of a value. -/
def items : Json → Except Fault (List Json)
  | .array items => .ok items
  | .text value => .ok (value.map fun c => .text [c])
  | .object members => .ok (members.map fun entry => .text entry.1)
  | _ => .error .noItems

/-- The items of a member that may be left out. -/
def itemsOrNone : Option Json → Except Fault (List Json)
  | none => .ok []
  | some value => items value

/-- The kind with the tag that a value is. -/
def kindOf : Json → Except Fault TypeRef.Kind
  | .text tag =>
      match TypeRef.Kind.ofTag? tag with
      | some kind => .ok kind
      | none => .error (.unknownTag (.text tag))
  | .array _ | .object _ => .error .unfitTag
  | other => .error (.unknownTag other)

mutual

/-- The type that an object with a tag declares. -/
def typeForm : Json → Except Fault TypeForm
  | .object members => do
      let kind ← kindOf (← member "tag" (.object members))
      let inner ← memberForm kind.member members
      return .ofKind kind inner
  | _ => .error .noMembers

/-- What stands under a key: an object declares a type, anything else stays as it is. -/
def memberForm (key : Text) : List (Text × Json) → Except Fault TypeForm
  | [] => .error (.missing key)
  | (other, value) :: rest =>
      if other = key then
        match value with
        | .object members => typeForm (.object members)
        | content => .ok (.value content)
      else memberForm key rest

end

def Field.read (value : Json) : Except Fault Field := do
  return ⟨← member "name" value, ← typeForm (← member "type" value)⟩

def Variant.read (value : Json) : Except Fault Variant := do
  let name ← member "name" value
  let fields ← itemsOrNone (← member? "fields" value)
  return ⟨name, ← fields.mapM Field.read⟩

def Family.read (value : Json) : Except Fault Family := do
  let name ← member "name" value
  let variants ← items (← member "variants" value)
  return ⟨name, ← variants.mapM Variant.read⟩

def Use.read (value : Json) : Except Fault Use := do
  return ⟨← member "module" value, ← items (← member "names" value)⟩

/-- The document that a JSON value is. -/
def read (value : Json) : Except Fault Document := do
  let uses ← (← itemsOrNone (← member? "uses" value)).mapM Use.read
  let families ← (← items (← member "families" value)).mapM Family.read
  return ⟨families, uses⟩

/-- The document that JSON text writes. -/
def parse (text : Text) : Except Fault Document :=
  match Json.parse text with
  | .error .malformed => .error .malformed
  | .error (.tooLong digits) => .error (.tooLong digits)
  | .ok value => read value

/-- The document as JSON text. -/
def print (layout : Json.Layout) (document : Document) : Text :=
  Json.print layout document.json

end TreeGrammar.Document
