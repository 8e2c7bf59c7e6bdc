/-
# TreeGrammar.Proofs.Grammar.Layout -- the ways to lay out a grammar

The same grammar can be written in many ways.  Uses and families may stand in any order
among each other; a family's variants stand on one line or on many, with semicolons between
those of a line; blanks may stand around every piece, comments at the end of every line and
empty lines anywhere; and a type may be spelled in any of its ways.

`Layout grammar text` says that the text is one of these layouts.  A header must not begin
with the word `use` and a space behind it, for then it is a use line.
-/
import TreeGrammar.Proofs.Grammar.WellFormed
import TreeGrammar.Proofs.Text.Line

set_option autoImplicit false

namespace TreeGrammar

open Text (AllBlank Padded MarkedBy)

/-! ## The pieces of a line -/

/-- A field is written as its type and its name, with blanks between them. -/
def Field.Written (field : Field) (text : Text) : Prop :=
  ∃ type gap, TypeRef.Spells field.type type ∧ AllBlank gap ∧ gap ≠ [] ∧
    Padded (type ++ gap ++ field.name) text

/-- Items with a comma between each two neighbours. -/
def Listed {α : Type} (Written : α → Text → Prop) (items : List α) (text : Text) : Prop :=
  ∃ part parts, List.Forall₂ (fun part item => Written item part) (part :: parts) items ∧
    text = Text.join [','] (part :: parts)

/-- The fields of a variant behind its colon; if it has none, there are only blanks. -/
inductive FieldsWritten : List Field → Text → Prop
  | empty {blank : Text} (allBlank : AllBlank blank) : FieldsWritten [] blank
  | listed {fields : List Field} {text : Text} (listed : Listed Field.Written fields text) :
      FieldsWritten fields text

def Variant.Written (variant : Variant) (text : Text) : Prop :=
  ∃ name fields, Padded variant.name name ∧ FieldsWritten variant.fields fields ∧
    text = name ++ ':' :: fields

/-- A use is written behind the word `use` and a space. -/
def Use.Written (use : Use) (text : Text) : Prop :=
  ∃ indent path names, AllBlank indent ∧ Padded use.path path ∧ Listed Padded use.names names ∧
    text = indent ++ "use ".toList ++ path ++ ':' :: names

/-- What stands between the semicolons of a line: a variant each, or nothing. -/
inductive VariantsWritten : List Variant → List Text → Prop
  | nil : VariantsWritten [] []
  | blank {part : Text} {variants : List Variant} {parts : List Text} (allBlank : AllBlank part)
      (others : VariantsWritten variants parts) : VariantsWritten variants (part :: parts)
  | variant {variant : Variant} {part : Text} {variants : List Variant} {parts : List Text}
      (written : variant.Written part) (others : VariantsWritten variants parts) :
      VariantsWritten (variant :: variants) (part :: parts)

/-- The variants that stand on one line. -/
def BodyWritten (variants : List Variant) (text : Text) : Prop :=
  ∃ parts, VariantsWritten variants parts ∧ text = Text.join [';'] parts

/-! ## Lines -/

/-- The lines of a family behind the brace that opens it.  The brace that closes it is the last of
its line. -/
inductive BlockWritten : List Variant → List Text → Prop
  | last {variants : List Variant} {body after : Text} (written : BodyWritten variants body)
      (blank : AllBlank after) : BlockWritten variants [body ++ '}' :: after]
  | line {variants others : List Variant} {body : Text} {rest : List Text}
      (written : BodyWritten variants body) (block : BlockWritten others rest) :
      BlockWritten (variants ++ others) (body :: rest)

namespace Grammar

/-- Lines without their comments: uses and families in their order, and empty lines between them. -/
inductive Written : List Use → List Family → List Text → Prop
  | nil : Written [] [] []
  | empty {uses : List Use} {families : List Family} {blank : Text} {rest : List Text}
      (allBlank : AllBlank blank) (others : Written uses families rest) :
      Written uses families (blank :: rest)
  | use {use : Use} {uses : List Use} {families : List Family} {line : Text} {rest : List Text}
      (written : use.Written line) (others : Written uses families rest) :
      Written (use :: uses) families (line :: rest)
  | family {family : Family} {uses : List Use} {families : List Family} {indent gap body : Text}
      {block rest : List Text} (indented : AllBlank indent) (spaced : AllBlank gap)
      (noUse : ¬ "use ".toList <+: family.name ++ gap ++ '{' :: body)
      (written : BlockWritten family.variants (body :: block))
      (others : Written uses families rest) :
      Written uses (family :: families)
        ((indent ++ family.name ++ gap ++ '{' :: body) :: (block ++ rest))

/-- A line carries its content, which may have a comment behind it. -/
inductive Carries : Text → Text → Prop
  | plain (content : Text) : Carries content content
  | commented (content comment : Text) : Carries (content ++ '#' :: comment) content

/-- **The text is a layout of the grammar.** -/
def Layout (grammar : Grammar) (text : Text) : Prop :=
  ∃ lines contents, Text.Broken lines text ∧ List.Forall₂ Carries lines contents ∧
    Written grammar.uses grammar.families contents

end Grammar

end TreeGrammar
