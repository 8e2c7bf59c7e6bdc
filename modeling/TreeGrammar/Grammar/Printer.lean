/-
# TreeGrammar.Grammar.Printer -- grammars as grammar text

Uses stand first, one a line; each family is a block with one variant a line; an
empty line stands between the blocks.
-/
import TreeGrammar.Grammar.Basic
import TreeGrammar.Text.Blank

set_option autoImplicit false

namespace TreeGrammar

def Field.text (field : Field) : Text :=
  field.type.text ++ " " ++ field.name

/-- A variant line; the blank behind the colon goes if there are no fields. -/
def Variant.text (variant : Variant) : Text :=
  Text.trimEnd (variant.name ++ ": " ++ Text.join ", " (variant.fields.map Field.text))

def Use.text (use : Use) : Text :=
  "use " ++ use.path ++ ": " ++ Text.join ", " use.names

def Family.text (family : Family) : Text :=
  Text.ofLines
    ((family.name ++ [' ', '{']) :: family.variants.map (fun variant => "    " ++ variant.text)
      ++ [['}']])

/-- The blocks of a grammar: its uses, if it has any, and its families. -/
def Grammar.blocks (grammar : Grammar) : List Text :=
  (if grammar.uses.isEmpty then [] else [Text.ofLines (grammar.uses.map Use.text)])
    ++ grammar.families.map Family.text

def Grammar.text (grammar : Grammar) : Text :=
  Text.join "\n\n" grammar.blocks ++ "\n"

end TreeGrammar
