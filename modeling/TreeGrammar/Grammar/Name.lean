/-
# TreeGrammar.Grammar.Name -- the names that a generated module binds

A family gives its module, its visitor and the visitor's operations their names.
-/
import TreeGrammar.Grammar.Basic
import TreeGrammar.Text.WordBreak

set_option autoImplicit false

namespace TreeGrammar

/-- The words that name nothing in a generated module. -/
def keywords : List Text :=
  ["False", "None", "True", "and", "as", "assert", "async", "await", "break", "class", "continue",
      "def", "del", "elif", "else", "except", "finally", "for", "from", "global", "if", "import",
      "in", "is", "lambda", "nonlocal", "not", "or", "pass", "raise", "return", "try", "while",
      "with", "yield"].map String.toList

namespace Family

/-- The name of the module generated for the family. -/
def moduleName (family : Family) : Text :=
  Text.snakeCase family.name

/-- The name of the file that holds the module. -/
def fileName (family : Family) : Text :=
  family.moduleName ++ ".py"

def visitorName (family : Family) : Text :=
  family.name ++ "Visitor"

/-- The name of the visitor's operation for one of the variants. -/
def operationName (family : Family) (variant : Variant) : Text :=
  "visit_" ++ Text.snakeCase variant.name ++ "_" ++ family.moduleName

end Family

end TreeGrammar
