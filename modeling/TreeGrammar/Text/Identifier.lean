/-
# TreeGrammar.Text.Identifier -- identifiers
-/
import TreeGrammar.Text.Identifier.Table

set_option autoImplicit false

namespace TreeGrammar.Text

/-- An identifier begins with an identifier start and goes on with identifier parts. -/
def isIdentifier : Text → Bool
  | [] => false
  | c :: rest => identifierStarts.contains c && rest.all identifierParts.contains

theorem isIdentifier_cons {c : Char} {rest : Text} :
    isIdentifier (c :: rest) = true ↔
      identifierStarts.contains c = true ∧ ∀ d ∈ rest, identifierParts.contains d = true := by
  simp [isIdentifier]

theorem ne_nil_of_isIdentifier {text : Text} (named : isIdentifier text = true) : text ≠ [] := by
  rintro rfl
  simp [isIdentifier] at named

end TreeGrammar.Text
