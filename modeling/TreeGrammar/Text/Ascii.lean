/-
# TreeGrammar.Text.Ascii -- classes of ASCII letters and digits
-/
import TreeGrammar.Text.Basic

set_option autoImplicit false

namespace TreeGrammar.Text

def isCapital (c : Char) : Bool :=
  'A' ≤ c && c ≤ 'Z'

def isSmall (c : Char) : Bool :=
  'a' ≤ c && c ≤ 'z'

def isDigit (c : Char) : Bool :=
  '0' ≤ c && c ≤ '9'

end TreeGrammar.Text
