/-
# TreeGrammar.Json.Shown -- values as messages show them

A message shows a value in the notation of the generated modules: texts in
quotes, `None`, `True` and `False` for the literals, `inf` and `nan` for what is not
finite, and a blank behind each comma and colon.
-/
import TreeGrammar.Json.Basic
import TreeGrammar.Number.Shortest
import TreeGrammar.Text.Quoted

set_option autoImplicit false

namespace TreeGrammar.Json

mutual

def shown : Json → Text
  | .null => "None"
  | .boolean true => "True"
  | .boolean false => "False"
  | .number value => Text.integer value
  | .decimal value => value.text "inf" "nan"
  | .text value => Text.quoted value
  | .array items => '[' :: Text.join ", " (shownItems items) ++ [']']
  | .object members => '{' :: Text.join ", " (shownMembers members) ++ ['}']

def shownItems : List Json → List Text
  | [] => []
  | item :: rest => shown item :: shownItems rest

def shownMembers : List (Text × Json) → List Text
  | [] => []
  | (key, value) :: rest =>
      (Text.quoted key ++ ": " ++ shown value) :: shownMembers rest

end

/-- A value put into a text: a text stands for itself, anything else is shown. -/
def inserted : Json → Text
  | .text value => value
  | other => shown other

end TreeGrammar.Json
