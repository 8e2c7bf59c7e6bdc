/-
# TreeGrammar.Text.WordBreak -- names of several words with a low line between them

A name in mixed case is taken apart in two passes.  The first parts a run of
capitals from the capitalised word behind it, the second parts a small letter or
digit from the capital behind it.  Both look at ASCII letters only; the result is
put in lower case as a whole.
-/
import TreeGrammar.Text.Ascii
import TreeGrammar.Text.LowerCase

set_option autoImplicit false

namespace TreeGrammar.Text

/-- The first pass behind a run of capitals: if a small letter ends a run of two or
more, its last capital begins a word.  The run and the small letter are passed
over together. -/
def breakAcronymsAfter (run : Text) : Text → Text
  | [] => run
  | c :: rest =>
      if isCapital c then breakAcronymsAfter (run ++ [c]) rest
      else if isSmall c && 2 ≤ run.length then
        run.dropLast ++ '_' :: (run.getLast?.toList ++ c :: breakAcronymsAfter [] rest)
      else run ++ c :: breakAcronymsAfter [] rest

/-- The first pass: a run of capitals is parted from the capitalised word behind it. -/
def breakAcronyms (text : Text) : Text :=
  breakAcronymsAfter [] text

/-- The second pass: a small letter or digit is parted from the capital behind it,
and both are passed over together. -/
def breakHumps : Text → Text
  | [] => []
  | [c] => [c]
  | c :: d :: rest =>
      if (isSmall c || isDigit c) && isCapital d then c :: '_' :: d :: breakHumps rest
      else c :: breakHumps (d :: rest)

/-- The name in lower case with a low line at every word boundary. -/
def snakeCase (name : Text) : Text :=
  lower (breakHumps (breakAcronyms name))

end TreeGrammar.Text
