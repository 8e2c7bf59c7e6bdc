/-
# TreeGrammar.Text.Line -- the lines of a text

A line ends at a line break or at the end of the text, and a break at the very
end opens no further line.  A carriage return and the line feed after it are one
break.
-/
import TreeGrammar.Text.CharSet

set_option autoImplicit false

namespace TreeGrammar.Text

/-- The characters that end a line. -/
def lineBreaks : CharSet where
  ranges := [(0x0A, 0x0D), (0x1C, 0x1E), (0x85, 0x85), (0x2028, 0x2029)]

def isLineBreak (c : Char) : Bool :=
  lineBreaks.contains c

/-- A character put in front of the first line. -/
def consFirst (c : Char) : List Text → List Text
  | [] => [[c]]
  | line :: more => (c :: line) :: more

/-- The lines of a text, without their breaks. -/
def lines : Text → List Text
  | [] => []
  | '\r' :: '\n' :: rest => [] :: lines rest
  | c :: rest => if isLineBreak c then [] :: lines rest else consFirst c (lines rest)

/-- A text without a line break is its only line. -/
theorem lines_eq_singleton {text : Text} (unbroken : ∀ c ∈ text, isLineBreak c = false)
    (nonempty : text ≠ []) : lines text = [text] := by
  induction text with
  | nil => exact absurd rfl nonempty
  | cons c rest ih =>
      have solid := unbroken c (by simp)
      have notReturn : c ≠ '\r' := by
        rintro rfl; exact absurd solid (by decide)
      rw [lines.eq_3 c rest (fun tail same _ => notReturn same)]
      simp only [solid, Bool.false_eq_true, if_false]
      by_cases empty : rest = []
      · subst empty; rfl
      · rw [ih (fun d member => unbroken d (by simp [member])) empty]
        rfl

end TreeGrammar.Text
