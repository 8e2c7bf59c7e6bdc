/-
# TreeGrammar.Text.Blank -- blank characters, trimming and the last word

The blanks are the white space of the Unicode character database together with
the four information separators U+001C to U+001F.  The zero width space and the
byte order mark are not blank.
-/
import TreeGrammar.Text.CharSet

set_option autoImplicit false

namespace TreeGrammar.Text

/-- The blank characters. -/
def blanks : CharSet where
  ranges :=
    [(0x09, 0x0D), (0x1C, 0x20), (0x85, 0x85), (0xA0, 0xA0), (0x1680, 0x1680), (0x2000, 0x200A),
      (0x2028, 0x2029), (0x202F, 0x202F), (0x205F, 0x205F), (0x3000, 0x3000)]

def isBlank (c : Char) : Bool :=
  blanks.contains c

/-- The text without the blanks at its front. -/
def trimStart (text : Text) : Text :=
  text.dropWhile isBlank

/-- The text without the blanks at its end. -/
def trimEnd (text : Text) : Text :=
  (text.reverse.dropWhile isBlank).reverse

/-- The text without the blanks around it. -/
def trim (text : Text) : Text :=
  trimEnd (trimStart text)

/-- The last word and what stands before it, without the blanks between the two;
nothing if the text has fewer than two words. -/
def cutLastWord? (text : Text) : Option (Text × Text) :=
  let ended := text.reverse.dropWhile isBlank
  let word := ended.takeWhile (!isBlank ·)
  let before := (ended.dropWhile (!isBlank ·)).dropWhile isBlank
  if before = [] then none else some (before.reverse, word.reverse)

theorem trimStart_eq_self {c : Char} {rest : Text} (solid : isBlank c = false) :
    trimStart (c :: rest) = c :: rest := by
  simp [trimStart, solid]

end TreeGrammar.Text
