/-
# TreeGrammar.Text.Quoted -- texts between quotes, with every character visible

Messages show the texts they speak of in quotes.  The quote is a single one,
unless the text holds single quotes and no double one.  The quote and the
backslash are escaped, line feed, carriage return and tab have letters, and any
other character without a visible form is shown by its number.
-/
import TreeGrammar.Text.Quoted.Table
import TreeGrammar.Text.Numeral

set_option autoImplicit false

namespace TreeGrammar.Text

/-- The quote that needs the fewest escapes, a single one if both do. -/
def quoteFor (text : Text) : Char :=
  if '\'' ∈ text ∧ '"' ∉ text then '"' else '\''

/-- A character without a visible form by its number, in the shortest of three widths. -/
def numbered (c : Char) : Text :=
  let n := c.toNat
  if n < 0x100 then '\\' :: 'x' :: hexadecimal 2 n
  else if n < 0x10000 then '\\' :: 'u' :: hexadecimal 4 n
  else '\\' :: 'U' :: hexadecimal 8 n

def escaped (quote c : Char) : Text :=
  if c = quote ∨ c = '\\' then ['\\', c]
  else if c = '\n' then ['\\', 'n']
  else if c = '\r' then ['\\', 'r']
  else if c = '\t' then ['\\', 't']
  else if unprintables.contains c then numbered c
  else [c]

/-- The text between quotes. -/
def quoted (text : Text) : Text :=
  let quote := quoteFor text
  quote :: text.flatMap (escaped quote) ++ [quote]

end TreeGrammar.Text
