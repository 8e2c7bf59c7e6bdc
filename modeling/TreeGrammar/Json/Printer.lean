/-
# TreeGrammar.Json.Printer -- JSON text

A `Layout` fixes everything the format leaves open: the separators, whether each
item stands on a line of its own, the order of the members and whether characters
beyond ASCII are written by their numbers.
-/
import TreeGrammar.Json.Basic
import TreeGrammar.Number.Shortest

set_option autoImplicit false

namespace TreeGrammar.Json

/-- How a value is laid out.  With an indent each item stands on a line of its own,
behind one copy of the indent for each array or object around it. -/
structure Layout where
  indent : Option Text
  itemSeparator : Text
  keySeparator : Text
  sortKeys : Bool
  ascii : Bool

/-- One line, a comma and a blank between items, ASCII only. -/
def Layout.plain : Layout := ⟨none, ", ", ": ", false, true⟩

/-- A 16-bit unit by its number. -/
def unitEscape (unit : Nat) : Text :=
  '\\' :: 'u' :: Text.hexadecimal 4 unit

/-- A character by the numbers of its one or two 16-bit units. -/
def numberEscape (c : Char) : Text :=
  let n := c.toNat
  if n < 0x10000 then unitEscape n
  else
    let offset := n - 0x10000
    unitEscape (0xD800 + offset / 0x400) ++ unitEscape (0xDC00 + offset % 0x400)

/-- A character inside quotes. -/
def characterForm (ascii : Bool) (c : Char) : Text :=
  if c = '"' then ['\\', '"']
  else if c = '\\' then ['\\', '\\']
  else if c = '\n' then ['\\', 'n']
  else if c = '\r' then ['\\', 'r']
  else if c = '\t' then ['\\', 't']
  else if c = '\x0c' then ['\\', 'f']
  else if c = '\x08' then ['\\', 'b']
  else if c.toNat < 0x20 then numberEscape c
  else if ascii && 0x7E < c.toNat then numberEscape c
  else [c]

def quotedForm (ascii : Bool) (text : Text) : Text :=
  '"' :: text.flatMap (characterForm ascii) ++ ['"']

/-- A line break and the indent inside `depth` arrays and objects; nothing on one line. -/
def Layout.newLine (layout : Layout) (depth : Nat) : Text :=
  match layout.indent with
  | none => []
  | some indent => '\n' :: Text.repeated depth indent

/-- A member before another one of a greater or equal key. -/
def insertMember (entry : Text × Text) : List (Text × Text) → List (Text × Text)
  | [] => [entry]
  | next :: rest =>
      if Text.le entry.1 next.1 then entry :: next :: rest else next :: insertMember entry rest

/-- Members with their printed values in the order of their keys. -/
def sortMembers : List (Text × Text) → List (Text × Text)
  | [] => []
  | entry :: rest => insertMember entry (sortMembers rest)

/-- Printed parts between brackets, inside `depth` arrays and objects. -/
def enclose (layout : Layout) (depth : Nat) (opening closing : Char) (parts : List Text) : Text :=
  if parts.isEmpty then [opening, closing]
  else
    opening :: layout.newLine (depth + 1)
      ++ Text.join (layout.itemSeparator ++ layout.newLine (depth + 1)) parts
      ++ layout.newLine depth ++ [closing]

mutual

/-- The text of a value inside `depth` arrays and objects. -/
def printAt (layout : Layout) (depth : Nat) : Json → Text
  | .null => "null"
  | .boolean true => "true"
  | .boolean false => "false"
  | .number value => Text.integer value
  | .decimal value => value.text "Infinity" "NaN"
  | .text value => quotedForm layout.ascii value
  | .array items => enclose layout depth '[' ']' (printItems layout (depth + 1) items)
  | .object members =>
      let printed := printMembers layout (depth + 1) members
      let ordered := if layout.sortKeys then sortMembers printed else printed
      enclose layout depth '{' '}'
        (ordered.map fun entry => quotedForm layout.ascii entry.1 ++ layout.keySeparator ++ entry.2)

def printItems (layout : Layout) (depth : Nat) : List Json → List Text
  | [] => []
  | item :: rest => printAt layout depth item :: printItems layout depth rest

/-- The keys with the texts of their values. -/
def printMembers (layout : Layout) (depth : Nat) : List (Text × Json) → List (Text × Text)
  | [] => []
  | (key, value) :: rest => (key, printAt layout depth value) :: printMembers layout depth rest

end

/-- The text of a value. -/
def print (layout : Layout) (value : Json) : Text :=
  printAt layout 0 value

end TreeGrammar.Json
