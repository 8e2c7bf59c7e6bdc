/-
# TreeGrammar.Grammar.Loader -- grammars read from text

The text is read line by line.  Outside a family a line is a use line or opens a
family; inside it holds variants, parted by semicolons, and may close the family.
What follows a `#` is a comment.  Reading stops at the first line that is wrong;
a grammar that is read to its end is then checked as a whole (`validate`).
-/
import TreeGrammar.Grammar.Line
import TreeGrammar.Grammar.Validity
import TreeGrammar.Text.Line

set_option autoImplicit false

namespace TreeGrammar.Grammar

/-- A family whose block is not closed yet, with its header line. -/
structure OpenFamily where
  name : Text
  header : Text
  number : Nat
  variants : List Variant

/-- What has been read. -/
structure Progress where
  uses : List Use
  families : List Family
  current : Option OpenFamily

def Progress.start : Progress := ⟨[], [], none⟩

/-- What a line says: all before its comment. -/
def statement (raw : Text) : Text :=
  Text.trim (Text.cut '#' raw).1

def isUseLine (line : Text) : Bool :=
  line = "use".toList || "use ".toList.isPrefixOf line

/-- The variants between the semicolons of a line. -/
def parseVariants (raw : Text) (number : Nat) : List Text → Except Error (List Variant)
  | [] => .ok []
  | part :: rest =>
      if Text.trim part = [] then parseVariants raw number rest
      else do
        let variant ← Variant.parse (Text.trim part) (some number) raw
        let variants ← parseVariants raw number rest
        return variant :: variants

/-- The family with the variants of one line, closed if the line ends in a brace. -/
def readBody (progress : Progress) (family : OpenFamily) (raw : Text) (number : Nat)
    (line : Text) : Except Error Progress := do
  let closing := line.getLast? = some '}'
  let body := if closing then line.dropLast else line
  if '{' ∈ body ∨ '}' ∈ body then throw (.malformedLine .unexpectedBrace raw (some number))
  let variants ← parseVariants raw number (Text.split ';' body)
  let family := { family with variants := family.variants ++ variants }
  if !closing then return { progress with current := some family }
  if family.variants = [] then
    throw (.malformedLine .noVariants family.header (some family.number))
  return ⟨progress.uses, progress.families ++ [⟨family.name, family.variants⟩], none⟩

/-- The family that a line opens, with what follows the brace. -/
def readHeader (raw : Text) (number : Nat) (line : Text) : Except Error (OpenFamily × Text) := do
  match Text.cut '{' line with
  | (_, none) => throw (.malformedLine .notHeader raw (some number))
  | (before, some after) =>
      let name := Text.trim before
      if name = [] then throw (.malformedLine .missingFamilyName raw (some number))
      checkName .family name (some number)
      return (⟨name, raw, number, []⟩, Text.trim after)

/-- Read one more line. -/
def readLine (progress : Progress) (raw : Text) (number : Nat) : Except Error Progress := do
  let line := statement raw
  if line = [] then return progress
  match progress.current with
  | some family => readBody progress family raw number line
  | none =>
      if isUseLine line then
        let use ← Use.parse line (some number)
        return { progress with uses := progress.uses ++ [use] }
      else
        let (family, body) ← readHeader raw number line
        readBody progress family raw number body

/-- Read lines, the first of them of the given number; the progress up to the first
error, and that error. -/
def readLines (progress : Progress) (number : Nat) : List Text → Progress × Option Error
  | [] => (progress, none)
  | raw :: rest =>
      match readLine progress raw number with
      | .error error => (progress, some error)
      | .ok next => readLines next (number + 1) rest

/-- The progress over a whole text, up to the first line that is wrong. -/
def readText (text : Text) : Progress × Option Error :=
  readLines .start 1 (Text.lines text)

/-- The grammar that has been read, unless a family is still open. -/
def Progress.finish (progress : Progress) : Except Error Grammar :=
  match progress.current with
  | some family => .error (.malformedLine .unterminated family.header (some family.number))
  | none => .ok ⟨progress.families, progress.uses⟩

/-- The grammar that a text writes. -/
def load (text : Text) : Except Error Grammar := do
  match readText text with
  | (_, some error) => throw error
  | (progress, none) =>
      let grammar ← progress.finish
      grammar.validate
      return grammar

/-- The family of the given name with a variant for each line. -/
def loadFamily (name : Text) (lines : List Text) : Except Error Family := do
  let variants ← lines.mapM fun line => Variant.parse line none line
  let family : Family := ⟨name, variants⟩
  validate ⟨[family], []⟩
  return family

/-- The line feed-terminated line around a position, without carriage returns at its end. -/
def lineAround (octets : Text.Octets) (position : Nat) : Text :=
  let before := ((octets.take position).reverse.takeWhile (· ≠ 10)).reverse
  let after := (octets.drop position).takeWhile (· ≠ 10)
  ((Text.decodeLossy (before ++ after)).reverse.dropWhile (· = '\r')).reverse

/-- The text that a file holds.  Octets that are no text are reported with the line
around them; here only line feeds part the lines. -/
def decodeFile (octets : Text.Octets) : Except Error Text :=
  match Text.decode octets with
  | .ok text => .ok text
  | .error failure =>
      .error (.malformedLine (.notText failure.fault) (lineAround octets failure.position)
        (some ((octets.take failure.position).count 10 + 1 : Nat)))

/-- The grammar that a file holds. -/
def loadFile (octets : Text.Octets) : Except Error Grammar := do
  load (← decodeFile octets)

end TreeGrammar.Grammar
