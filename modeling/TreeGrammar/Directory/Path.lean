/-
# TreeGrammar.Directory.Path -- paths

A path is the list of names to follow from the current directory or, if it is
absolute, from the root.  The name `..` leads back; empty names and single points
lead nowhere and are left out.
-/
import TreeGrammar.Text.Basic

set_option autoImplicit false

namespace TreeGrammar

structure Path where
  absolute : Bool
  parts : List Text
  deriving DecidableEq

namespace Path

/-- The name that leads back to the parent directory. -/
def back : Text := ['.', '.']

/-- The path of names from the current directory. -/
def relative (parts : List Text) : Path :=
  ⟨false, parts⟩

/-- The names between the slashes of a text. -/
def partsOf (text : Text) : List Text :=
  (Text.split '/' text).filter fun part => part ≠ [] ∧ part ≠ ['.']

def ofText (text : Text) : Path :=
  ⟨text.head? = some '/', partsOf text⟩

/-- Whether the last name of a text is a single point, with or without slashes behind it. -/
def endsInPoint (text : Text) : Bool :=
  (Text.split '/' text).reverse.find? (· ≠ []) = some ['.']

/-- The text of a path; the current directory is a single point. -/
def text (path : Path) : Text :=
  if path.absolute then '/' :: Text.join ['/'] path.parts
  else if path.parts = [] then ['.']
  else Text.join ['/'] path.parts

/-- Whether a NUL character stands in one of the names, which the system takes for no path. -/
def hasNul (path : Path) : Bool :=
  path.parts.any fun part => '\x00' ∈ part

/-- The wording for a path with a NUL character. -/
def nulMessage : Text := "embedded null byte"

/-- The last name of a path. -/
def name (path : Path) : Text :=
  path.parts.getLast?.getD []

/-- The path that a text leads to from a path; an absolute one stands for itself. -/
def join (path : Path) (text : Text) : Path :=
  let other := ofText text
  if other.absolute then other else { path with parts := path.parts ++ other.parts }

/-- The path with another last name. -/
def rename (path : Path) (name : Text) : Path :=
  { path with parts := path.parts.dropLast ++ [name] }

/-- Names and one more, which takes the last one back if it is `..`.  With no name before
it, it stays, except at the root. -/
def step (absolute : Bool) (kept : List Text) (part : Text) : List Text :=
  if part = back then
    match kept.getLast? with
    | none => if absolute then [] else [part]
    | some last => if last = back then kept ++ [part] else kept.dropLast
  else kept ++ [part]

/-- The path with each `..` taken back together with the name before it. -/
def collapsed (path : Path) : Path :=
  { path with parts := path.parts.foldl (step path.absolute) [] }

/-- The paths with fewer and fewer of the last names, down to no name at all. -/
def ancestors (path : Path) : List Path :=
  ((List.range path.parts.length).map fun length =>
    { path with parts := path.parts.take length }).reverse

end Path

end TreeGrammar
