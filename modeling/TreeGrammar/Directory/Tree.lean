/-
# TreeGrammar.Directory.Tree -- the files and directories below the current directory

A tree keeps what stands at each location; a location is a list of names without
`..`.  A path is followed name by name through directories (`Tree.follow`), so
`x/../y` leads somewhere only if `x` is a directory.  The current directory is the
root of the tree, where absolute paths begin too and from where `..` leads nowhere
else.  Each operation gives the changed tree or the reason why the system refuses it.

There are no symbolic links: a tree has directories and regular files only, so a path
leads to one place, whether its last name would be followed or not.  What a run does where
links stand in its way is left out.
-/
import TreeGrammar.Directory.Path
import TreeGrammar.Directory.Refusal
import TreeGrammar.Keyed
import TreeGrammar.Text.Utf8

set_option autoImplicit false

namespace TreeGrammar

inductive Entry where
  | directory
  | file (content : Text.Octets)
  deriving DecidableEq

/-- The names that lead from the current directory to a place below it. -/
abbrev Location := List Text

structure Tree where
  entries : List (Location × Entry)

namespace Tree

open Refusal (Reason)

def empty : Tree := ⟨[]⟩

/-- What stands at a location; at the root stands the current directory. -/
def entryAt (tree : Tree) (location : Location) : Option Entry :=
  if location = [] then some .directory else Keyed.get? location tree.entries

def put (tree : Tree) (location : Location) (entry : Entry) : Tree :=
  ⟨Keyed.put location entry tree.entries⟩

def erase (tree : Tree) (location : Location) : Tree :=
  ⟨tree.entries.filter (·.1 ≠ location)⟩

/-- Whether something stands directly below a location. -/
def hasChildren (tree : Tree) (location : Location) : Bool :=
  tree.entries.any fun entry => entry.1 ≠ [] && entry.1.dropLast = location

/-! ## Following paths -/

/-- Where a path leads: to something, or to a free name in a directory. -/
inductive Place where
  | taken (location : Location) (entry : Entry)
  | free (location : Location)

/-- The greatest number of octets in a name. -/
def nameLimit : Nat := 255

/-- The greatest number of octets in a path. -/
def pathLimit : Nat := 4095

/-- Follow names from a location. -/
def follow (tree : Tree) (here : Location) : List Text → Except Reason Place
  | [] =>
      match tree.entryAt here with
      | none => .error .missing
      | some entry => .ok (.taken here entry)
  | name :: rest =>
      match tree.entryAt here with
      | none => .error .missing
      | some (.file _) => .error .notDirectory
      | some .directory =>
          if name = Path.back then tree.follow here.dropLast rest
          else if nameLimit < (Text.encode name).length then .error .nameTooLong
          else if rest = [] ∧ tree.entryAt (here ++ [name]) = none then .ok (.free (here ++ [name]))
          else tree.follow (here ++ [name]) rest

def resolve (tree : Tree) (path : Path) : Except Reason Place :=
  if pathLimit < (Text.encode path.text).length then .error .nameTooLong
  else tree.follow [] path.parts

/-! ## Asking -/

/-- What a path leads to; nothing if it leads nowhere or through a file. -/
def look (tree : Tree) (path : Path) : Except Reason (Option Entry) :=
  match tree.resolve path with
  | .ok (.taken _ entry) => .ok (some entry)
  | .ok (.free _) => .ok none
  | .error .missing => .ok none
  | .error .notDirectory => .ok none
  | .error reason => .error reason

def read (tree : Tree) (path : Path) : Except Reason Text.Octets := do
  match ← tree.resolve path with
  | .taken _ (.file content) => return content
  | .taken _ .directory => throw .isDirectory
  | .free _ => throw .missing

/-! ## Changing -/

def makeDirectory (tree : Tree) (path : Path) : Except Reason Tree := do
  match ← tree.resolve path with
  | .taken _ _ => throw .alreadyThere
  | .free location => return tree.put location .directory

/-- Make a directory at the path that a text names.  An empty text names none, and a point at
the end is a name that every directory holds already. -/
def makeDirectoryAt (tree : Tree) (text : Text) : Except Reason Tree := do
  if text = [] then throw .missing
  if pathLimit < (Text.encode text).length then throw .nameTooLong
  if Path.endsInPoint text then
    match ← tree.resolve (.ofText text) with
    | .taken _ .directory => throw .alreadyThere
    | .taken _ (.file _) => throw .notDirectory
    | .free _ => throw .missing
  tree.makeDirectory (.ofText text)

/-- Make an empty file where nothing stands. -/
def createFile (tree : Tree) (path : Path) : Except Reason Tree := do
  match ← tree.resolve path with
  | .taken _ _ => throw .alreadyThere
  | .free location => return tree.put location (.file [])

/-- Give a file its content; a file that is not there is made. -/
def writeFile (tree : Tree) (path : Path) (content : Text.Octets) : Except Reason Tree := do
  match ← tree.resolve path with
  | .taken _ .directory => throw .isDirectory
  | .taken location (.file _) => return tree.put location (.file content)
  | .free location => return tree.put location (.file content)

/-- Give a file a second name.  The content is the same under both. -/
def link (tree : Tree) (existing new : Path) : Except Reason Tree := do
  match ← tree.resolve existing with
  | .free _ => throw .missing
  | .taken _ entry =>
      match ← tree.resolve new with
      | .taken _ _ => throw .alreadyThere
      | .free location =>
          match entry with
          | .directory => throw .notPermitted
          | .file content => return tree.put location (.file content)

/-- Move a file to another name, in place of the file that stands there. -/
def rename (tree : Tree) (source target : Path) : Except Reason Tree := do
  match ← tree.resolve source with
  | .free _ => throw .missing
  | .taken _ .directory => throw .isDirectory
  | .taken here (.file content) =>
      match ← tree.resolve target with
      | .taken _ .directory => throw .isDirectory
      | .taken there (.file _) => return (tree.erase here).put there (.file content)
      | .free there => return (tree.erase here).put there (.file content)

def removeFile (tree : Tree) (path : Path) : Except Reason Tree := do
  match ← tree.resolve path with
  | .free _ => throw .missing
  | .taken _ .directory => throw .isDirectory
  | .taken location (.file _) => return tree.erase location

/-- Remove an empty directory by its name; a path that ends in `..` names none. -/
def removeDirectory (tree : Tree) (path : Path) : Except Reason Tree := do
  match ← tree.resolve path with
  | .free _ => throw .missing
  | .taken _ (.file _) => throw .notDirectory
  | .taken location .directory =>
      if path.parts = [] then throw .invalid
      else if path.name = Path.back then throw .notEmpty
      else if tree.hasChildren location then throw .notEmpty
      else return tree.erase location

/-! ## Listing -/

def insertListed (item : Text × Entry) : List (Text × Entry) → List (Text × Entry)
  | [] => [item]
  | next :: rest =>
      if Text.le item.1 next.1 then item :: next :: rest else next :: insertListed item rest

/-- Everything in the tree by its path, in the order of the paths. -/
def listing (tree : Tree) : List (Text × Entry) :=
  (tree.entries.map fun entry => ((Path.relative entry.1).text, entry.2)).foldr insertListed []

end Tree

end TreeGrammar
