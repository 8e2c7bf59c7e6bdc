/-
# TreeGrammar.Proofs.Publish.Names -- the names that publishing uses

A file is published under its own name, by way of a temporary name; what stood there
before gets the name of a backup.  A stamp without a point makes the temporary name
and the backup's name tell which file they belong to (`tempName_injective`).

`Fresh` says that the names of the files are single names of a path and that no
stamp makes a name that is in use.
-/
import Mathlib.Data.List.Nodup
import TreeGrammar.Proofs.Script.Calls
import TreeGrammar.Proofs.Text.Parts
import TreeGrammar.Publish.Basic
import TreeGrammar.Script.Fault

set_option autoImplicit false

namespace TreeGrammar

/-- The name of the backup beside a temporary file. -/
def backupName (stem stamp : Text) : Text :=
  ['.'] ++ stem ++ "." ++ stamp ++ ".bak"

/-- The path of the backup beside a temporary file. -/
def savedPath (directory : Path) (stem stamp : Text) : Path :=
  directory.collapsed.join (backupName stem stamp)

/-! ## Telling names apart -/

theorem stem_injective {stem other stamp otherStamp : Text} (plain : '.' ∉ stamp)
    (otherPlain : '.' ∉ otherStamp) (same : stem ++ '.' :: stamp = other ++ '.' :: otherStamp) :
    stem = other ∧ stamp = otherStamp := by
  rcases List.append_eq_append_iff.1 same with ⟨middle, first, rest⟩ | ⟨middle, first, rest⟩
  · cases middle with
    | nil => exact ⟨by rw [first, List.append_nil], List.tail_eq_of_cons_eq rest⟩
    | cons c more =>
        rw [List.cons_append, List.cons.injEq] at rest
        exact absurd (by simp [rest.2]) plain
  · cases middle with
    | nil => exact ⟨by rw [first, List.append_nil], (List.tail_eq_of_cons_eq rest).symm⟩
    | cons c more =>
        rw [List.cons_append, List.cons.injEq] at rest
        exact absurd (by simp [rest.2]) otherPlain

theorem tempName_eq (stem stamp : Text) :
    tempName stem stamp = '.' :: (stem ++ '.' :: stamp) ++ ['.', 't', 'm', 'p'] := by
  simp [tempName]

theorem backupName_eq (stem stamp : Text) :
    backupName stem stamp = '.' :: (stem ++ '.' :: stamp) ++ ['.', 'b', 'a', 'k'] := by
  simp [backupName]

theorem tempName_ne_backupName (stem other stamp otherStamp : Text) :
    tempName stem stamp ≠ backupName other otherStamp := by
  intro same
  rw [tempName_eq, backupName_eq] at same
  have ends := (List.append_inj' same rfl).2
  simp at ends

theorem tempName_injective {stem other stamp otherStamp : Text} (plain : '.' ∉ stamp)
    (otherPlain : '.' ∉ otherStamp) (same : tempName stem stamp = tempName other otherStamp) :
    stem = other ∧ stamp = otherStamp := by
  rw [tempName_eq, tempName_eq] at same
  have whole := List.tail_eq_of_cons_eq (List.append_inj' same rfl).1
  exact stem_injective plain otherPlain whole

theorem backupName_injective {stem other stamp otherStamp : Text} (plain : '.' ∉ stamp)
    (otherPlain : '.' ∉ otherStamp) (same : backupName stem stamp = backupName other otherStamp) :
    stem = other ∧ stamp = otherStamp := by
  rw [backupName_eq, backupName_eq] at same
  have whole := List.tail_eq_of_cons_eq (List.append_inj' same rfl).1
  exact stem_injective plain otherPlain whole

/-! ## Temporary files and backups as paths -/

theorem isComponent_tempName {stem stamp : Text} (single : Path.IsComponent stem)
    (plain : '/' ∉ stamp) : Path.IsComponent (tempName stem stamp) := by
  have noSlash := (Path.isComponent_iff.1 single).2.2
  rw [Path.isComponent_iff, tempName_eq]
  refine ⟨by simp, ?_, ?_⟩
  · intro same
    simpa using congrArg List.length same
  · simp [noSlash, plain]

theorem isComponent_backupName {stem stamp : Text} (single : Path.IsComponent stem)
    (plain : '/' ∉ stamp) : Path.IsComponent (backupName stem stamp) := by
  have noSlash := (Path.isComponent_iff.1 single).2.2
  rw [Path.isComponent_iff, backupName_eq]
  refine ⟨by simp, ?_, ?_⟩
  · intro same
    simpa using congrArg List.length same
  · simp [noSlash, plain]

/-- A path tells the name that it ends with. -/
theorem Path.join_injective {path otherPath : Path} {name other : Text} (single : IsComponent name)
    (otherSingle : IsComponent other) (same : path.join name = otherPath.join other) :
    name = other := by
  rw [join_of_isComponent path single, join_of_isComponent otherPath otherSingle] at same
  have parts := congrArg Path.parts same
  exact List.head_eq_of_cons_eq (List.append_inj' parts rfl).2

/-- **The backup's path** is made from the path of the temporary file alone. -/
theorem Publish.backupPath_tempPath {stem stamp : Text} (directory : Path)
    (single : Path.IsComponent stem) (plain : '/' ∉ stamp) :
    backupPath (tempPath directory stem stamp) = savedPath directory stem stamp := by
  have temp := isComponent_tempName single plain
  have backup := isComponent_backupName single plain
  have name : (tempPath directory stem stamp).name = tempName stem stamp := by
    rw [tempPath, Path.join_of_isComponent _ temp]
    simp [Path.name]
  have dropped : Text.dropEnd ".tmp" (tempName stem stamp) = '.' :: (stem ++ '.' :: stamp) := by
    rw [tempName_eq]
    exact Text.dropEnd_append _ _
  rw [backupPath, name, dropped, savedPath, Path.join_of_isComponent _ backup, tempPath,
    Path.join_of_isComponent _ temp]
  simp [Path.rename, backupName_eq]

theorem Text.exists_join_append (separator : Text) (parts : List Text) :
    ∃ front, ∀ part, Text.join separator (parts ++ [part]) = front ++ part := by
  induction parts with
  | nil => exact ⟨[], fun part => rfl⟩
  | cons first rest ih =>
      obtain ⟨front, joined⟩ := ih
      refine ⟨first ++ separator ++ front, fun part => ?_⟩
      obtain ⟨next, more, split⟩ := List.exists_cons_of_ne_nil
        (List.append_ne_nil_of_right_ne_nil rest (List.cons_ne_nil part []))
      rw [List.cons_append, split, Text.join, ← split, joined]
      simp only [List.append_assoc]

/-- Names of one length make paths of one length. -/
theorem Path.length_text_join (path : Path) {name other : Text} (single : IsComponent name)
    (otherSingle : IsComponent other)
    (same : (Text.encode name).length = (Text.encode other).length) :
    (Text.encode (path.join name).text).length = (Text.encode (path.join other).text).length := by
  obtain ⟨front, joined⟩ := Text.exists_join_append ['/'] path.parts
  rw [join_of_isComponent path single, join_of_isComponent path otherSingle]
  simp only [text, List.append_eq_nil_iff, List.cons_ne_nil, and_false, if_false, joined]
  cases path.absolute with
  | true =>
      rw [if_pos rfl, if_pos rfl, ← List.cons_append, ← List.cons_append, Text.encode_append,
        Text.encode_append, List.length_append, List.length_append, same]
  | false => simp [Text.encode_append, same]

/-- A backup's path is as long as the temporary file's. -/
theorem fits_backupName {stem stamp : Text} (path : Path) (single : Path.IsComponent stem)
    (plain : '/' ∉ stamp) :
    path.fits (backupName stem stamp) = path.fits (tempName stem stamp) := by
  have same : (Text.encode (backupName stem stamp)).length =
      (Text.encode (tempName stem stamp)).length := by
    rw [backupName_eq, tempName_eq, Text.encode_append, Text.encode_append, List.length_append,
      List.length_append]
    rfl
  have lengths := path.length_text_join (isComponent_backupName single plain)
    (isComponent_tempName single plain) same
  have notBack : backupName stem stamp ≠ Path.back ∧ tempName stem stamp ≠ Path.back := by
    rw [backupName_eq, tempName_eq]
    constructor <;> intro back <;> have length := congrArg List.length back <;>
      simp [Path.back] at length <;> omega
  simp only [Path.fits, lengths, same, notBack.1, notBack.2]

/-! ## Fresh names -/

/-- Names of files that are single names of a path, and stamps that make no name in use. -/
structure Fresh (tree : Tree) (directory : Path) (stamps : Nat → Text) (names : List Text) :
    Prop where
  single : ∀ name ∈ names, Path.IsComponent name
  distinct : names.Nodup
  plain : ∀ time, '.' ∉ stamps time ∧ '/' ∉ stamps time
  unused : ∀ name ∈ names, ∀ time,
    tempName name (stamps time) ∉ names ∧ backupName name (stamps time) ∉ names
  vacant : ∀ name ∈ names, ∀ time entry,
    tree.look (tempPath directory name (stamps time)) ≠ .ok (some entry) ∧
      tree.look (savedPath directory name (stamps time)) ≠ .ok (some entry)

/-! ## A directory with one file -/

namespace Publish

/-- The directory `o` with the old file `a` in it. -/
def sampleTree : Tree where
  entries := [([['o']], .directory), ([['o'], ['a']], .file [111, 108, 100])]

/-- The world of the tree where calls are denied by faults and every stamp is the same. -/
def sampleWorld (faults : List Fault) : World where
  tree := sampleTree
  clock := 0
  stamps := fun _ => ['s']
  faults := fun _ asked => Fault.denial faults asked

/-- A world where nothing is, and nothing is denied. -/
def emptyWorld : World where
  tree := .empty
  clock := 0
  stamps := fun _ => ['s']
  faults := fun _ _ => none

def sampleDirectory : Path :=
  .relative [['o']]

/-- New files `a` and `b`. -/
def sampleFiles : List (Text × Text) :=
  [(['a'], ['n', 'e', 'w']), (['b'], ['n', 'e', 'w'])]

theorem sample_sound : sampleTree.Sound := by
  intro location name there
  rcases location with _ | ⟨first, _ | ⟨second, rest⟩⟩
  · exact sampleTree.entryAt_root
  · by_cases inside : first = ['o']
    · rw [inside]
      rfl
    · simp [Tree.entryAt, sampleTree, Keyed.get?, Ne.symm inside] at there
  · simp [Tree.entryAt, sampleTree, Keyed.get?] at there

theorem sample_fresh :
    Fresh sampleTree sampleDirectory (fun _ => ['s']) (sampleFiles.map Prod.fst) where
  single := by decide
  distinct := by decide
  plain := fun _ => by decide
  unused := fun name member _ => by revert name; decide
  vacant := by
    intro name member _ entry
    have absent : sampleTree.look (tempPath sampleDirectory name ['s']) = .ok none ∧
        sampleTree.look (savedPath sampleDirectory name ['s']) = .ok none := by
      revert name
      decide
    rw [absent.1, absent.2]
    exact ⟨(by simp), (by simp)⟩

end Publish

end TreeGrammar
