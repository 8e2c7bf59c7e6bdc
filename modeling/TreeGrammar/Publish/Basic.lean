/-
# TreeGrammar.Publish.Basic -- all files or none

Files are published into a directory in three passes.  Every text is written to a
temporary file; every target that is there gets a backup, a second name of its
file; then every temporary file is moved onto its target.  When a step is refused,
the targets moved so far are restored from their backups or removed, temporary
files and backups go, and so do the directories made for the output.

The directories that are missing are looked for before anything is done.  A
refusal there, or when temporary files and backups are removed, is passed on as
it is; every other one is reported with the path that could not be written.  A
NUL character in a path breaks the run off where it stands, and so does a surrogate
in a name or in a text, which is noticed only when the file is made or written:
nothing is taken back then.
-/
import TreeGrammar.Keyed
import TreeGrammar.Script.Basic
import TreeGrammar.Text.Wide

set_option autoImplicit false

namespace TreeGrammar.Publish

/-- A file on its way: where its text is written, where it shall go, and the second
name of the file that stands there. -/
structure Staged where
  temp : Path
  target : Path
  backup : Option Path
  deriving DecidableEq

/-- What stops the passes: a refused step, by the target it was made for, or a name
that no file can have or a text that no file can hold. -/
inductive Halt where
  | refused (target : Path) (cause : Refusal)
  | nul
  deriving DecidableEq

/-- Why nothing, or not everything, was published. -/
inductive Failure where
  | unwritable (path : Path) (cause : Refusal)
  | system (cause : Refusal)
  /-- Broken off at a NUL character or at a surrogate. -/
  | nul
  deriving DecidableEq

/-- The path of the backup beside a temporary file. -/
def backupPath (temp : Path) : Path :=
  temp.rename (Text.dropEnd ".tmp" temp.name ++ ".bak")

def source : Text := "astgen.generator"

/-! ## Directories -/

/-- Those of the paths that lead to nothing. -/
def missingAmong : List Path → Script (Except Refusal (List Path))
  | [] => .done (.ok [])
  | path :: rest =>
      .call (.exists path) fun
        | .error cause => .done (.error cause)
        | .ok there =>
            (missingAmong rest).bind fun found =>
              .done (found.map fun more => if there then more else path :: more)

/-- A directory that could not be made may be there already. -/
def acceptDirectory (path : Path) (cause : Refusal) : Script (Except Refusal Unit) :=
  .call (.isDirectory path) fun
    | .error other => .done (.error other)
    | .ok there => .done (if there then .ok () else .error cause)

/-- Make one directory, unless it is there. -/
def makeDirectory (path : Path) : Script (Except Refusal Unit) :=
  .call (.makeDirectory path) fun
    | .ok _ => .done (.ok ())
    | .error cause =>
        if cause.reason = .missing then .done (.error cause) else acceptDirectory path cause

/-- Make a directory and, where they are missing, those above it; the names of the path
come last one first. -/
def makeDirectories (absolute : Bool) : List Text → Script (Except Refusal Unit)
  | [] => makeDirectory ⟨absolute, []⟩
  | name :: above =>
      let path : Path := ⟨absolute, (name :: above).reverse⟩
      .call (.makeDirectory path) fun
        | .ok _ => .done (.ok ())
        | .error cause =>
            if cause.reason = .missing then
              (makeDirectories absolute above).bind fun
                | .error other => .done (.error other)
                | .ok _ => makeDirectory path
            else acceptDirectory path cause

/-! ## The three passes -/

section Staging

variable {ν τ : Type} [Text.Wording ν] [Text.Wording τ]

/-- Write one text to a temporary file. -/
def stageOne (directory : Path) (givenName : ν) (givenText : τ) :
    Script (Option Staged × Option Halt) :=
  match Text.Wording.text? givenName with
  | none => .done (none, some .nul)
  | some name =>
      let target := directory.join name
      if target.hasNul then .done (none, some .nul)
      else
        .call (.createTemp directory name) fun
          | .error cause => .done (none, some (.refused target cause))
          | .ok temp =>
              let staged : Staged := ⟨temp, target, none⟩
              match Text.Wording.text? givenText with
              | none => .done (some staged, some .nul)
              | some text =>
                  .call (.write temp (Text.encode text)) fun
                    | .error cause => .done (some staged, some (.refused target cause))
                    | .ok _ =>
                        .call (.publish temp) fun
                          | .error cause => .done (some staged, some (.refused target cause))
                          | .ok _ => .done (some staged, none)

/-- Where name and content are texts, nothing is noticed but a NUL character. -/
theorem stageOne_text (directory : Path) (name text : Text) :
    stageOne directory name text =
      let target := directory.join name
      if target.hasNul then .done (none, some .nul)
      else
        .call (.createTemp directory name) fun
          | .error cause => .done (none, some (.refused target cause))
          | .ok temp =>
              let staged : Staged := ⟨temp, target, none⟩
              .call (.write temp (Text.encode text)) fun
                | .error cause => .done (some staged, some (.refused target cause))
                | .ok _ =>
                    .call (.publish temp) fun
                      | .error cause => .done (some staged, some (.refused target cause))
                      | .ok _ => .done (some staged, none) := by
  simp only [stageOne, Text.Wording.text?]
  refine ite_congr rfl (fun _ => rfl) fun _ => congrArg (Script.call _) (funext fun created => ?_)
  rcases created with cause | temp
  · rfl
  · refine congrArg (Script.call (.write temp _)) (funext fun written => ?_)
    rcases written with cause | _
    · rfl
    · exact congrArg (Script.call _) (funext fun published => by cases published <;> rfl)

/-- Write texts to temporary files, up to the first refusal. -/
def stageAll (directory : Path) : List (ν × τ) → Script (List Staged × Option Halt)
  | [] => .done ([], none)
  | (name, text) :: rest =>
      (stageOne directory name text).bind fun
        | (staged, some halt) => .done (staged.toList, some halt)
        | (staged, none) =>
            (stageAll directory rest).bind fun (more, halt) =>
              .done (staged.toList ++ more, halt)

end Staging

/-- Back up the targets that are there, up to the first refusal. -/
def backUpAll : List Staged → Script (List Staged × Option Halt)
  | [] => .done ([], none)
  | staged :: rest =>
      .call (.exists staged.target) fun
        | .ok true =>
            let backup := backupPath staged.temp
            let saved := { staged with backup := some backup }
            .call (.link staged.target backup) fun
              | .error cause => .done (saved :: rest, some (.refused staged.target cause))
              | .ok _ => (backUpAll rest).bind fun (more, halt) => .done (saved :: more, halt)
        | _ => (backUpAll rest).bind fun (more, halt) => .done (staged :: more, halt)

def wrote (target : Path) : Log.Entry :=
  ⟨.debug, source, "wrote " ++ target.text⟩

/-- Move temporary files onto their targets, up to the first refusal; those moved. -/
def replaceAll : List Staged → Script (List Staged × Option Halt)
  | [] => .done ([], none)
  | staged :: rest =>
      .call (.replace staged.temp staged.target) fun
        | .error cause => .done ([], some (.refused staged.target cause))
        | .ok _ =>
            .note (wrote staged.target)
              ((replaceAll rest).bind fun (more, halt) => .done (staged :: more, halt))

/-- The three passes, up to the first refusal: what was staged, what was moved. -/
def attempt {ν τ : Type} [Text.Wording ν] [Text.Wording τ] (files : List (ν × τ))
    (directory : Path) : Script (List Staged × List Staged × Option Halt) :=
  (stageAll directory files).bind fun
    | (staged, some halt) => .done (staged, [], some halt)
    | (staged, none) =>
        (backUpAll staged).bind fun
          | (saved, some halt) => .done (saved, [], some halt)
          | (saved, none) =>
              (replaceAll saved).bind fun (moved, halt) => .done (saved, moved, halt)

/-! ## Taking back -/

def couldNotRestore (target : Path) (cause : Refusal) : Log.Entry :=
  ⟨.error, source, "could not restore " ++ target.text ++ ": " ++ cause.message⟩

/-- A refused restoration is reported and passed over. -/
def reportRefusal (target : Path) : Except Refusal Unit → Script Unit
  | .ok _ => .done ()
  | .error cause => .note (couldNotRestore target cause) (.done ())

/-- Give a target its backup back, or remove it if it had none. -/
def restoreOne (staged : Staged) : Script Unit :=
  match staged.backup with
  | some backup => .call (.replace backup staged.target) (reportRefusal staged.target)
  | none => .call (.removeFile staged.target) (reportRefusal staged.target)

def restoreAll : List Staged → Script Unit
  | [] => .done ()
  | staged :: rest => (restoreOne staged).bind fun _ => restoreAll rest

/-- Remove files as far as they are there, up to the first refusal. -/
def discardAll : List Path → Script (Except Refusal Unit)
  | [] => .done (.ok ())
  | path :: rest =>
      .call (.removeFile path) fun
        | .ok _ => discardAll rest
        | .error cause =>
            if cause.reason = .missing then discardAll rest else .done (.error cause)

def leftInPlace (directory : Path) (cause : Refusal) : Log.Entry :=
  ⟨.warning, source, "left directory " ++ directory.text ++ " in place: " ++ cause.message⟩

/-- Remove directories, up to the first refusal, which is reported. -/
def removeDirectories : List Path → Script Unit
  | [] => .done ()
  | directory :: rest =>
      .call (.removeDirectory directory) fun
        | .ok _ => removeDirectories rest
        | .error cause => .note (leftInPlace directory cause) (.done ())

/-- The temporary files and backups of staged files. -/
def litter (staged : List Staged) : List Path :=
  staged.flatMap fun entry => entry.temp :: entry.backup.toList

/-- Take back what was done; `created` are the directories made, deepest first. -/
def rollBack (staged moved : List Staged) (created : List Path) : Script (Except Refusal Unit) :=
  (restoreAll moved.reverse).bind fun _ =>
    (discardAll (litter staged)).bind fun
      | .error cause => .done (.error cause)
      | .ok _ => (removeDirectories created).bind fun _ => .done (.ok ())

/-! ## Publishing -/

/-- What becomes of an attempt. -/
def conclude (created : List Path) : List Staged × List Staged × Option Halt →
    Script (Except Failure (List Path))
  | (_, _, some .nul) => .done (.error .nul)
  | (staged, moved, some (.refused target cause)) =>
      (rollBack staged moved created).bind fun
        | .error other => .done (.error (.system other))
        | .ok _ => .done (.error (.unwritable target cause))
  | (staged, _, none) =>
      (discardAll (staged.filterMap Staged.backup)).bind fun
        | .error cause => .done (.error (.system cause))
        | .ok _ => .done (.ok (staged.map Staged.target))

/-- Look for the directories above a path with a NUL character, and do no more. -/
def lookThrough (directory : Path) : Script (Except Failure (List Path)) :=
  (missingAmong (directory.ancestors.filter fun path => !path.hasNul)).bind fun
    | .error cause => .done (.error (.system cause))
    | .ok _ => .done (.error .nul)

/-- Make the directory that files are published into; the paths that led to nothing before,
the directory's own one first. -/
def prepare (directory : Path) : Script (Except Failure (List Path)) :=
  (missingAmong (directory :: directory.ancestors)).bind fun
    | .error cause => .done (.error (.system cause))
    | .ok created =>
        (makeDirectories directory.absolute directory.parts.reverse).bind fun
          | .error cause => .done (.error (.unwritable directory cause))
          | .ok _ => .done (.ok created)

/-- Publish files, given by name and text, into a directory; the paths written. -/
def publish {ν τ : Type} [Text.Wording ν] [Text.Wording τ] (files : List (ν × τ))
    (directory : Path) : Script (Except Failure (List Path)) :=
  if directory.hasNul then lookThrough directory
  else (prepare directory).bind fun
    | .error failure => .done (.error failure)
    | .ok created => (attempt files directory).bind (conclude created)

end TreeGrammar.Publish
