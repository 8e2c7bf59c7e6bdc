/-
# TreeGrammar.CommandLine.Run -- what the command does and prints

Wrong usage ends with status 64, a grammar that is refused with 65, and files
that cannot be read or written with 74.
-/
import TreeGrammar.CommandLine.Arguments
import TreeGrammar.Lox
import TreeGrammar.Publish.Generate

set_option autoImplicit false

namespace TreeGrammar.CommandLine

def usageLine : Text :=
  "usage: astgen [-h] [--grammar PATH] [--strict] [-v] output_dir"

def helpLines : List Text :=
  [usageLine, [],
    "Generate syntax tree node modules and their visitor protocols.", [],
    "positional arguments:",
    "  output_dir      directory that receives one module per family", [],
    "options:",
    "  -h, --help      show this help message and exit",
    "  --grammar PATH  grammar file to generate from (default: the built-in Lox",
    "                  grammar)",
    "  --strict        reject type references that name no scalar, family or used",
    "                  type",
    "  -v, --verbose   log each step"]

/-- The lines, each with its break. -/
def printed (lines : List Text) : Text :=
  lines.flatMap (· ++ "\n")

/-- How the command ends: its status and what it prints besides its reports. -/
structure Exit where
  status : Nat
  output : Text
  errors : Text
  deriving DecidableEq

/-- How a run ends: with an exit, or broken off at a path with a NUL character, which
no argument that the system hands over has. -/
inductive Ending where
  | exit (exit : Exit)
  | nul
  deriving DecidableEq

def usageStatus : Nat := 64
def dataStatus : Nat := 65
def fileStatus : Nat := 74

/-- The end with an error message. -/
def failed (status : Nat) (message : Text) : Ending :=
  .exit ⟨status, [], printed ["error: " ++ message]⟩

/-- The grammar as messages name it. -/
def GrammarValue.title : GrammarValue → Text
  | .absent => "None"
  | .dropped => "[]"
  | .path text => text

/-- The path of the grammar file; without one the grammar is the built-in one. -/
def GrammarValue.file? : GrammarValue → Option Path
  | .absent | .dropped | .path [] => none
  | .path text => some (.ofText text)

def unreadable (grammar : GrammarValue) (cause : Refusal) : Ending :=
  failed fileStatus ("cannot read " ++ grammar.title ++ ": " ++ cause.reason.message)

def unwritable (path : Path) (cause : Refusal) : Text :=
  "cannot write " ++ path.text ++ ": " ++ cause.reason.message

def loadedEntry (family : Family) : Log.Entry :=
  ⟨.debug, "astgen.loader",
    "loaded family " ++ family.name ++ " with " ++ Text.natural family.variants.length
      ++ " variants"⟩

def doneEntry : Log.Entry :=
  ⟨.debug, "astgen.cli", "done"⟩

/-- Load a grammar and report each family when it is closed. -/
def loadReporting (text : Text) : Script (Except Grammar.Error Grammar) :=
  (Script.notes ((Grammar.readText text).1.families.map loadedEntry)).bind fun _ =>
    .done (Grammar.load text)

/-- The end of a run whose grammar is loaded or refused. -/
def runGrammar (directory : Text) (grammar : GrammarValue) (strict : Bool) :
    Except Grammar.Error Grammar → Script Ending
  | .error error => .done (failed dataStatus error.message)
  | .ok loaded =>
      (Generation.generate loaded strict directory).bind fun
        | .error (.grammar error) => .done (failed dataStatus error.message)
        | .error (.publish (.unwritable path cause)) =>
            .done (failed fileStatus (unwritable path cause))
        | .error (.publish (.system cause)) => .done (unreadable grammar cause)
        | .error (.publish .nul) => .done .nul
        | .ok _ => .note doneEntry (.done (.exit ⟨0, [], []⟩))

/-- Load the grammar and generate its modules. -/
def runGenerate (directory : Text) (grammar : GrammarValue) (strict : Bool) : Script Ending :=
  match grammar.file? with
  | none => (loadReporting Lox.grammarText).bind (runGrammar directory grammar strict)
  | some path =>
      if path.hasNul then .done .nul
      else
        .call (.read path) fun
          | .error cause => .done (unreadable grammar cause)
          | .ok octets =>
              match Grammar.decodeFile octets with
              | .error error => .done (failed dataStatus error.message)
              | .ok text => (loadReporting text).bind (runGrammar directory grammar strict)

/-- The command with its arguments, taken apart as the given release does it, or as the earlier one
if none is given. -/
def run (arguments : List Text) (release : Release := .early) : Script Ending :=
  match parse release arguments with
  | .error error =>
      .done (.exit ⟨usageStatus, [], printed [usageLine, "astgen: error: " ++ error.message]⟩)
  | .ok .help => .done (.exit ⟨0, printed helpLines, []⟩)
  | .ok (.generate directory grammar strict _) => runGenerate directory grammar strict

/-- The least level of the reports that the command prints. -/
def reportLevel (arguments : List Text) (release : Release := .early) : Log.Level :=
  match parse release arguments with
  | .ok (.generate _ _ _ true) => .debug
  | _ => .warning

end TreeGrammar.CommandLine
