/-
# TreeGrammar.Main -- the command, carried out by the system

Each call of a script is made in the file system; a refusal keeps the number and
the text that the system gives for it.  Reports go to the error output as they are
made, from the level on that the arguments ask for.
-/
import TreeGrammar.CommandLine.Run
import TreeGrammar.Script.World

set_option autoImplicit false

namespace TreeGrammar.Main

open TreeGrammar.Refusal (Reason)

/-- The number and the text of an error of the system. -/
def numbered : IO.Error → Nat × String
  | .alreadyExists _ number text => (number.toNat, text)
  | .otherError number text => (number.toNat, text)
  | .resourceBusy number text => (number.toNat, text)
  | .resourceVanished number text => (number.toNat, text)
  | .unsupportedOperation number text => (number.toNat, text)
  | .hardwareFault number text => (number.toNat, text)
  | .unsatisfiedConstraints number text => (number.toNat, text)
  | .illegalOperation number text => (number.toNat, text)
  | .protocolError number text => (number.toNat, text)
  | .timeExpired number text => (number.toNat, text)
  | .interrupted _ number text => (number.toNat, text)
  | .noFileOrDirectory _ number text => (number.toNat, text)
  | .invalidArgument _ number text => (number.toNat, text)
  | .permissionDenied _ number text => (number.toNat, text)
  | .resourceExhausted _ number text => (number.toNat, text)
  | .inappropriateType _ number text => (number.toNat, text)
  | .noSuchThing _ number text => (number.toNat, text)
  | .unexpectedEof => (0, "unexpected end of file")
  | .userError text => (0, text)

/-- The number of an error; some calls give it with a minus sign, in 32 bits. -/
def magnitude (number : Nat) : Nat :=
  if number < 0x80000000 then number else 0x100000000 - number

def reasonOf (error : IO.Error) : Reason :=
  .ofNumber (magnitude (numbered error).1) (numbered error).2

/-- The text of a path, as the system takes it. -/
def named (path : Path) : String :=
  String.ofList path.text

/-- Whether a path can be opened; a refusal that does not mean that nothing is there is
passed on. -/
def opens (path : String) : IO Bool :=
  try
    let _ ← IO.FS.Handle.mk path .read
    return true
  catch error =>
    match reasonOf error with
    | .missing => return false
    | .notDirectory => return false
    | _ => throw error

/-- Whether a path leads to something. -/
def leads (path : String) : IO Bool :=
  try
    let _ ← IO.FS.realPath path
    return true
  catch _ => opens path

/-- The characters of the random part of a fresh name. -/
def stampLetters : Array Char :=
  "abcdefghijklmnopqrstuvwxyz0123456789_".toList.toArray

/-- A random part, of eight characters. -/
def stamp : IO Text :=
  (List.range 8).mapM fun _ => do
    return stampLetters.getD (← IO.rand 0 (stampLetters.size - 1)) '_'

/-- Make an empty file with a fresh name, after at most so many names that are taken. -/
def createTemp (directory : Path) (stem : Text) : Nat → IO Path
  | 0 => make
  | tries + 1 =>
      try make
      catch error =>
        if reasonOf error = .alreadyThere then createTemp directory stem tries else throw error
where
  make : IO Path := do
    let path := tempPath directory stem (← stamp)
    let _ ← IO.FS.Handle.mk (named path) .writeNew
    return path

/-- Readable by everyone, writable by the owner. -/
def shared : IO.FileRight where
  user := { read := true, write := true }
  group := { read := true }
  other := { read := true }

/-- Make a call. -/
def make : (asked : Call) → IO asked.Answer
  | .exists path => leads (named path)
  | .isDirectory path => leads (named path ++ "/.")
  | .read path => do return (← IO.FS.readBinFile (named path)).toList
  | .makeDirectory path => IO.FS.createDir (named path)
  | .createTemp directory stem => createTemp directory stem 10000
  | .write path content => IO.FS.writeBinFile (named path) ⟨content.toArray⟩
  | .publish path => IO.setAccessRights (named path) shared
  | .link existing new => IO.FS.hardLink (named existing) (named new)
  | .replace source target => IO.FS.rename (named source) (named target)
  | .removeFile path => IO.FS.removeFile (named path)
  | .removeDirectory path => IO.FS.removeDir (named path)

/-- The answer of the system to a call. -/
def answer (asked : Call) : IO (Except Refusal asked.Answer) :=
  try return .ok (← make asked)
  catch error => return .error ⟨reasonOf error, asked.subjects⟩

/-- Carry out a script and print its reports of at least the given level. -/
def perform {α : Type} (least : Log.Level) : Script α → IO α
  | .done result => return result
  | .note entry next => do
      IO.eprint (String.ofList (Log.text least [entry]))
      perform least next
  | .call asked next => do
      let answered ← answer asked
      perform least (next answered)

end TreeGrammar.Main

open TreeGrammar in
/-- The command `astgen`. -/
def main (arguments : List String) : IO UInt32 := do
  let texts : List Text := arguments.map String.toList
  match ← Main.perform (CommandLine.reportLevel texts .current)
      (CommandLine.run texts .current) with
  | .nul => throw (.userError (String.ofList Path.nulMessage))
  | .exit exit =>
      IO.print (String.ofList exit.output)
      IO.eprint (String.ofList exit.errors)
      return exit.status.toUInt32
