/-
# TreeGrammar.Script.Fault -- calls that are denied by their paths

A fault denies one kind of call on paths that match.  Its subject is the target
of a replacement and the existing path of every other call; the name is compared
with the subject's last name and the ending with the first path of the call.  The
current directory has the empty name.
-/
import TreeGrammar.Script.Basic

set_option autoImplicit false

namespace TreeGrammar

/-- The kinds of calls that a fault can deny. -/
inductive Fault.Kind where
  | replace
  | link
  | publish
  | removeFile
  deriving DecidableEq

structure Fault where
  kind : Fault.Kind
  name : Option Text
  ending : Option Text

/-- The kind of a call, its subject and its first path, as far as it can be denied. -/
def Call.deniable? : Call → Option (Fault.Kind × Path × Path)
  | .replace source target => some (.replace, target, source)
  | .link existing _ => some (.link, existing, existing)
  | .publish path => some (.publish, path, path)
  | .removeFile path => some (.removeFile, path, path)
  | _ => none

def Fault.hits (fault : Fault) (asked : Call) : Bool :=
  match asked.deniable? with
  | none => false
  | some (kind, subject, first) =>
      fault.kind = kind && fault.name.all (· = subject.name)
        && fault.ending.all fun ending => ending.isSuffixOf first.text

/-- The denial of a call that any of the faults hits. -/
def Fault.denial (faults : List Fault) (asked : Call) : Option Refusal :=
  if faults.any (·.hits asked) then some ⟨.accessDenied, []⟩ else none

end TreeGrammar
