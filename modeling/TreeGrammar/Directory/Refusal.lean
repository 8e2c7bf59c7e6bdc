/-
# TreeGrammar.Directory.Refusal -- why the system refuses a call
-/
import TreeGrammar.Text.Numeral
import TreeGrammar.Text.Quoted

set_option autoImplicit false

namespace TreeGrammar

namespace Refusal

/-- The reasons, as the system numbers them. -/
inductive Reason where
  | notPermitted
  | missing
  | accessDenied
  | alreadyThere
  | notDirectory
  | isDirectory
  | invalid
  | nameTooLong
  | notEmpty
  | other (number : Nat) (message : Text)
  deriving DecidableEq

def Reason.number : Reason → Nat
  | .notPermitted => 1
  | .missing => 2
  | .accessDenied => 13
  | .alreadyThere => 17
  | .notDirectory => 20
  | .isDirectory => 21
  | .invalid => 22
  | .nameTooLong => 36
  | .notEmpty => 39
  | .other n _ => n

def Reason.message : Reason → Text
  | .notPermitted => "Operation not permitted"
  | .missing => "No such file or directory"
  | .accessDenied => "Permission denied"
  | .alreadyThere => "File exists"
  | .notDirectory => "Not a directory"
  | .isDirectory => "Is a directory"
  | .invalid => "Invalid argument"
  | .nameTooLong => "File name too long"
  | .notEmpty => "Directory not empty"
  | .other _ text => text

/-- The reason with a number; the text is kept if the number has no reason of its own. -/
def Reason.ofNumber (number : Nat) (text : Text) : Reason :=
  match number with
  | 1 => .notPermitted
  | 2 => .missing
  | 13 => .accessDenied
  | 17 => .alreadyThere
  | 20 => .notDirectory
  | 21 => .isDirectory
  | 22 => .invalid
  | 36 => .nameTooLong
  | 39 => .notEmpty
  | _ => .other number text

theorem Reason.number_ofNumber (number : Nat) (text : Text) :
    (Reason.ofNumber number text).number = number := by
  unfold Reason.ofNumber
  split <;> rfl

end Refusal

/-- A refused call: the reason, and the texts of the paths that the call was about. -/
structure Refusal where
  reason : Refusal.Reason
  subjects : List Text
  deriving DecidableEq

namespace Refusal

def subjectMark : List Text → Text
  | [] => []
  | subjects => ": " ++ Text.join " -> " (subjects.map Text.quoted)

def message (refusal : Refusal) : Text :=
  "[Errno " ++ Text.natural refusal.reason.number ++ "] " ++ refusal.reason.message
    ++ subjectMark refusal.subjects

end Refusal

end TreeGrammar
