/-
# TreeGrammar.Log -- what a run reports about its steps
-/
import TreeGrammar.Text.Basic

set_option autoImplicit false

namespace TreeGrammar.Log

inductive Level where
  | debug
  | info
  | warning
  | error
  deriving DecidableEq

def Level.word : Level → Text
  | .debug => "DEBUG"
  | .info => "INFO"
  | .warning => "WARNING"
  | .error => "ERROR"

def Level.rank : Level → Nat
  | .debug => 0
  | .info => 1
  | .warning => 2
  | .error => 3

/-- One report, with the part of the program that makes it. -/
structure Entry where
  level : Level
  source : Text
  message : Text
  deriving DecidableEq

def Entry.line (entry : Entry) : Text :=
  entry.level.word ++ " " ++ entry.source ++ ": " ++ entry.message

/-- The reports of at least the given level, one a line. -/
def text (least : Level) (entries : List Entry) : Text :=
  (entries.filter fun entry => least.rank ≤ entry.level.rank).flatMap fun entry =>
    entry.line ++ "\n"

end TreeGrammar.Log
