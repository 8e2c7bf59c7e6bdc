/-
# TreeGrammar.Text.LowerCase -- texts in lower case

A letter with one lower case letter becomes that letter.  Two letters need more:
the capital I with a dot becomes two characters, and the capital sigma takes its
final form at the end of a word (`endsWord`).
-/
import TreeGrammar.Text.LowerCase.Table

set_option autoImplicit false

namespace TreeGrammar.Text

/-- Whether the letters of this run include the code point. -/
def CaseRun.includes (run : CaseRun) (code : Nat) : Bool :=
  run.first ≤ code && code ≤ run.last && (code - run.first) % run.stride = 0

/-- The lower case of a letter that has one, else the character itself. -/
def lowerLetter (c : Char) : Char :=
  match caseRuns.find? fun run => run.includes c.toNat with
  | some run => Char.ofNat (c.toNat + run.shift).toNat
  | none => c

/-- Whether the first character that is not passed over is a cased letter. -/
def meetsCased (text : Text) : Bool :=
  match text.dropWhile caseIgnorables.contains with
  | [] => false
  | c :: _ => casedLetters.contains c

/-- A letter ends a word if a cased letter stands before it and none after it;
`before` is read backwards. -/
def endsWord (before after : Text) : Bool :=
  meetsCased before && !meetsCased after

/-- The lower case of one character between its neighbours. -/
def lowerBetween (before : Text) (c : Char) (after : Text) : Text :=
  if c = 'İ' then ['i', '\u0307']
  else if c = 'Σ' then [if endsWord before after then 'ς' else 'σ']
  else [lowerLetter c]

/-- The lower case of a text that follows `before`, which is read backwards. -/
def lowerAfter (before : Text) : Text → Text
  | [] => []
  | c :: rest => lowerBetween before c rest ++ lowerAfter (c :: before) rest

/-- The text in lower case. -/
def lower (text : Text) : Text :=
  lowerAfter [] text

end TreeGrammar.Text
