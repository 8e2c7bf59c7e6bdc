/-
# TreeGrammar.Json.Token -- the tokens of JSON text

Tokens are read character by character: `Lexer.step` takes the lexer from one
state to the next and hands out the tokens that are complete.  A number or a word
is complete at the first character that does not belong to it, which is then read
as the beginning of another token.  Where a text stops to be JSON, the number that
has been read so far is a token still (`Lexer.leftover`), since an integer may be
refused for its length before the rest is looked at.
-/
import TreeGrammar.Json.Basic
import TreeGrammar.Text.Numeral

set_option autoImplicit false

namespace TreeGrammar.Json

inductive Token where
  | openArray
  | closeArray
  | openObject
  | closeObject
  | comma
  | colon
  | text (value : Text)
  | number (value : Json)
  /-- An integer with more digits than are read. -/
  | long (digits : Nat)
  | literal (value : Json)

/-- The characters of a text read so far, last one first, and a leading surrogate that
waits for its trailing one. -/
structure Units where
  read : Text
  leading : Option Nat

namespace Units

def empty : Units := ⟨[], none⟩

/-- A leading surrogate that is not followed by a trailing one is no character. -/
def settled (units : Units) : Text :=
  match units.leading with
  | none => units.read
  | some _ => '\uFFFD' :: units.read

def push (units : Units) (c : Char) : Units :=
  ⟨c :: units.settled, none⟩

/-- One more 16-bit unit, written by its number. -/
def pushUnit (units : Units) (unit : Nat) : Units :=
  if 0xD800 ≤ unit ∧ unit < 0xDC00 then ⟨units.settled, some unit⟩
  else if 0xDC00 ≤ unit ∧ unit < 0xE000 then
    match units.leading with
    | some leading =>
        ⟨Char.ofNat (0x10000 + (leading - 0xD800) * 0x400 + (unit - 0xDC00)) :: units.read, none⟩
    | none => units.push '\uFFFD'
  else units.push (Char.ofNat unit)

end Units

/-! ## Numbers -/

/-- A number as it is written; the digits of each part come last one first. -/
structure Numeral where
  negative : Bool
  whole : Text
  fraction : Text
  /-- Whether the exponent is negative. -/
  down : Bool
  exponent : Text

namespace Numeral

/-- The part of a number that its next character may continue. -/
inductive Part where
  | sign
  | whole
  | point
  | fraction
  | mark
  | markSign
  | exponent

/-- Whether a number may end behind the part. -/
def Part.isEnd : Part → Bool
  | .whole | .fraction | .exponent => true
  | .sign | .point | .mark | .markSign => false

/-- A number of which only the sign is written. -/
def ofSign (negative : Bool) : Numeral := ⟨negative, [], [], false, []⟩

/-- The greatest number of digits with which an integer is read. -/
def digitLimit : Nat := 4300

/-- The value of digits that come last one first. -/
def value (digits : Text) : Nat :=
  Text.valueOf 0 digits.reverse

/-- The exponent with its sign. -/
def power (numeral : Numeral) : Int :=
  if numeral.down then -(value numeral.exponent) else value numeral.exponent

/-- The number with its next character, unless the character belongs to no number. -/
def extend? (numeral : Numeral) (part : Part) (c : Char) : Option (Numeral × Part) :=
  if (Text.digitValue? c).isSome then
    match part with
    | .sign => some ({ numeral with whole := [c] }, .whole)
    | .whole =>
        if numeral.whole = ['0'] then none
        else some ({ numeral with whole := c :: numeral.whole }, .whole)
    | .point | .fraction => some ({ numeral with fraction := c :: numeral.fraction }, .fraction)
    | .mark | .markSign | .exponent =>
        some ({ numeral with exponent := c :: numeral.exponent }, .exponent)
  else
    match part with
    | .whole =>
        if c = '.' then some (numeral, .point)
        else if c = 'e' ∨ c = 'E' then some (numeral, .mark)
        else none
    | .fraction => if c = 'e' ∨ c = 'E' then some (numeral, .mark) else none
    | .mark =>
        if c = '+' then some (numeral, .markSign)
        else if c = '-' then some ({ numeral with down := true }, .markSign)
        else none
    | _ => none

/-- The number; without fraction and exponent it is an integer. -/
def token? (numeral : Numeral) : Option Token :=
  if numeral.whole = [] then none
  else if numeral.fraction = [] ∧ numeral.exponent = [] then
    if digitLimit < numeral.whole.length then some (.long numeral.whole.length)
    else
      let whole : Int := value numeral.whole
      some (.number (.number (if numeral.negative then -whole else whole)))
  else
    some (.number (.decimal (Binary64.ofDecimal numeral.negative
      (value (numeral.fraction ++ numeral.whole)) (numeral.power - numeral.fraction.length))))

end Numeral

/-! ## All tokens -/

namespace Lexer

inductive State where
  /-- Between two tokens. -/
  | between
  /-- Inside a text. -/
  | inside (units : Units)
  /-- Behind a backslash. -/
  | escape (units : Units)
  /-- Inside the number of a unit, with its value so far and the digits still due. -/
  | unit (units : Units) (value due : Nat)
  /-- Inside a number. -/
  | number (numeral : Numeral) (part : Numeral.Part)
  /-- Inside a word, last letter first. -/
  | word (letters : Text)

/-- The letters of which words are made. -/
def isLetter (c : Char) : Bool :=
  ('a' ≤ c && c ≤ 'z') || ('A' ≤ c && c ≤ 'Z')

/-- The complete tokens and the state behind the first character of a token. -/
def start (c : Char) : Option (List Token × State) :=
  if c = ' ' ∨ c = '\t' ∨ c = '\n' ∨ c = '\r' then some ([], .between)
  else if c = '"' then some ([], .inside .empty)
  else if c = '[' then some ([.openArray], .between)
  else if c = ']' then some ([.closeArray], .between)
  else if c = '{' then some ([.openObject], .between)
  else if c = '}' then some ([.closeObject], .between)
  else if c = ',' then some ([.comma], .between)
  else if c = ':' then some ([.colon], .between)
  else if c = '-' then some ([], .number (.ofSign true) .sign)
  else if isLetter c then some ([], .word [c])
  else ((Numeral.ofSign false).extend? .sign c).map fun (numeral, part) =>
    ([], .number numeral part)

/-- The literal that the letters write, last one first. -/
def literal? (letters : Text) : Option Token :=
  if letters.reverse = "true".toList then some (.literal (.boolean true))
  else if letters.reverse = "false".toList then some (.literal (.boolean false))
  else if letters.reverse = "null".toList then some (.literal .null)
  else if letters.reverse = "NaN".toList then some (.literal (.decimal .notANumber))
  else if letters.reverse = "Infinity".toList then some (.literal (.decimal (.infinite false)))
  else if letters.reverse = "-Infinity".toList then some (.literal (.decimal (.infinite true)))
  else none

/-- The character that an escape with a letter stands for. -/
def escaped? (c : Char) : Option Char :=
  if c = '"' ∨ c = '\\' ∨ c = '/' then some c
  else if c = 'b' then some '\x08'
  else if c = 'f' then some '\x0c'
  else if c = 'n' then some '\n'
  else if c = 'r' then some '\r'
  else if c = 't' then some '\t'
  else none

/-- The complete tokens and the state behind one more character. -/
def step : State → Char → Option (List Token × State)
  | .between, c => start c
  | .inside units, c =>
      if c = '"' then some ([.text units.settled.reverse], .between)
      else if c = '\\' then some ([], .escape units)
      else if c.toNat < 0x20 then none
      else some ([], .inside (units.push c))
  | .escape units, c =>
      if c = 'u' then some ([], .unit units 0 4)
      else (escaped? c).map fun meant => ([], .inside (units.push meant))
  | .unit units value due, c =>
      (Text.hexValue? c).map fun digit =>
        let more := value * 16 + digit
        if due = 1 then ([], .inside (units.pushUnit more)) else ([], .unit units more (due - 1))
  | .number numeral part, c =>
      match numeral.extend? part c with
      | some (longer, next) => some ([], .number longer next)
      | none =>
          match part with
          | .sign => if c = 'I' then some ([], .word ['I', '-']) else none
          | _ =>
              if part.isEnd then do
                let token ← numeral.token?
                let (tokens, state) ← start c
                return (token :: tokens, state)
              else none
  | .word letters, c =>
      if isLetter c then some ([], .word (c :: letters))
      else do
        let token ← literal? letters
        let (tokens, state) ← start c
        return (token :: tokens, state)

/-- The tokens that the end of the text completes. -/
def finish : State → Option (List Token)
  | .between => some []
  | .number numeral part => if part.isEnd then numeral.token?.map ([·]) else none
  | .word letters => (literal? letters).map ([·])
  | .inside _ | .escape _ | .unit .. => none

/-- The number that has been read where the text stops to be JSON. -/
def leftover : State → List Token
  | .number numeral _ => numeral.token?.toList
  | _ => []

/-- The tokens from a state on, behind those read before, which come last one first; and whether
they are all that the text holds. -/
def run (before : List Token) (state : State) : Text → List Token × Bool
  | [] =>
      match finish state with
      | some last => (before.reverse ++ last, true)
      | none => (before.reverse ++ leftover state, false)
  | c :: rest =>
      match step state c with
      | some (tokens, next) => run (tokens.reverse ++ before) next rest
      | none => (before.reverse ++ leftover state, false)

end Lexer

/-- The tokens at the beginning of a text, and whether they are all that the text holds. -/
def Token.ofText (text : Text) : List Token × Bool :=
  Lexer.run [] .between text

end TreeGrammar.Json
