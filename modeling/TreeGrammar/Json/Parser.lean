/-
# TreeGrammar.Json.Parser -- JSON values read from their tokens

The parser is a machine with a stack: a frame is an array or an object that is
still open, and `Machine.step` takes one token.  So reading a value in front of
more tokens is reading the value and going on behind it.  Of two members with one
key the later value stands in the earlier place.  A number that is too long is
refused where a value may stand, and before anything behind it is.
-/
import TreeGrammar.Json.Token

set_option autoImplicit false

namespace TreeGrammar.Json

/-- Why a text is refused. -/
inductive Refusal where
  | malformed
  /-- An integer has more digits than are read. -/
  | tooLong (digits : Nat)

namespace Parser

/-- An array or object that is still open, around the value that is being read. -/
inductive Frame where
  /-- The items before the value, last one first. -/
  | items (before : List Json)
  /-- The members before the value, and its key. -/
  | member (before : List (Text × Json)) (key : Text)

/-- What has been read, by what must come next. -/
inductive Machine where
  | awaitValue (stack : List Frame)
  | awaitFirstItem (stack : List Frame)
  | awaitFirstKey (stack : List Frame)
  | awaitKey (stack : List Frame) (before : List (Text × Json))
  | awaitColon (stack : List Frame) (before : List (Text × Json)) (key : Text)
  | behind (stack : List Frame) (value : Json)

namespace Machine

/-- The token that begins or is a value. -/
def begin (stack : List Frame) : Token → Except Refusal Machine
  | .openArray => .ok (.awaitFirstItem stack)
  | .openObject => .ok (.awaitFirstKey stack)
  | .text value => .ok (.behind stack (.text value))
  | .number value => .ok (.behind stack value)
  | .long digits => .error (.tooLong digits)
  | .literal value => .ok (.behind stack value)
  | .closeArray | .closeObject | .comma | .colon => .error .malformed

def step : Machine → Token → Except Refusal Machine
  | .awaitValue stack, token => begin stack token
  | .awaitFirstItem stack, .closeArray => .ok (.behind stack (.array []))
  | .awaitFirstItem stack, token => begin (.items [] :: stack) token
  | .awaitFirstKey stack, .closeObject => .ok (.behind stack (.object []))
  | .awaitFirstKey stack, .text key => .ok (.awaitColon stack [] key)
  | .awaitKey stack before, .text key => .ok (.awaitColon stack before key)
  | .awaitColon stack before key, .colon => .ok (.awaitValue (.member before key :: stack))
  | .behind (.items before :: stack) value, .comma =>
      .ok (.awaitValue (.items (value :: before) :: stack))
  | .behind (.items before :: stack) value, .closeArray =>
      .ok (.behind stack (.array (value :: before).reverse))
  | .behind (.member before key :: stack) value, .comma =>
      .ok (.awaitKey stack (Keyed.put key value before))
  | .behind (.member before key :: stack) value, .closeObject =>
      .ok (.behind stack (.object (Keyed.put key value before)))
  | _, _ => .error .malformed

/-- The value that has been read, if nothing is open. -/
def result : Machine → Except Refusal Json
  | .behind [] value => .ok value
  | _ => .error .malformed

/-- The machine behind the tokens. -/
def run (machine : Machine) (tokens : List Token) : Except Refusal Machine :=
  tokens.foldlM step machine

theorem run_append (machine : Machine) (first second : List Token) :
    machine.run (first ++ second) = (machine.run first).bind (·.run second) :=
  List.foldlM_append

end Machine

end Parser

/-- The value that a text writes. -/
def parse (text : Text) : Except Refusal Json := do
  let (tokens, complete) := Token.ofText text
  let machine ← (Parser.Machine.awaitValue []).run tokens
  if complete then machine.result else .error .malformed

end TreeGrammar.Json
