/-
# TreeGrammar.TypeRef.Parser -- types read from grammar text

A type is a name; `List<T>` or `Sequence<T>`; `Optional<T>`; or a type of one of
these forms followed by one question mark, which makes it optional.  Blanks may
stand between any two of these pieces.  A name is one or two ASCII words with a
point between them, and the longest name at the front of the text is taken.

Every constructor uses up at least its angle bracket, so as many rounds as the
text has characters are always enough (`readFrom`).  An interpreter that reads by
recursion gives up at some depth of nesting; this limit is left out, and types are
read to any depth.
-/
import TreeGrammar.Text.Ascii
import TreeGrammar.Text.Blank
import TreeGrammar.Text.Quoted
import TreeGrammar.TypeRef.Basic

set_option autoImplicit false

namespace TreeGrammar.TypeRef

/-- Why a text is no type. -/
inductive Fault where
  | expectedName
  | unsupportedConstructor (name : Text)
  | unclosed
  | trailing (rest : Text)
  deriving DecidableEq

def Fault.message : Fault → Text
  | .expectedName => "expected a type name"
  | .unsupportedConstructor name => "unsupported type constructor '" ++ name ++ "'"
  | .unclosed => "missing '>'"
  | .trailing rest => "unexpected " ++ Text.quoted rest ++ " after type"

def isWordStart (c : Char) : Bool :=
  Text.isCapital c || Text.isSmall c || c = '_'

def isWordPart (c : Char) : Bool :=
  isWordStart c || Text.isDigit c

/-- The longest word at the front of a text, and the rest. -/
def takeWord? : Text → Option (Text × Text)
  | [] => none
  | c :: rest =>
      if isWordStart c then some (c :: rest.takeWhile isWordPart, rest.dropWhile isWordPart)
      else none

/-- The longest name at the front of a text, and the rest.  A point belongs to the
name only if a word follows it. -/
def takeName? (text : Text) : Option (Text × Text) :=
  match takeWord? text with
  | none => none
  | some (word, []) => some (word, [])
  | some (word, c :: rest) =>
      if c = '.' then
        match takeWord? rest with
        | some (second, after) => some (word ++ '.' :: second, after)
        | none => some (word, c :: rest)
      else some (word, c :: rest)

/-- The constructor that a name stands for in front of an angle bracket. -/
def constructor? (name : Text) : Option (TypeRef → TypeRef) :=
  if name = "List".toList ∨ name = "Sequence".toList then some .sequence
  else if name = "Optional".toList then some .optional
  else none

/-- The type with the question mark that may follow it. -/
def takeMark (type : TypeRef) : Text → TypeRef × Text
  | [] => (type, [])
  | c :: rest => if c = '?' then (.optional type, Text.trimStart rest) else (type, c :: rest)

/-- The type at the front of a text, and the rest, in at most `rounds` nested types. -/
def readWithin : (rounds : Nat) → Text → Except Fault (TypeRef × Text)
  | 0, _ => .error .expectedName
  | rounds + 1, text =>
      match takeName? text with
      | none => .error .expectedName
      | some (name, after) =>
          match Text.trimStart after with
          | [] => .ok (.named name, [])
          | c :: rest =>
              if c = '<' then
                match constructor? name with
                | none => .error (.unsupportedConstructor name)
                | some wrap =>
                    match readWithin rounds (Text.trimStart rest) with
                    | .error fault => .error fault
                    | .ok (_, []) => .error .unclosed
                    | .ok (inner, d :: behind) =>
                        if d = '>' then .ok (takeMark (wrap inner) (Text.trimStart behind))
                        else .error .unclosed
              else .ok (takeMark (.named name) (c :: rest))

/-- The type at the front of a text, and the rest. -/
def readFrom (text : Text) : Except Fault (TypeRef × Text) :=
  readWithin (text.length + 1) text

/-- The type that a text spells, blanks around it apart. -/
def parse (text : Text) : Except Fault TypeRef :=
  match readFrom (Text.trim text) with
  | .error fault => .error fault
  | .ok (type, []) => .ok type
  | .ok (_, c :: rest) => .error (.trailing (c :: rest))

end TreeGrammar.TypeRef
