/-
# TreeGrammar.Grammar.Error -- why a grammar is refused

An error is a cause; `Error.message` is its wording.  A malformed line is reported
with its text and its number, a bad name with the number of its line, and a clash
between declarations with the names that clash.
-/
import TreeGrammar.Text.Utf8
import TreeGrammar.TypeRef.Parser

set_option autoImplicit false

namespace TreeGrammar.Grammar

/-- What is wrong with a line. -/
inductive LineFault where
  | missingSeparator
  | missingVariantName
  | notField (entry : Text)
  | type (fault : TypeRef.Fault)
  | notUse
  | badPath (path : Text)
  | notHeader
  | missingFamilyName
  | unexpectedBrace
  | noVariants
  | unterminated
  | notText (fault : Text.Utf8.Fault)
  deriving DecidableEq

def LineFault.message : LineFault → Text
  | .missingSeparator => "missing ':' separator"
  | .missingVariantName => "missing variant name"
  | .notField entry => "field " ++ Text.quoted entry ++ " is not 'Type name'"
  | .type fault => fault.message
  | .notUse => "expected 'use module: Name, ...'"
  | .badPath path => "bad module path '" ++ path ++ "'"
  | .notHeader => "expected 'Family \x7b' or a use line"
  | .missingFamilyName => "missing family name"
  | .unexpectedBrace => "unexpected brace"
  | .noVariants => "family declares no variants"
  | .unterminated => "unterminated family block"
  | .notText fault => "not valid UTF-8 (" ++ fault.message ++ ")"

/-- What a name is the name of. -/
inductive Role where
  | family
  | variant
  | field
  | imported
  deriving DecidableEq

def Role.word : Role → Text
  | .family => "family"
  | .variant => "variant"
  | .field => "field"
  | .imported => "imported"

/-- What is wrong with a name. -/
inductive NameFault where
  | notIdentifier (role : Role) (name : Text)
  | keyword (role : Role) (name : Text)
  | reservedField (name : Text)
  deriving DecidableEq

def NameFault.message : NameFault → Text
  | .notIdentifier role name => role.word ++ " name " ++ Text.quoted name ++ " is not an identifier"
  | .keyword role name => role.word ++ " name '" ++ name ++ "' is a Python keyword"
  | .reservedField name => "field name '" ++ name ++ "' is reserved"

/-- What two declarations of a grammar may clash over. -/
inductive Clash where
  | moduleKeyword (family moduleName : Text)
  | generatedName (family : Text)
  | visitor (name family : Text)
  | variant (family name : Text)
  deriving DecidableEq

def Clash.message : Clash → Text
  | .moduleKeyword family moduleName =>
      "family '" ++ family ++ "' gives module name '" ++ moduleName ++ "'"
  | .generatedName family => "family '" ++ family ++ "' clashes with a generated name"
  | .visitor name family =>
      "visitor '" ++ name ++ "' of family '" ++ family ++ "' clashes with another name"
  | .variant family name =>
      "variant '" ++ family ++ "." ++ name ++ "' clashes with a generated name"

/-- What is declared twice. -/
inductive Duplicate where
  | field (name owner : Text)
  | moduleName (first second name : Text)
  | variant (name owner : Text)
  deriving DecidableEq

def Duplicate.message : Duplicate → Text
  | .field name owner => "field '" ++ name ++ "' declared twice in " ++ owner
  | .moduleName first second name =>
      "families '" ++ first ++ "' and '" ++ second ++ "' both generate " ++ name ++ ".py"
  | .variant name owner => "variant '" ++ name ++ "' declared twice in " ++ owner

/-- The number of a line, where it is known. -/
abbrev LineNumber := Option Int

/-- A line number in front of a message. -/
def lineMark : LineNumber → Text
  | none => []
  | some number => "line " ++ Text.integer number ++ ": "

/-- Why a grammar is refused. -/
inductive Error where
  | malformedLine (fault : LineFault) (line : Text) (number : LineNumber)
  | invalidName (fault : NameFault) (number : LineNumber)
  | duplicate (what : Duplicate) (number : LineNumber)
  | clash (what : Clash)
  | unknownType (family variant field name : Text)
  deriving DecidableEq

def Error.message : Error → Text
  | .malformedLine fault line number =>
      lineMark number ++ fault.message ++ ": " ++ Text.quoted (Text.trim line)
  | .invalidName fault number => lineMark number ++ fault.message
  | .duplicate what number => lineMark number ++ what.message
  | .clash what => what.message
  | .unknownType family variant field name =>
      family ++ "." ++ variant ++ "." ++ field ++ ": unknown type reference '" ++ name ++ "'"

end TreeGrammar.Grammar
