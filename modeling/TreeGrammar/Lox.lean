/-
# TreeGrammar.Lox -- the built-in grammar of Lox and the tokens its nodes carry
-/
import TreeGrammar.Grammar.Loader
import TreeGrammar.Json.Basic

set_option autoImplicit false

namespace TreeGrammar.Lox

/-- The lines of the built-in grammar. -/
def grammarLines : List String :=
  ["# Lox syntax trees: expressions and statements.",
    "use astgen.lox: Token",
    "",
    "Expr \x7b",
    "    Assign: Token name, Expr value",
    "    Binary: Expr left, Token operator, Expr right",
    "    Call: Expr callee, Token paren, List<Expr> arguments",
    "    Get: Expr object, Token name",
    "    Grouping: Expr expression",
    "    Literal: Object value",
    "    Logical: Expr left, Token operator, Expr right",
    "    Set: Expr object, Token name, Expr value",
    "    Super: Token keyword, Token method",
    "    This: Token keyword",
    "    Unary: Token operator, Expr right",
    "    Variable: Token name",
    "\x7d",
    "",
    "Stmt \x7b",
    "    Block: List<Stmt> statements",
    "    Class: Token name, Optional<Expr.Variable> superclass, List<Stmt.Function> methods",
    "    Expression: Expr expression",
    "    Function: Token name, List<Token> params, List<Stmt> body",
    "    If: Expr condition, Stmt then_branch, Optional<Stmt> else_branch",
    "    Print: Expr expression",
    "    Return: Token keyword, Optional<Expr> value",
    "    Var: Token name, Optional<Expr> initializer",
    "    While: Expr condition, Stmt body",
    "\x7d"]

/-- The text of the built-in grammar. -/
def grammarText : Text :=
  Text.ofLines (grammarLines.map String.toList) ++ "\n"

/-- The kinds of tokens. -/
inductive TokenKind where
  | leftParen | rightParen | leftBrace | rightBrace | comma | dot | minus | plus | semicolon | slash
  | star | bang | bangEqual | equal | equalEqual | greater | greaterEqual | less | lessEqual
  | identifier | string | number | andWord | classWord | elseWord | falseWord | funWord | forWord
  | ifWord | nilWord | orWord | printWord | returnWord | superWord | thisWord | trueWord | varWord
  | whileWord | endOfFile
  deriving DecidableEq

/-- The kinds of tokens with their names, in the order of their codes. -/
def tokenKinds : List (TokenKind × String) :=
  [(.leftParen, "LEFT_PAREN"), (.rightParen, "RIGHT_PAREN"), (.leftBrace, "LEFT_BRACE"),
    (.rightBrace, "RIGHT_BRACE"), (.comma, "COMMA"), (.dot, "DOT"), (.minus, "MINUS"),
    (.plus, "PLUS"), (.semicolon, "SEMICOLON"), (.slash, "SLASH"), (.star, "STAR"), (.bang, "BANG"),
    (.bangEqual, "BANG_EQUAL"), (.equal, "EQUAL"), (.equalEqual, "EQUAL_EQUAL"),
    (.greater, "GREATER"), (.greaterEqual, "GREATER_EQUAL"), (.less, "LESS"),
    (.lessEqual, "LESS_EQUAL"), (.identifier, "IDENTIFIER"), (.string, "STRING"),
    (.number, "NUMBER"), (.andWord, "AND"), (.classWord, "CLASS"), (.elseWord, "ELSE"),
    (.falseWord, "FALSE"), (.funWord, "FUN"), (.forWord, "FOR"), (.ifWord, "IF"), (.nilWord, "NIL"),
    (.orWord, "OR"), (.printWord, "PRINT"), (.returnWord, "RETURN"), (.superWord, "SUPER"),
    (.thisWord, "THIS"), (.trueWord, "TRUE"), (.varWord, "VAR"), (.whileWord, "WHILE"),
    (.endOfFile, "EOF")]

namespace TokenKind

/-- The kind of a name. -/
def ofName? (name : Text) : Option TokenKind :=
  (tokenKinds.find? fun entry => entry.2.toList = name).map Prod.fst

/-- The code of a kind: its place in the order, counted from one. -/
def code (kind : TokenKind) : Nat :=
  tokenKinds.findIdx (fun entry => entry.1 = kind) + 1

end TokenKind

/-- A scanned token.  Its literal may be any value. -/
structure Token where
  kind : TokenKind
  lexeme : Text
  literal : Json
  line : Int
  deriving DecidableEq

/-- A token without a literal, on the first line. -/
def Token.plain (kind : TokenKind) (lexeme : Text) : Token :=
  ⟨kind, lexeme, .null, 1⟩

end TreeGrammar.Lox
