/-
# TreeGrammar.NodeModule.Printer -- the text of a generated module

A module is a list of sections, and a section a list of lines.  Two empty lines
stand between sections.
-/
import TreeGrammar.NodeModule.Basic

set_option autoImplicit false

namespace TreeGrammar

abbrev Section := List Text

def indented (line : Text) : Text :=
  "    " ++ line

def Import.line (imported : Import) : Text :=
  "from " ++ imported.path ++ " import " ++ Text.join ", " imported.names

/-- A field stored as a tuple. -/
def freezeStatement (field : Text) : Text :=
  "object.__setattr__(self, \"" ++ field ++ "\", tuple(self." ++ field ++ "))"

def Freeze.lines : Freeze → List Text
  | .always field => [freezeStatement field]
  | .ifPresent field => ["if self." ++ field ++ " is not None:", indented (freezeStatement field)]

/-- The first line of a method that takes a visitor. -/
def acceptLine (visitor : Text) : Text :=
  "def accept[R](self, visitor: " ++ visitor ++ "[R]) -> R:"

namespace NodeModule

/-- The imports for type checking, an empty line between those of the two kinds. -/
def importLines (module : NodeModule) : List Text :=
  if module.uses.isEmpty && module.relatives.isEmpty then ["from typing import final"]
  else
    (["from typing import TYPE_CHECKING, final", [], "if TYPE_CHECKING:"] : Section)
      ++ module.uses.map (fun imported => indented imported.line)
      ++ (if module.uses.isEmpty || module.relatives.isEmpty then [] else [[]])
      ++ module.relatives.map (fun imported => indented imported.line)

def headerLines (module : NodeModule) : List Text :=
  (["\"\"\"", module.family ++ " syntax tree nodes.", [],
    "Generated by astgen; edit the grammar and regenerate instead of editing this file.",
    "\"\"\"", [], "from __future__ import annotations", [],
    "from abc import ABC, abstractmethod", "from dataclasses import dataclass"] : Section)
    ++ module.importLines

/-- The names that the module exports. -/
def exports (module : NodeModule) : List Text :=
  ([module.family, module.visitor, "VARIANTS", "dispatch"] : List Text)
    ++ module.classes.map NodeClass.name

def exportLines (module : NodeModule) : List Text :=
  (["__all__ = ["] : Section)
    ++ module.exports.map (fun name => indented ("\"" ++ name ++ "\",")) ++ [[']']]

def headerSection (module : NodeModule) : Section :=
  module.headerLines ++ [[]] ++ module.exportLines

def baseSection (module : NodeModule) : Section :=
  ["class " ++ module.family ++ "(ABC):",
    indented ("\"\"\"Base of the closed " ++ module.family ++ " family.\"\"\""), [],
    indented "__slots__ = ()", [], indented "@abstractmethod", indented (acceptLine module.visitor),
    indented (indented "\"\"\"Call the visitor operation for this variant.\"\"\"")]

/-- The visitor's operation for a class. -/
def operationLines (node : NodeClass) : List Text :=
  [[], indented "@abstractmethod",
    indented ("def " ++ node.operation ++ "(self, node: " ++ node.name ++ ") -> R: ...")]

def visitorSection (module : NodeModule) : Section :=
  (["class " ++ module.visitor ++ "[R](ABC):",
    indented ("\"\"\"Operations over " ++ module.family ++ " nodes, one per variant.\"\"\"")]
      : Section)
    ++ module.classes.flatMap operationLines

def freezeLines (node : NodeClass) : List Text :=
  if node.freezes.isEmpty then []
  else
    ([[], indented "def __post_init__(self) -> None:"] : Section)
      ++ (node.freezes.flatMap Freeze.lines).map fun line => indented (indented line)

def classSection (module : NodeModule) (node : NodeClass) : Section :=
  (["@final", "@dataclass(frozen=True, slots=True)",
    "class " ++ node.name ++ "(" ++ module.family ++ "):"] : Section)
    ++ node.fields.map (fun field => indented (field.1 ++ ": " ++ field.2))
    ++ freezeLines node
    ++ (if node.fields.isEmpty then [] else [[]])
    ++ [indented (acceptLine module.visitor),
      indented (indented ("return visitor." ++ node.operation ++ "(self)"))]

def variantsSection (module : NodeModule) : Section :=
  (["VARIANTS: tuple[type[" ++ module.family ++ "], ...] = ("] : Section)
    ++ module.classes.map (fun node => indented (node.name ++ ",")) ++ [[')']]

def dispatchSection (module : NodeModule) : Section :=
  ["def dispatch[R](node: " ++ module.family ++ ", visitor: " ++ module.visitor ++ "[R]) -> R:",
    indented "\"\"\"Run the visitor operation for the variant of \x60\x60node\x60\x60.\"\"\"",
    indented "return node.accept(visitor)"]

def sections (module : NodeModule) : List Section :=
  [module.headerSection, module.baseSection, module.visitorSection]
    ++ module.classes.map module.classSection
    ++ [module.variantsSection, module.dispatchSection]

def text (module : NodeModule) : Text :=
  Text.join "\n\n\n" (module.sections.map Text.ofLines) ++ "\n"

end NodeModule

/-- The text of the module generated for a family. -/
def Grammar.emit (grammar : Grammar) (family : Family) : Text :=
  (grammar.nodeModule family).text

end TreeGrammar
