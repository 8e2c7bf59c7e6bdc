/-
# TreeGrammar.Proofs.NodeModule.Outline -- generated modules, read back

The text of a module can be read without the grammar that it was generated from: cut into
sections, and each section searched for the lines of a form.  In whatever place they
stand, no other lines are of the form, so what is found is what the family declares,
in its order (`outline_emit`).
-/
import TreeGrammar.Proofs.NodeModule.Legibility

set_option autoImplicit false

namespace TreeGrammar

/-! ## Lines of a form -/

/-- What stands behind the given start of a line, which may be indented. -/
def behind? (start line : Text) : Option Text :=
  start.isPrefixOf? (Text.trimStart line)

/-- What stands before the first mark, and what behind it. -/
def cut? (mark : Char) (text : Text) : Option (Text × Text) :=
  (Text.cut mark text).2.map fun after => ((Text.cut mark text).1, after)

/-- The name in `class NAME(`. -/
def heading? (line : Text) : Option Text := do
  let (name, _) ← cut? '(' (← behind? "class " line)
  return name

/-- The name in `def NAME(`. -/
def function? (line : Text) : Option Text := do
  let (name, _) ← cut? '(' (← behind? "def " line)
  return name

/-- The names in `def OPERATION(self, node: NAME)`. -/
def operation? (line : Text) : Option (Text × Text) := do
  let (operation, arguments) ← cut? '(' (← behind? "def " line)
  let (name, _) ← cut? ')' (← List.isPrefixOf? "self, node: " arguments)
  return (operation, name)

/-- The name and the annotation in `NAME: ANNOTATION`. -/
def annotated? (line : Text) : Option (Text × Text) := do
  let (name, rest) ← cut? ':' (Text.trimStart line)
  let hint ← List.isPrefixOf? " " rest
  if Text.isIdentifier name then some (name, hint) else none

/-- The operation in `return visitor.OPERATION(self)`. -/
def call? (line : Text) : Option Text := do
  let (operation, rest) ← cut? '(' (← behind? "return visitor." line)
  if rest = "self)".toList then some operation else none

/-- The name in `NAME,`. -/
def listed? (line : Text) : Option Text := do
  let (name, rest) ← cut? ',' (Text.trimStart line)
  if rest = [] then some name else none

/-- The name in `"NAME",`. -/
def quoted? (line : Text) : Option Text := do
  let (name, rest) ← cut? '"' (← behind? "\"" line)
  if rest = [','] then some name else none

/-! ## The outline of a module -/

/-- What is found in the section of a class: the names it declares, its fields with their
annotations, and the operations that it calls. -/
structure ClassOutline where
  names : List Text
  fields : List (Text × Text)
  calls : List Text
  deriving DecidableEq

/-- What is found in the sections of a module. -/
structure Outline where
  exports : List Text
  base : List Text
  visitor : List Text
  operations : List (Text × Text)
  classes : List ClassOutline
  variants : List Text
  dispatch : List Text
  deriving DecidableEq

def ClassOutline.ofSection (lines : Section) : ClassOutline where
  names := lines.filterMap heading?
  fields := lines.filterMap annotated?
  calls := lines.filterMap call?

/-- The sections by their places: the header, the base and the visitor in front, the list of
variants and the dispatch at the end, the classes between them. -/
def Outline.ofSections : List Section → Option Outline
  | header :: base :: visitor :: rest =>
      match rest.reverse with
      | dispatch :: variants :: classes =>
          some
            { exports := header.filterMap quoted?
              base := base.filterMap heading?
              visitor := visitor.filterMap heading?
              operations := visitor.filterMap operation?
              classes := classes.reverse.map ClassOutline.ofSection
              variants := variants.filterMap listed?
              dispatch := dispatch.filterMap function? }
      | _ => none
  | _ => none

/-! ## Reading one line -/

section Lines

variable {mark : Char} {before name hint operation : Text}

theorem cut?_append (absent : mark ∉ before) (after : Text) :
    cut? mark (before ++ mark :: after) = some (before, after) := by
  rw [cut?, Text.cut_append absent]
  rfl

theorem heading?_class (clear : Undelimited name) (rest : Text) :
    heading? ("class ".toList ++ name ++ '(' :: rest) = some name := by
  have found : behind? "class " ("class ".toList ++ name ++ '(' :: rest) =
      some (name ++ '(' :: rest) := rfl
  rw [heading?, found, Option.bind_eq_bind, Option.bind_some, cut?_append (clear '(' (by decide))]
  rfl

theorem operation?_def (operationClear : Undelimited operation) (clear : Undelimited name) :
    operation? (indented ("def " ++ operation ++ "(self, node: " ++ name ++ ") -> R: ...")) =
      some (operation, name) := by
  have found : behind? "def "
      (indented ("def " ++ operation ++ "(self, node: " ++ name ++ ") -> R: ...")) =
        some (operation ++ '(' :: ("self, node: " ++ (name ++ ')' :: " -> R: ...".toList))) := by
    have whole : operation ++ "(self, node: ".toList ++ name ++ ") -> R: ...".toList =
        operation ++ '(' :: ("self, node: " ++ (name ++ ')' :: " -> R: ...".toList)) := by
      rw [List.append_assoc, List.append_assoc]
      rfl
    exact congrArg some whole
  have kind : List.isPrefixOf? "self, node: ".toList
      ("self, node: " ++ (name ++ ')' :: " -> R: ...".toList)) =
        some (name ++ ')' :: " -> R: ...".toList) := rfl
  simp only [operation?, found, Option.bind_eq_bind, Option.bind_some, kind,
    cut?_append (operationClear '(' (by decide)), cut?_append (clear ')' (by decide))]
  rfl

theorem call?_return (clear : Undelimited operation) :
    call? (indented (indented ("return visitor." ++ operation ++ "(self)"))) = some operation := by
  have found : behind? "return visitor."
      (indented (indented ("return visitor." ++ operation ++ "(self)"))) =
        some (operation ++ '(' :: "self)".toList) := rfl
  rw [call?, found, Option.bind_eq_bind, Option.bind_some, cut?_append (clear '(' (by decide))]
  rfl

theorem quoted?_export (clear : Undelimited name) :
    quoted? (indented ("\"" ++ name ++ "\",")) = some name := by
  have found : behind? "\"" (indented ("\"" ++ name ++ "\",")) = some (name ++ '"' :: [',']) := rfl
  rw [quoted?, found, Option.bind_eq_bind, Option.bind_some, cut?_append (clear '"' (by decide))]
  rfl

theorem trimStart_indented (line : Text) : Text.trimStart (indented line) = Text.trimStart line :=
  rfl

theorem trimStart_name (named : Text.isIdentifier name = true) (rest : Text) :
    Text.trimStart (name ++ rest) = name ++ rest := by
  have solid := (Text.quiet_of_isIdentifier named).solid
  cases name with
  | nil => exact absurd named (by decide)
  | cons c more => exact Text.trimStart_eq_self (solid c List.mem_cons_self)

theorem listed?_entry (named : Text.isIdentifier name = true) :
    listed? (indented (name ++ ",")) = some name := by
  have absent := undelimited_of_isIdentifier named ',' (by decide)
  rw [listed?, trimStart_indented, trimStart_name named, Option.bind_eq_bind,
    show name ++ ",".toList = name ++ ',' :: [] from rfl, cut?_append absent]
  rfl

theorem trimStart_field (named : Text.isIdentifier name = true) :
    Text.trimStart (indented (name ++ ": " ++ hint)) = name ++ ':' :: ' ' :: hint := by
  rw [trimStart_indented, List.append_assoc]
  exact trimStart_name named _

theorem annotated?_field (named : Text.isIdentifier name = true) :
    annotated? (indented (name ++ ": " ++ hint)) = some (name, hint) := by
  have absent := undelimited_of_isIdentifier named ':' (by decide)
  have found : List.isPrefixOf? " ".toList (' ' :: hint) = some hint := rfl
  simp only [annotated?, trimStart_field named, cut?_append absent, found, Option.bind_eq_bind,
    Option.bind_some, named, if_true]

/-! ## Lines that are not of a form

The first word of a field's line ends with a colon; no word does that the other lines
begin with. -/

variable {line rest : Text}

/-- A line that goes on behind a word without a colon is no field. -/
theorem annotated?_eq_none (word : Text) (unmarked : ':' ∉ word)
    (trimmed : Text.trimStart line = word ++ ' ' :: rest) : annotated? line = none := by
  have spaced : ':' ∉ word ++ [' '] := List.not_mem_append unmarked (by decide)
  have whole : word ++ ' ' :: rest = word ++ [' '] ++ rest := by simp
  -- what stands before the colon, if there is one, holds the blank behind the word
  have unnamed : Text.isIdentifier (word ++ [' '] ++ (Text.cut ':' rest).1) = false := by
    rw [Bool.eq_false_iff]
    intro named
    exact undelimited_of_isIdentifier named ' ' (by decide) (by simp)
  rw [annotated?, trimmed, whole, cut?, Text.cut_append_of_not_mem spaced]
  cases (Text.cut ':' rest).2 with
  | none => rfl
  | some after =>
      simp only [Option.map_some, Option.bind_eq_bind, Option.bind_some, unnamed,
        Bool.false_eq_true, if_false, Option.bind_fun_none]

/-- A field goes on behind a word with a colon. -/
theorem behind?_field (word rest : Text) (named : Text.isIdentifier name = true)
    (unspaced : ' ' ∉ word) (unmarked : ':' ∉ word) :
    behind? (word ++ ' ' :: rest) (indented (name ++ ": " ++ hint)) = none := by
  rw [behind?, trimStart_field named]
  cases found : (word ++ ' ' :: rest).isPrefixOf? (name ++ ':' :: ' ' :: hint) with
  | none => rfl
  | some after =>
      -- the first words of the two texts would be one
      have whole := List.isPrefixOf?_eq_some_iff_append_eq.1 found
      have absent : ' ' ∉ name ++ [':'] :=
        List.not_mem_append (undelimited_of_isIdentifier named ' ' (by decide)) (by decide)
      have cuts := congrArg (Text.cut ' ') whole
      rw [List.append_assoc, List.cons_append, Text.cut_append unspaced,
        show name ++ ':' :: ' ' :: hint = name ++ [':'] ++ ' ' :: hint by simp,
        Text.cut_append absent] at cuts
      have same : word = name ++ [':'] := (Prod.mk.inj cuts).1
      exact absurd (by simp [same]) unmarked

/-- A line that begins with a name is no quoted one. -/
theorem quoted?_name (named : Text.isIdentifier name = true) : quoted? (name ++ rest) = none := by
  have unquoted := undelimited_of_isIdentifier named '"' (by decide)
  have solid := trimStart_name named rest
  cases name with
  | nil => exact absurd named (by decide)
  | cons c more =>
      have other : '"' ≠ c := fun same => unquoted (same ▸ List.mem_cons_self)
      have stops : List.isPrefixOf? "\"".toList (c :: more ++ rest) = none := by
        simp [List.isPrefixOf?, other]
      rw [quoted?, behind?, solid, stops]
      rfl

end Lines

/-! ## Reading one section -/

namespace NodeModule

variable {module : NodeModule} {node : NodeClass}

/-- What is found in the lines for the items of a list. -/
theorem filterMap_lines {α β : Type} {list : List α} {line : α → Text} {read? : Text → Option β}
    {form : α → β} (each : ∀ item ∈ list, read? (line item) = some (form item)) :
    (list.map line).filterMap read? = list.map form := by
  rw [List.filterMap_map]
  exact List.filterMap_eq_map_iff_forall_eq_some.2 each

theorem forall_freeze_lines (holds : Text → Prop)
    (statement : ∀ field, holds (freezeStatement field))
    (condition : ∀ field : Text, holds ("if self." ++ field ++ " is not None:"))
    (inner : ∀ field, holds (indented (freezeStatement field))) (freeze : Freeze) :
    ∀ line ∈ freeze.lines, holds line := by
  cases freeze with
  | always field => exact List.forall_mem_singleton.2 (statement field)
  | ifPresent field =>
      exact List.forall_mem_cons.2 ⟨condition field, List.forall_mem_singleton.2 (inner field)⟩

/-- What is found in the section of a class, where neither the lines that all classes have nor the
statements are of the form. -/
theorem filterMap_classSection {α : Type} {read? : Text → Option α} (empty : read? [] = none)
    (final : read? "@final" = none) (frozen : read? "@dataclass(frozen=True, slots=True)" = none)
    (making : read? (indented "def __post_init__(self) -> None:") = none)
    (accept : read? (indented (acceptLine module.visitor)) = none)
    (statements : ∀ freeze : Freeze, ∀ line ∈ freeze.lines,
      read? (indented (indented line)) = none) :
    (module.classSection node).filterMap read? =
      (read? ("class " ++ node.name ++ "(" ++ module.family ++ "):")).toList
        ++ node.fields.filterMap (fun field => read? (indented (field.1 ++ ": " ++ field.2)))
        ++ (read?
          (indented (indented ("return visitor." ++ node.operation ++ "(self)")))).toList := by
  have stored : (freezeLines node).filterMap read? = [] := by
    unfold freezeLines
    split
    · rfl
    · rw [List.filterMap_eq_nil_iff]
      simp only [List.forall_mem_append, List.forall_mem_cons, List.forall_mem_map]
      refine ⟨⟨empty, making, List.forall_mem_nil _⟩, fun line member => ?_⟩
      obtain ⟨freeze, -, isLine⟩ := List.mem_flatMap.1 member
      exact statements freeze line isLine
  have gap : (if node.fields.isEmpty then [] else [[]] : Section).filterMap read? = [] := by
    split
    · rfl
    · rw [List.filterMap_cons_none empty, List.filterMap_nil]
  have single : ∀ line, [line].filterMap read? = (read? line).toList := fun line => by
    cases found : read? line <;> simp [found]
  unfold classSection
  simp only [List.filterMap_append, stored, gap, List.append_nil, List.filterMap_map,
    List.filterMap_cons_none final, List.filterMap_cons_none frozen,
    List.filterMap_cons_none accept, single]
  rfl

section Class

variable (legible : node.Legible)

include legible

theorem headings_classSection : (module.classSection node).filterMap heading? = [node.name] := by
  have own : heading? ("class " ++ node.name ++ "(" ++ module.family ++ "):") = some node.name := by
    rw [List.append_assoc, List.append_assoc]
    exact heading?_class (undelimited_of_isIdentifier legible.name) (module.family ++ "):")
  have fields : node.fields.filterMap
      (fun field => heading? (indented (field.1 ++ ": " ++ field.2))) = [] := by
    refine List.filterMap_eq_nil_iff.2 fun field member => ?_
    have unheaded : behind? "class " (indented (field.1 ++ ": " ++ field.2)) = none :=
      behind?_field "class" [] (legible.fields field member).1 (by decide) (by decide)
    rw [heading?, unheaded]
    rfl
  have statements := forall_freeze_lines (fun line => heading? (indented (indented line)) = none)
    (fun _ => rfl) (fun _ => rfl) fun _ => rfl
  rw [filterMap_classSection rfl rfl rfl rfl rfl statements, own, fields]
  rfl

theorem calls_classSection : (module.classSection node).filterMap call? = [node.operation] := by
  have fields : node.fields.filterMap
      (fun field => call? (indented (field.1 ++ ": " ++ field.2))) = [] := by
    refine List.filterMap_eq_nil_iff.2 fun field member => ?_
    have silent : behind? "return visitor." (indented (field.1 ++ ": " ++ field.2)) = none :=
      behind?_field "return" "visitor." (legible.fields field member).1 (by decide) (by decide)
    rw [call?, silent]
    rfl
  have statements := forall_freeze_lines (fun line => call? (indented (indented line)) = none)
    (fun _ => rfl) (fun _ => rfl) fun _ => rfl
  have own : call? ("class " ++ node.name ++ "(" ++ module.family ++ "):") = none := rfl
  rw [filterMap_classSection rfl rfl rfl rfl rfl statements, own, fields,
    call?_return legible.operation]
  rfl

theorem fields_classSection : (module.classSection node).filterMap annotated? = node.fields := by
  have fields : node.fields.filterMap
      (fun field => annotated? (indented (field.1 ++ ": " ++ field.2))) = node.fields := by
    have each : ∀ field ∈ node.fields,
        annotated? (indented (field.1 ++ ": " ++ field.2)) = some (id field) :=
      fun field member => annotated?_field (legible.fields field member).1
    rw [List.filterMap_eq_map_iff_forall_eq_some.2 each, List.map_id]
  have frozen : annotated? "@dataclass(frozen=True, slots=True)" = none :=
    annotated?_eq_none "@dataclass(frozen=True," (by decide) rfl
  have own : annotated? ("class " ++ node.name ++ "(" ++ module.family ++ "):") = none := by
    rw [List.append_assoc, List.append_assoc, List.append_assoc]
    exact annotated?_eq_none "class" (by decide) rfl
  have making : annotated? (indented "def __post_init__(self) -> None:") = none :=
    annotated?_eq_none "def" (by decide) rfl
  have statement : ∀ field : Text,
      annotated? (indented (indented (freezeStatement field))) = none :=
    fun _ => annotated?_eq_none "object.__setattr__(self," (by decide) rfl
  have statements := forall_freeze_lines (fun line => annotated? (indented (indented line)) = none)
    statement (fun _ => annotated?_eq_none "if" (by decide) rfl) statement
  have accept : annotated? (indented (acceptLine module.visitor)) = none :=
    annotated?_eq_none "def" (by decide) rfl
  have returned :
      annotated? (indented (indented ("return visitor." ++ node.operation ++ "(self)"))) = none :=
    annotated?_eq_none "return" (by decide) rfl
  rw [filterMap_classSection rfl rfl frozen making accept statements, own, fields, returned]
  simp

end Class

/-- The section of a class with two fields, one of which is stored as a tuple. -/
example :
    ClassOutline.ofSection
        ["@final", "@dataclass(frozen=True, slots=True)", "class A(E):", "    xs: tuple[B, ...]",
          "    y: int | None", [], "    def __post_init__(self) -> None:",
          "        object.__setattr__(self, \"xs\", tuple(self.xs))", [],
          "    def accept[R](self, visitor: EVisitor[R]) -> R:",
          "        return visitor.visit_a_e(self)"] =
      ⟨[['A']], [("xs", "tuple[B, ...]"), (['y'], "int | None")], ["visit_a_e"]⟩ := by
  decide +kernel

section Module

theorem heading_visitorSection (clear : Undelimited module.visitor) :
    module.visitorSection.filterMap heading? = [module.visitor ++ "[R]"] := by
  have own : heading? ("class " ++ module.visitor ++ "[R](ABC):") =
      some (module.visitor ++ "[R]") := by
    have whole : "class ".toList ++ module.visitor ++ "[R](ABC):".toList =
        "class ".toList ++ (module.visitor ++ "[R]") ++ '(' :: "ABC):".toList := by
      rw [List.append_assoc, List.append_assoc, List.append_assoc]
      rfl
    rw [whole]
    exact heading?_class (clear.append (by decide)) _
  have operations : (module.classes.flatMap operationLines).filterMap heading? = [] := by
    rw [List.filterMap_flatMap, List.flatMap_eq_nil_iff]
    exact fun node _ => rfl
  rw [visitorSection, List.filterMap_append, operations, List.append_nil,
    List.filterMap_cons_some own]
  rfl

theorem operations_visitorSection (legible : module.Legible) :
    module.visitorSection.filterMap operation? =
      module.classes.map fun node => (node.operation, node.name) := by
  have each : ∀ node ∈ module.classes,
      (operationLines node).filterMap operation? = [(node.operation, node.name)] := by
    intro node member
    have nodeLegible := legible.classes node member
    have own := operation?_def nodeLegible.operation (undelimited_of_isIdentifier nodeLegible.name)
    rw [operationLines, List.filterMap_cons_none rfl, List.filterMap_cons_none rfl,
      List.filterMap_cons_some own]
    rfl
  rw [visitorSection, List.filterMap_append, List.filterMap_flatMap, List.flatMap_congr each,
    List.map_eq_flatMap]
  rfl

theorem listed_variantsSection (legible : module.Legible) :
    module.variantsSection.filterMap listed? = module.classes.map NodeClass.name := by
  have opening : listed? ("VARIANTS: tuple[type[" ++ module.family ++ "], ...] = (") = none := by
    have absent : ',' ∉ "VARIANTS: tuple[type[".toList ++ module.family ++ [']'] :=
      List.not_mem_append (List.not_mem_append (by decide)
        (undelimited_of_isIdentifier legible.family ',' (by decide))) (by decide)
    have whole : Text.trimStart ("VARIANTS: tuple[type[" ++ module.family ++ "], ...] = (") =
        "VARIANTS: tuple[type[".toList ++ module.family ++ [']'] ++ ',' :: " ...] = (".toList := by
      rw [List.append_assoc _ [']']]
      rfl
    rw [listed?, whole, cut?_append absent]
    rfl
  have each : ∀ node ∈ module.classes, listed? (indented (node.name ++ ",")) = some node.name :=
    fun node member => listed?_entry (legible.classes node member).name
  rw [variantsSection, List.filterMap_append, List.filterMap_append, filterMap_lines each,
    List.filterMap_cons_none opening]
  exact List.append_nil _

theorem quoted_headerLines (named : Text.isIdentifier module.family = true) :
    module.headerLines.filterMap quoted? = [] := by
  have imports : ∀ line ∈ module.importLines, quoted? line = none := by
    unfold importLines
    split
    · exact List.forall_mem_singleton.2 rfl
    · simp only [List.forall_mem_append, List.forall_mem_cons, List.forall_mem_map]
      refine ⟨⟨⟨⟨rfl, rfl, rfl, List.forall_mem_nil _⟩, fun _ _ => rfl⟩, ?_⟩, fun _ _ => rfl⟩
      split
      · exact List.forall_mem_nil _
      · exact List.forall_mem_singleton.2 rfl
  rw [List.filterMap_eq_nil_iff, headerLines]
  simp only [List.forall_mem_append, List.forall_mem_cons]
  exact ⟨⟨rfl, quoted?_name named, rfl, rfl, rfl, rfl, rfl, rfl, rfl, rfl, List.forall_mem_nil _⟩,
    imports⟩

theorem quoted_headerSection (legible : module.Legible) :
    module.headerSection.filterMap quoted? = module.exports := by
  have each : ∀ name ∈ module.exports,
      quoted? (indented ("\"" ++ name ++ "\",")) = some (id name) :=
    fun name isExport => quoted?_export (legible.undelimited_exports name isExport)
  rw [headerSection, exportLines, List.filterMap_append, List.filterMap_append,
    quoted_headerLines legible.family, List.filterMap_append, List.filterMap_append,
    filterMap_lines each, List.map_id]
  exact List.append_nil _

theorem heading_baseSection (named : Text.isIdentifier module.family = true) :
    module.baseSection.filterMap heading? = [module.family] := by
  have own : heading? ("class " ++ module.family ++ "(ABC):") = some module.family :=
    heading?_class (undelimited_of_isIdentifier named) "ABC):"
  rw [baseSection, List.filterMap_cons_some own]
  rfl

theorem function_dispatchSection (module : NodeModule) :
    module.dispatchSection.filterMap function? = ["dispatch[R]".toList] :=
  rfl

/-- What is found in the module. -/
def outline (module : NodeModule) : Outline where
  exports := module.exports
  base := [module.family]
  visitor := [module.visitor ++ "[R]"]
  operations := module.classes.map fun node => (node.operation, node.name)
  classes := module.classes.map fun node => ⟨[node.name], node.fields, [node.operation]⟩
  variants := module.classes.map NodeClass.name
  dispatch := ["dispatch[R]"]

/-- **In the sections of a legible module its declarations are found**, each in its place. -/
theorem ofSections_sections (legible : module.Legible) :
    Outline.ofSections module.sections = some module.outline := by
  have classes : (module.classes.map module.classSection).map ClassOutline.ofSection =
      module.classes.map fun node => ⟨[node.name], node.fields, [node.operation]⟩ := by
    rw [List.map_map]
    refine List.map_congr_left fun node member => ?_
    have nodeLegible := legible.classes node member
    rw [Function.comp_apply, ClassOutline.ofSection, headings_classSection nodeLegible,
      fields_classSection nodeLegible, calls_classSection nodeLegible]
  have placed : Outline.ofSections module.sections =
      some
        { exports := module.headerSection.filterMap quoted?
          base := module.baseSection.filterMap heading?
          visitor := module.visitorSection.filterMap heading?
          operations := module.visitorSection.filterMap operation?
          classes := (module.classes.map module.classSection).map ClassOutline.ofSection
          variants := module.variantsSection.filterMap listed?
          dispatch := module.dispatchSection.filterMap function? } := by
    simp [sections, Outline.ofSections]
  rw [placed, classes, quoted_headerSection legible, heading_baseSection legible.family,
    heading_visitorSection legible.visitor, operations_visitorSection legible,
    listed_variantsSection legible, function_dispatchSection]
  rfl

end Module

end NodeModule

/-! ## Generated modules -/

/-- What a family declares. -/
def Family.outline (families : List Text) (family : Family) : Outline where
  exports := [family.name, family.visitorName, "VARIANTS", "dispatch"] ++ family.variantNames
  base := [family.name]
  visitor := [family.visitorName ++ "[R]"]
  operations := family.variants.map fun variant => (family.operationName variant, variant.name)
  classes := family.variants.map fun variant =>
    { names := [variant.name]
      fields := variant.fields.map fun field => (field.name, field.type.hint families)
      calls := [family.operationName variant] }
  variants := family.variantNames
  dispatch := ["dispatch[R]"]

namespace Grammar

variable {grammar : Grammar} {family : Family}

theorem outline_nodeModule (grammar : Grammar) (family : Family) :
    (grammar.nodeModule family).outline = family.outline grammar.familyNames := by
  simp [nodeModule, NodeModule.outline, NodeModule.exports, Family.outline, Family.nodeClass,
    Family.variantNames]

/-- **A generated module can be read back.**  The text generated for a family of a loaded grammar
falls into the sections of its module, five more than the family has variants, and what is found in
them is what the family declares. -/
theorem outline_emit {text : Text} (loaded : load text = .ok grammar)
    (member : family ∈ grammar.families) :
    readSections (grammar.emit family) = (grammar.nodeModule family).sections ∧
      (readSections (grammar.emit family)).length = family.variants.length + 5 ∧
      Outline.ofSections (readSections (grammar.emit family)) =
        some (family.outline grammar.familyNames) := by
  have legible := legible_of_load loaded member
  have read : readSections (grammar.emit family) = (grammar.nodeModule family).sections :=
    NodeModule.readSections_text legible.separable_sections
  refine ⟨read, ?_, ?_⟩
  · rw [read]
    simp [NodeModule.sections, nodeModule]
  · rw [read, NodeModule.ofSections_sections legible, outline_nodeModule]

theorem linkedGrammar_outline :
    load linkedText = .ok linkedGrammar ∧
      ∀ family ∈ linkedGrammar.families,
        readSections (linkedGrammar.emit family) = (linkedGrammar.nodeModule family).sections ∧
          (readSections (linkedGrammar.emit family)).length = family.variants.length + 5 ∧
          Outline.ofSections (readSections (linkedGrammar.emit family)) =
            some (family.outline linkedGrammar.familyNames) := by
  have loaded : load linkedText = .ok linkedGrammar := by decide +kernel
  exact ⟨loaded, fun family member => outline_emit loaded member⟩

end Grammar

end TreeGrammar
