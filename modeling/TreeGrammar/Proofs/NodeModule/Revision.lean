/-
# TreeGrammar.Proofs.NodeModule.Revision -- modules of a family that has grown

A family grows by a variant behind its others.  Its module then only grows as well: the
sections of the other variants, the base and the dispatch stay as they are, the lists of
names get one more line, the visitor the lines of one more operation and the module those of
one more class (`emit_extended`).

The header is the one place where the new variant can show elsewhere, since its fields may
refer to another family.  Up to the line of the typing imports it is the same in any case,
and it is the same altogether unless a field of the new variant asks for a name that no
field of the family has asked for (`exists_new_wanted`).
-/
import TreeGrammar.NodeModule.Printer
import TreeGrammar.Proofs.Grammar.Reference

set_option autoImplicit false

namespace TreeGrammar

/-- The family with one more variant, behind the others. -/
def Family.extended (family : Family) (variant : Variant) : Family :=
  { family with variants := family.variants ++ [variant] }

namespace Grammar

variable {front back : List Family} {uses : List Use} {family : Family} {variant : Variant}

/-! ## What a grown family asks for -/

theorem familyNames_extended :
    familyNames ⟨front ++ family.extended variant :: back, uses⟩ =
      familyNames ⟨front ++ family :: back, uses⟩ := by
  simp [familyNames, Family.extended]

/-- The same names are found, though a family found may have grown. -/
theorem name_target?_extended (name : Text) :
    (target? ⟨front ++ family.extended variant :: back, uses⟩ name).map Family.name =
      (target? ⟨front ++ family :: back, uses⟩ name).map Family.name := by
  generalize asked : (TypeRef.properQualifier? name).getD name = sought
  rw [target?, target?, asked, family?, family?, List.find?_append, List.find?_append]
  cases front.find? (·.name = sought) with
  | some found => rfl
  | none =>
      by_cases named : family.name = sought
      · simp [Family.extended, named]
      · simp [Family.extended, named]

theorem referredNames_extended :
    (family.extended variant).referredNames =
      family.referredNames ++ Family.referredNames ⟨family.name, [variant]⟩ := by
  simp [Family.referredNames, Family.extended]

/-- A grown family asks for what it has asked for and for what its new variant asks for. -/
theorem mem_wantedNames_extended {wanted : Text × Text} :
    wanted ∈ wantedNames ⟨front ++ family.extended variant :: back, uses⟩
        (family.extended variant) ↔
      wanted ∈ wantedNames ⟨front ++ family :: back, uses⟩ family ∨
        wanted ∈ wantedNames ⟨front ++ family :: back, uses⟩ ⟨family.name, [variant]⟩ := by
  have speaks : ∀ name, (∃ target, target? ⟨front ++ family.extended variant :: back, uses⟩ name =
        some target ∧ target.name ≠ family.name ∧
          wanted = (target.name, TypeRef.localName name)) ↔
      ∃ target, target? ⟨front ++ family :: back, uses⟩ name = some target ∧
        target.name ≠ family.name ∧ wanted = (target.name, TypeRef.localName name) := by
    intro name
    have same : (target? ⟨front ++ family.extended variant :: back, uses⟩ name).map Family.name =
        (target? ⟨front ++ family :: back, uses⟩ name).map Family.name :=
      name_target?_extended name
    cases found : target? ⟨front ++ family.extended variant :: back, uses⟩ name <;>
      cases foundToo : target? ⟨front ++ family :: back, uses⟩ name <;>
      simp_all
  rw [mem_wantedNames_iff, mem_wantedNames_iff, mem_wantedNames_iff, referredNames_extended]
  simp only [List.mem_append, or_and_right, exists_or]
  exact or_congr
    (exists_congr fun name => and_congr_right fun _ => and_congr_right fun _ => speaks name)
    (exists_congr fun name => and_congr_right fun _ => and_congr_right fun _ => speaks name)

theorem name_not_wanted (grammar : Grammar) :
    family.name ∉ (grammar.wantedNames family).map Prod.fst := by
  intro listed
  obtain ⟨wanted, isWanted, same⟩ := List.mem_map.1 listed
  obtain ⟨reference, -, -, target, -, other, rfl⟩ := mem_wantedNames_iff.1 isWanted
  exact other same

/-- Imports go by what is asked for, and no family imports from itself. -/
theorem familyImports_extended
    (same : ∀ wanted, wanted ∈ wantedNames ⟨front ++ family.extended variant :: back, uses⟩
        (family.extended variant) ↔
      wanted ∈ wantedNames ⟨front ++ family :: back, uses⟩ family) :
    familyImports ⟨front ++ family.extended variant :: back, uses⟩ (family.extended variant) =
      familyImports ⟨front ++ family :: back, uses⟩ family := by
  have keys : ∀ name, name ∈ (wantedNames ⟨front ++ family.extended variant :: back, uses⟩
        (family.extended variant)).map Prod.fst ↔
      name ∈ (wantedNames ⟨front ++ family :: back, uses⟩ family).map Prod.fst := fun name => by
    simp only [List.mem_map, same]
  have absent : family.name ∉
      (wantedNames ⟨front ++ family :: back, uses⟩ family).map Prod.fst := name_not_wanted _
  have absentToo : (family.extended variant).name ∉
      (wantedNames ⟨front ++ family :: back, uses⟩ family).map Prod.fst := absent
  simp only [familyImports, keys, same, List.filterMap_append, List.filterMap_cons,
    if_neg absent, if_neg absentToo]

/-- **When imports change.**  If the grown family's imports are not those it had, a field of the
new variant asks for a name of another family that the family has not asked for. -/
theorem exists_new_wanted
    (changed : familyImports ⟨front ++ family.extended variant :: back, uses⟩
        (family.extended variant) ≠ familyImports ⟨front ++ family :: back, uses⟩ family) :
    ∃ field ∈ variant.fields, TypeRef.isScalar field.type.name = false ∧
      ∃ target, target? ⟨front ++ family :: back, uses⟩ field.type.name = some target ∧
        target.name ≠ family.name ∧
        (target.name, TypeRef.localName field.type.name) ∉
          wantedNames ⟨front ++ family :: back, uses⟩ family := by
  by_contra none
  push Not at none
  refine changed (familyImports_extended fun wanted => ?_)
  rw [mem_wantedNames_extended, or_iff_left_of_imp]
  intro asked
  obtain ⟨name, referred, unscalar, target, found, other, rfl⟩ := mem_wantedNames_iff.1 asked
  obtain ⟨field, isField, rfl⟩ : ∃ field ∈ variant.fields, field.type.name = name := by
    simpa [Family.referredNames] using referred
  exact none field isField unscalar target found other

end Grammar

/-! ## The module of a grown family -/

namespace NodeModule

/-- The text of a module from its parts, the two lists of names without their closing brackets. -/
def assembled (header exports base visitor : Section) (classes : List Section)
    (variants dispatch : Section) : Text :=
  Text.join "\n\n\n" (([header ++ [[]] ++ exports ++ [[']']], base, visitor] ++ classes
    ++ [variants ++ [[')']], dispatch]).map Text.ofLines) ++ "\n"

/-- The lines of the exports without the closing bracket. -/
def openExports (module : NodeModule) : Section :=
  "__all__ = [".toList :: module.exports.map fun name => indented ("\"" ++ name ++ "\",")

/-- The lines of the variants without the closing bracket. -/
def openVariants (module : NodeModule) : Section :=
  ("VARIANTS: tuple[type[".toList ++ module.family ++ "], ...] = (".toList) ::
    module.classes.map fun node => indented (node.name ++ ",")

theorem text_eq (module : NodeModule) :
    module.text = assembled module.headerLines module.openExports module.baseSection
      module.visitorSection (module.classes.map module.classSection) module.openVariants
      module.dispatchSection := by
  simp [text, sections, headerSection, exportLines, variantsSection, assembled, openExports,
    openVariants]

/-- The module with one more class, behind the others, and with other imports. -/
def extended (module : NodeModule) (relatives : List Import) (node : NodeClass) : NodeModule :=
  { module with relatives := relatives, classes := module.classes ++ [node] }

/-- One more class adds a line to each list of names, an operation and a section. -/
theorem text_extended (module : NodeModule) (relatives : List Import) (node : NodeClass) :
    (module.extended relatives node).text =
      assembled (module.extended relatives node).headerLines
        (module.openExports ++ [indented ("\"" ++ node.name ++ "\",")]) module.baseSection
        (module.visitorSection ++ operationLines node)
        (module.classes.map module.classSection ++ [module.classSection node])
        (module.openVariants ++ [indented (node.name ++ ",")]) module.dispatchSection := by
  have exports : (module.extended relatives node).openExports =
      module.openExports ++ [indented ("\"" ++ node.name ++ "\",")] := by
    simp [openExports, NodeModule.exports, extended]
  have visitor : (module.extended relatives node).visitorSection =
      module.visitorSection ++ operationLines node := by
    simp [visitorSection, extended]
  have variants : (module.extended relatives node).openVariants =
      module.openVariants ++ [indented (node.name ++ ",")] := by
    simp [openVariants, extended]
  have classes : (module.extended relatives node).classes.map
        (module.extended relatives node).classSection =
      module.classes.map module.classSection ++ [module.classSection node] :=
    List.map_append
  rw [text_eq, exports, visitor, variants, classes]
  rfl

/-- The lines begin with that of the typing imports. -/
def StartsTyping (lines : Section) : Prop :=
  ∃ names rest, lines = ("from typing import ".toList ++ names) :: rest

theorem startsTyping_importLines (module : NodeModule) : StartsTyping module.importLines := by
  unfold importLines
  split
  · exact ⟨"final", [], rfl⟩
  · exact ⟨"TYPE_CHECKING, final", _, rfl⟩

/-- Whatever a module imports, its header opens in the same way. -/
theorem headerLines_extended (module : NodeModule) (relatives : List Import) (node : NodeClass) :
    ∃ opening typing more, module.headerLines = opening ++ typing ∧
      (module.extended relatives node).headerLines = opening ++ more ∧
      StartsTyping typing ∧ StartsTyping more :=
  ⟨_, _, _, rfl, rfl, startsTyping_importLines _, startsTyping_importLines _⟩

end NodeModule

/-- The lines of the operation for a new variant. -/
def Family.addedOperation (family : Family) (variant : Variant) : Section :=
  [[], "    @abstractmethod",
    "    def " ++ family.operationName variant ++ "(self, node: " ++ variant.name ++ ") -> R: ..."]

/-- The section of the class for a new variant, where the families are known. -/
def Family.addedClass (families : List Text) (family : Family) (variant : Variant) : Section :=
  (["@final", "@dataclass(frozen=True, slots=True)",
    "class " ++ variant.name ++ "(" ++ family.name ++ "):"] : Section)
    ++ variant.fields.map (fun field =>
      ("    " ++ field.name ++ ": " ++ field.type.hint families : Text))
    ++ NodeModule.freezeLines (family.nodeClass families variant)
    ++ (if variant.fields = [] then [] else [[]])
    ++ ["    def accept[R](self, visitor: " ++ family.visitorName ++ "[R]) -> R:",
      "        return visitor." ++ family.operationName variant ++ "(self)"]

namespace Grammar

variable {front back : List Family} {uses : List Use} {family : Family} {variant : Variant}

theorem nodeModule_extended :
    nodeModule ⟨front ++ family.extended variant :: back, uses⟩ (family.extended variant) =
      (nodeModule ⟨front ++ family :: back, uses⟩ family).extended
        ((familyImports ⟨front ++ family.extended variant :: back, uses⟩
          (family.extended variant)).map fun entry => ⟨'.' :: entry.1.moduleName, entry.2⟩)
        (family.nodeClass (familyNames ⟨front ++ family :: back, uses⟩) variant) := by
  have classes : (family.extended variant).variants.map ((family.extended variant).nodeClass
        (familyNames ⟨front ++ family.extended variant :: back, uses⟩)) =
      family.variants.map (family.nodeClass (familyNames ⟨front ++ family :: back, uses⟩)) ++
        [family.nodeClass (familyNames ⟨front ++ family :: back, uses⟩) variant] := by
    rw [familyNames_extended]
    exact List.map_append
  rw [nodeModule, classes]
  rfl

/-- What the visitor of a family has for a variant. -/
theorem operationLines_nodeClass (families : List Text) (family : Family) (variant : Variant) :
    NodeModule.operationLines (family.nodeClass families variant) = family.addedOperation variant :=
  rfl

/-- What the module of a family has for a variant. -/
theorem classSection_nodeClass (grammar : Grammar) (family : Family) (variant : Variant) :
    (grammar.nodeModule family).classSection (family.nodeClass grammar.familyNames variant) =
      family.addedClass grammar.familyNames variant := by
  have fields : (family.nodeClass grammar.familyNames variant).fields.isEmpty = true ↔
      variant.fields = [] := by
    simp [Family.nodeClass]
  simp only [NodeModule.classSection, Family.addedClass, fields]
  simp only [Family.nodeClass, List.map_map]
  rfl

/-- **One more variant.**  The module of the grown family has the parts of the module that it had,
in the same places: one more line at the end of each list of names, one more operation at the end
of the visitor, one more class behind the others.  The headers open in the same way up to the
typing imports.  They are the same if the imports from other families are, and these change only
for a name that a field of the new variant is the first to ask for. -/
theorem emit_extended (front back : List Family) (uses : List Use) (family : Family)
    (variant : Variant) :
    let before : Grammar := ⟨front ++ family :: back, uses⟩
    let after : Grammar := ⟨front ++ family.extended variant :: back, uses⟩
    let old := before.nodeModule family
    let new := after.nodeModule (family.extended variant)
    before.emit family = NodeModule.assembled old.headerLines old.openExports old.baseSection
        old.visitorSection (old.classes.map old.classSection) old.openVariants
        old.dispatchSection ∧
      after.emit (family.extended variant) = NodeModule.assembled new.headerLines
        (old.openExports ++ ["    \"" ++ variant.name ++ "\","]) old.baseSection
        (old.visitorSection ++ family.addedOperation variant)
        (old.classes.map old.classSection ++ [family.addedClass before.familyNames variant])
        (old.openVariants ++ ["    " ++ variant.name ++ ","]) old.dispatchSection ∧
      (∃ opening typing more, old.headerLines = opening ++ typing ∧
        new.headerLines = opening ++ more ∧ NodeModule.StartsTyping typing ∧
        NodeModule.StartsTyping more) ∧
      (after.familyImports (family.extended variant) = before.familyImports family →
        new.headerLines = old.headerLines) ∧
      (after.familyImports (family.extended variant) ≠ before.familyImports family →
        ∃ field ∈ variant.fields, TypeRef.isScalar field.type.name = false ∧
          ∃ target, before.target? field.type.name = some target ∧ target.name ≠ family.name ∧
            (target.name, TypeRef.localName field.type.name) ∉ before.wantedNames family) := by
  intro before after old new
  have grown : new = old.extended _ (family.nodeClass before.familyNames variant) :=
    nodeModule_extended
  refine ⟨NodeModule.text_eq old, ?_, ?_, fun same => ?_, exists_new_wanted⟩
  · rw [← operationLines_nodeClass before.familyNames, ← classSection_nodeClass before, emit,
      show after.nodeModule (family.extended variant) = new from rfl, grown]
    exact NodeModule.text_extended old _ _
  · rw [grown]
    exact NodeModule.headerLines_extended old _ _
  · rw [grown, same]
    rfl

/-- A variant with a field of another family: the lines that are in the module only then. -/
example :
    let speaking : Family := ⟨['G'], [⟨['C'], []⟩]⟩
    let short : Family := ⟨['E'], [⟨['A'], []⟩]⟩
    let grown := short.extended ⟨['B'], [⟨['g'], .named ['G']⟩]⟩
    (Text.split '\n' (emit ⟨[grown, speaking], []⟩ grown)).filter
        (· ∉ Text.split '\n' (emit ⟨[short, speaking], []⟩ short)) =
      ["from typing import TYPE_CHECKING, final", "if TYPE_CHECKING:", "    from .g import G",
        "    \"B\",", "    def visit_b_e(self, node: B) -> R: ...", "class B(E):", "    g: G",
        "        return visitor.visit_b_e(self)", "    B,"] := by
  decide +kernel

end Grammar

end TreeGrammar
