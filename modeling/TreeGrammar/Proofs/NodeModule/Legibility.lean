/-
# TreeGrammar.Proofs.NodeModule.Legibility -- modules whose names keep to their places

The names of a module stand between delimiters: parentheses, colons, commas, quotes and
blanks.  In the module of a loaded grammar no name holds a delimiter, and neither an
annotation nor an import holds a line feed (`legible_of_load`), so each section of a legible
module can be told from its neighbours (`separable_sections`).
-/
import TreeGrammar.Proofs.Grammar.Completeness
import TreeGrammar.Proofs.NodeModule.Annotations
import TreeGrammar.Proofs.NodeModule.Sections
import TreeGrammar.Proofs.Text.WordBreak

set_option autoImplicit false

namespace TreeGrammar

/-! ## Names without delimiters -/

/-- The characters that part the pieces of a line, and the line feed. -/
def delimiters : List Char :=
  ['\n', ' ', '"', '(', ')', ',', ':']

/-- No delimiter stands in the text. -/
def Undelimited (text : Text) : Prop :=
  ∀ c ∈ delimiters, c ∉ text

instance (text : Text) : Decidable (Undelimited text) :=
  List.decidableBAll (fun c => c ∉ text) delimiters

theorem Undelimited.append {first second : Text} (clear : Undelimited first)
    (others : Undelimited second) : Undelimited (first ++ second) :=
  fun c delimiter => List.not_mem_append (clear c delimiter) (others c delimiter)

theorem Undelimited.unbroken {text : Text} (clear : Undelimited text) : '\n' ∉ text :=
  clear '\n' (by decide)

theorem undelimited_of_isIdentifier {name : Text} (named : Text.isIdentifier name = true) :
    Undelimited name := by
  have outside : delimiters.all (fun c => !Text.identifierStarts.contains c &&
      !Text.identifierParts.contains c) = true := by decide +kernel
  intro c delimiter
  have found := List.all_eq_true.1 outside c delimiter
  rw [Bool.and_eq_true, Bool.not_eq_true', Bool.not_eq_true'] at found
  exact Text.not_mem_of_isIdentifier named found.1 found.2

theorem unbroken_of_isIdentifier {name : Text} (named : Text.isIdentifier name = true) :
    '\n' ∉ name :=
  (undelimited_of_isIdentifier named).unbroken

/-- Snake case has no delimiter of its own. -/
theorem undelimited_snakeCase {name : Text} (clear : Undelimited name) :
    Undelimited (Text.snakeCase name) := by
  have low : delimiters.all (·.toNat < 0x5F) = true := by decide
  intro c delimiter member
  have small : c.toNat < 0x5F := by simpa using List.all_eq_true.1 low c delimiter
  exact clear c delimiter (Text.mem_of_mem_snakeCase small member)

/-! ## Legible modules -/

/-- The names and annotations of the class can be told from what stands around them. -/
structure NodeClass.Legible (node : NodeClass) : Prop where
  name : Text.isIdentifier node.name = true
  fields : ∀ field ∈ node.fields, Text.isIdentifier field.1 = true ∧ '\n' ∉ field.2
  freezes : ∀ freeze ∈ node.freezes, ∀ line ∈ freeze.lines, '\n' ∉ line
  operation : Undelimited node.operation

/-- The names of the module and of its classes can be told from what stands around them. -/
structure NodeModule.Legible (module : NodeModule) : Prop where
  family : Text.isIdentifier module.family = true
  visitor : Undelimited module.visitor
  imports : ∀ imported ∈ module.uses ++ module.relatives, '\n' ∉ imported.line
  classes : ∀ node ∈ module.classes, node.Legible

/-! ## Lines without a line feed -/

theorem unbroken_indented {line : Text} (unbroken : '\n' ∉ line) : '\n' ∉ indented line :=
  List.not_mem_append (by decide) unbroken

/-- A name in its place in a line. -/
theorem unbroken_around {front name back : Text} (before : '\n' ∉ front) (unbroken : '\n' ∉ name)
    (after : '\n' ∉ back) : '\n' ∉ front ++ name ++ back :=
  List.not_mem_append (List.not_mem_append before unbroken) after

theorem unbroken_acceptLine {visitor : Text} (unbroken : '\n' ∉ visitor) :
    '\n' ∉ acceptLine visitor :=
  unbroken_around (by decide) unbroken (by decide)

theorem unbroken_freeze {field : Text} (unbroken : '\n' ∉ field) {freeze : Freeze}
    (stores : freeze = .always field ∨ freeze = .ifPresent field) :
    ∀ line ∈ freeze.lines, '\n' ∉ line := by
  have statement : '\n' ∉ freezeStatement field :=
    unbroken_around (unbroken_around (by decide) unbroken (by decide)) unbroken (by decide)
  cases stores with
  | inl same => exact same ▸ List.forall_mem_singleton.2 statement
  | inr same =>
      subst same
      exact List.forall_mem_cons.2 ⟨unbroken_around (by decide) unbroken (by decide),
        List.forall_mem_singleton.2 (unbroken_indented statement)⟩

theorem Import.unbroken_line {imported : Import} (path : '\n' ∉ imported.path)
    (names : ∀ name ∈ imported.names, '\n' ∉ name) : '\n' ∉ imported.line := by
  refine List.not_mem_append (unbroken_around (by decide) path (by decide)) fun member => ?_
  rcases Text.mem_join member with inSeparator | ⟨name, listed, inside⟩
  · exact absurd inSeparator (by decide)
  · exact names name listed inside

theorem TypeRef.unbroken_hint {families : List Text} {type : TypeRef}
    (named : TypeRef.IsTypeName type.name) : '\n' ∉ type.hint families := by
  induction type with
  | named name => exact fun member => absurd (solid_nameHint named.quiet.solid _ member) (by decide)
  | sequence element ih => exact unbroken_around (by decide) (ih named) (by decide)
  | optional inner ih => exact List.not_mem_append (ih named) (by decide)

/-! ## Sections that can be told apart -/

theorem dense_indented {α : Type} (list : List α) (line : α → Text) :
    dense false (list.map fun item => indented (line item)) = true :=
  dense_of_forall (List.forall_mem_map.2 fun _ _ => List.cons_ne_nil _ _)

namespace NodeModule.Legible

variable {module : NodeModule} {node : NodeClass}

theorem separable_baseSection (legible : module.Legible) : Separable module.baseSection := by
  have family := unbroken_of_isIdentifier legible.family
  refine ⟨rfl, ?_⟩
  unfold baseSection
  simp only [List.forall_mem_cons]
  exact ⟨unbroken_around (by decide) family (by decide),
    unbroken_indented (unbroken_around (by decide) family (by decide)), by decide, by decide,
    by decide, by decide, unbroken_indented (unbroken_acceptLine legible.visitor.unbroken),
    by decide, List.forall_mem_nil _⟩

theorem separable_dispatchSection (legible : module.Legible) :
    Separable module.dispatchSection := by
  have family := unbroken_of_isIdentifier legible.family
  refine ⟨rfl, ?_⟩
  unfold dispatchSection
  simp only [List.forall_mem_cons]
  exact ⟨unbroken_around (unbroken_around (by decide) family (by decide))
    legible.visitor.unbroken (by decide), by decide, by decide, List.forall_mem_nil _⟩

theorem separable_variantsSection (legible : module.Legible) :
    Separable module.variantsSection := by
  have family := unbroken_of_isIdentifier legible.family
  unfold variantsSection
  constructor
  · exact dense_append (dense_append rfl (dense_indented _ _)) rfl
  · simp only [List.forall_mem_append, List.forall_mem_singleton, List.forall_mem_map]
    refine ⟨⟨unbroken_around (by decide) family (by decide), fun node member => ?_⟩, by decide⟩
    have name := unbroken_of_isIdentifier (legible.classes node member).name
    exact unbroken_indented (List.not_mem_append name (by decide))

theorem unbroken_operationLines (legible : node.Legible) :
    ∀ line ∈ operationLines node, '\n' ∉ line := by
  have name := unbroken_of_isIdentifier legible.name
  have operation := legible.operation.unbroken
  unfold operationLines
  simp only [List.forall_mem_cons]
  exact ⟨by decide, by decide, unbroken_indented
    (unbroken_around (unbroken_around (by decide) operation (by decide)) name (by decide)),
    List.forall_mem_nil _⟩

theorem separable_visitorSection (legible : module.Legible) : Separable module.visitorSection := by
  have family := unbroken_of_isIdentifier legible.family
  unfold visitorSection
  constructor
  · exact dense_append rfl (dense_flatMap fun node _ => rfl)
  · simp only [List.forall_mem_append, List.forall_mem_cons, List.mem_flatMap]
    refine ⟨⟨unbroken_around (by decide) legible.visitor.unbroken (by decide),
      unbroken_indented (unbroken_around (by decide) family (by decide)),
      List.forall_mem_nil _⟩, ?_⟩
    rintro line ⟨node, member, isLine⟩
    exact unbroken_operationLines (legible.classes node member) line isLine

theorem dense_freezeLines (node : NodeClass) : dense false (freezeLines node) = true := by
  unfold freezeLines
  split
  · rfl
  · exact dense_append rfl (dense_indented _ _)

theorem unbroken_freezeLines (legible : node.Legible) : ∀ line ∈ freezeLines node, '\n' ∉ line := by
  unfold freezeLines
  split
  · exact List.forall_mem_nil _
  · simp only [List.forall_mem_append, List.forall_mem_cons, List.forall_mem_map]
    refine ⟨⟨by decide, by decide, List.forall_mem_nil _⟩, fun line member => ?_⟩
    obtain ⟨freeze, isFreeze, isLine⟩ := List.mem_flatMap.1 member
    exact unbroken_indented (unbroken_indented (legible.freezes freeze isFreeze line isLine))

theorem separable_classSection (legible : module.Legible) (member : node ∈ module.classes) :
    Separable (module.classSection node) := by
  have family := unbroken_of_isIdentifier legible.family
  have nodeLegible := legible.classes node member
  have name := unbroken_of_isIdentifier nodeLegible.name
  unfold classSection
  constructor
  · rw [List.append_assoc _ (if node.fields.isEmpty then [] else [[]])]
    refine dense_append (dense_append (dense_append rfl (dense_indented _ _))
      (dense_freezeLines node)) ?_
    split <;> rfl
  · simp only [List.forall_mem_append, List.forall_mem_cons, List.forall_mem_map]
    refine ⟨⟨⟨⟨⟨by decide, by decide, ?_, List.forall_mem_nil _⟩, fun field isField => ?_⟩,
      unbroken_freezeLines nodeLegible⟩, ?_⟩, ?_, ?_, List.forall_mem_nil _⟩
    · exact unbroken_around (unbroken_around (by decide) name (by decide)) family (by decide)
    · obtain ⟨named, hint⟩ := nodeLegible.fields field isField
      have unbroken := unbroken_of_isIdentifier named
      exact unbroken_indented (List.not_mem_append (List.not_mem_append unbroken (by decide)) hint)
    · split
      · exact List.forall_mem_nil _
      · exact List.forall_mem_singleton.2 List.not_mem_nil
    · exact unbroken_indented (unbroken_acceptLine legible.visitor.unbroken)
    · exact unbroken_indented (unbroken_indented
        (unbroken_around (by decide) nodeLegible.operation.unbroken (by decide)))

theorem dense_importLines (module : NodeModule) : dense false module.importLines = true := by
  unfold importLines
  split
  · rfl
  · rw [List.append_assoc _ (if module.uses.isEmpty || module.relatives.isEmpty then [] else [[]])]
    refine dense_append (dense_append rfl (dense_indented _ _)) ?_
    split
    · exact dense_indented _ _
    · next both =>
      -- the empty line stands only where lines follow
      have relatives : module.relatives ≠ [] := fun empty => both (by simp [empty])
      obtain ⟨first, rest, listed⟩ := List.exists_cons_of_ne_nil relatives
      rw [listed]
      exact dense_indented rest _

theorem unbroken_importLines (legible : module.Legible) :
    ∀ line ∈ module.importLines, '\n' ∉ line := by
  have imports := legible.imports
  rw [List.forall_mem_append] at imports
  unfold importLines
  split
  · decide
  · simp only [List.forall_mem_append, List.forall_mem_map]
    refine ⟨⟨⟨by decide, fun imported isUse => unbroken_indented (imports.1 imported isUse)⟩, ?_⟩,
      fun imported isRelative => unbroken_indented (imports.2 imported isRelative)⟩
    split <;> decide

theorem undelimited_exports (legible : module.Legible) :
    ∀ name ∈ module.exports, Undelimited name := by
  unfold exports
  simp only [List.forall_mem_append, List.forall_mem_cons, List.forall_mem_map]
  exact ⟨⟨undelimited_of_isIdentifier legible.family, legible.visitor, by decide, by decide,
    List.forall_mem_nil _⟩, fun node member =>
    undelimited_of_isIdentifier (legible.classes node member).name⟩

theorem separable_exportLines (legible : module.Legible) : Separable module.exportLines := by
  unfold exportLines
  constructor
  · exact dense_append (dense_append rfl (dense_indented _ _)) rfl
  · simp only [List.forall_mem_append, List.forall_mem_singleton, List.forall_mem_map]
    refine ⟨⟨by decide, fun name isExport => ?_⟩, by decide⟩
    exact unbroken_indented
      (unbroken_around (by decide) (legible.undelimited_exports name isExport).unbroken (by decide))

theorem separable_headerLines (legible : module.Legible) : Separable module.headerLines := by
  have family := unbroken_of_isIdentifier legible.family
  unfold headerLines
  constructor
  · obtain ⟨c, more, title⟩ := List.exists_cons_of_ne_nil
      (List.append_ne_nil_of_right_ne_nil module.family (by decide) :
        module.family ++ " syntax tree nodes.".toList ≠ [])
    rw [title]
    exact dense_append rfl (dense_importLines module)
  · simp only [List.forall_mem_append, List.forall_mem_cons]
    exact ⟨⟨by decide, List.not_mem_append family (by decide), by decide, by decide, by decide,
      by decide, by decide, by decide, by decide, by decide, List.forall_mem_nil _⟩,
      legible.unbroken_importLines⟩

theorem separable_headerSection (legible : module.Legible) : Separable module.headerSection := by
  have header := legible.separable_headerLines
  have exports := legible.separable_exportLines
  unfold headerSection
  rw [List.append_assoc]
  refine ⟨dense_append header.dense exports.dense, ?_⟩
  simp only [List.forall_mem_append, List.forall_mem_singleton]
  exact ⟨header.unbroken, List.not_mem_nil, exports.unbroken⟩

/-- **The sections of a legible module can be told apart.** -/
theorem separable_sections (legible : module.Legible) :
    ∀ lines ∈ module.sections, Separable lines := by
  unfold sections
  simp only [List.forall_mem_append, List.forall_mem_cons, List.forall_mem_map]
  exact ⟨⟨⟨legible.separable_headerSection, legible.separable_baseSection,
    legible.separable_visitorSection, List.forall_mem_nil _⟩,
    fun node member => legible.separable_classSection member⟩,
    legible.separable_variantsSection, legible.separable_dispatchSection, List.forall_mem_nil _⟩

end NodeModule.Legible

/-! ## The modules of loaded grammars -/

section Loaded

variable {families : List Text} {grammar : Grammar} {family : Family} {variant : Variant}

theorem Family.undelimited_operationName (named : Text.isIdentifier family.name = true)
    (variantNamed : Text.isIdentifier variant.name = true) :
    Undelimited (family.operationName variant) := by
  have snake := undelimited_snakeCase (undelimited_of_isIdentifier named)
  have variantSnake := undelimited_snakeCase (undelimited_of_isIdentifier variantNamed)
  have verb : Undelimited "visit_".toList := by decide
  exact ((verb.append variantSnake).append (by decide)).append snake

theorem Field.freeze?_eq_some {field : Field} {freeze : Freeze}
    (found : field.freeze? = some freeze) :
    freeze = .always field.name ∨ freeze = .ifPresent field.name := by
  unfold freeze? at found
  split at found
  · exact .inl (Option.some.inj found).symm
  · exact .inr (Option.some.inj found).symm
  · exact absurd found (by simp)

theorem Variant.WellFormed.legible (wellFormed : variant.WellFormed)
    (named : Text.isIdentifier family.name = true) :
    (family.nodeClass families variant).Legible where
  name := wellFormed.name.1
  fields := by
    refine List.forall_mem_map.2 fun field member => ?_
    have fieldWellFormed := wellFormed.fields field member
    exact ⟨fieldWellFormed.name.1, TypeRef.unbroken_hint fieldWellFormed.type⟩
  freezes := by
    intro freeze isFreeze
    obtain ⟨field, member, found⟩ := List.mem_filterMap.1 isFreeze
    have unbroken := unbroken_of_isIdentifier (wellFormed.fields field member).name.1
    exact unbroken_freeze unbroken (Field.freeze?_eq_some found)
  operation := Family.undelimited_operationName named wellFormed.name.1

namespace Grammar

/-- **The module of a family of a loaded grammar is legible.** -/
theorem legible_of_load {text : Text} (loaded : load text = .ok grammar)
    (member : family ∈ grammar.families) : (grammar.nodeModule family).Legible := by
  have wellFormed := wellFormed_of_load loaded
  have named : ∀ other ∈ grammar.families, Text.isIdentifier other.name = true :=
    fun other isFamily => (wellFormed.families other isFamily).name.1
  constructor
  · exact named family member
  · exact (undelimited_of_isIdentifier (named family member)).append (by decide)
  · refine List.forall_mem_append.2 ⟨List.forall_mem_map.2 ?_, List.forall_mem_map.2 ?_⟩
    · intro use isUse
      have useWellFormed := wellFormed.uses use isUse
      refine Import.unbroken_line ?_ fun name listed => ?_
      · exact fun feed => absurd (useWellFormed.quiet_path.solid _ feed) (by decide)
      · exact unbroken_of_isIdentifier (useWellFormed.names name listed).1
    · intro entry imported
      have isFamily := (imported_other imported).1
      have path := (undelimited_snakeCase
        (undelimited_of_isIdentifier (named entry.1 isFamily))).unbroken
      refine Import.unbroken_line (List.not_mem_cons_of_ne_of_not_mem (by decide) path) ?_
      intro name listed
      exact unbroken_of_isIdentifier (isName_of_imported wellFormed imported listed).1
  · refine List.forall_mem_map.2 fun variant isVariant => ?_
    exact ((wellFormed.families family member).variants variant isVariant).legible
      (named family member)

end Grammar

end Loaded

end TreeGrammar
