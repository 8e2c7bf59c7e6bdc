/-
# TreeGrammar.Proofs.NodeModule.Supply -- lines that supply the names in annotations

An annotation stands in a line of its class.  The name within its wrappers is that of a
builtin type, or it comes from another line of the same text: from the line of a use, from
the line of an import out of a relative module, or from the line that declares the class.
Resolving a reference, annotating it and importing for it go by rules of their own; if all
references of a loaded grammar resolve, both lines are there for every field
(`annotations_supplied`).
-/
import TreeGrammar.NodeModule.Render
import TreeGrammar.Proofs.NodeModule.Legibility

set_option autoImplicit false

namespace TreeGrammar.Grammar

/-- In a section of the text the class of the variant has the field, so annotated. -/
def Annotates (text : Text) (family : Family) (variant : Variant) (field : Field) (hint : Text) :
    Prop :=
  ∃ lines ∈ readSections text,
    ("class " ++ variant.name ++ "(" ++ family.name ++ "):" : Text) ∈ lines ∧
      ("    " ++ field.name ++ ": " ++ hint : Text) ∈ lines

/-- How a family's module of these lines comes by the name for a reference. -/
inductive Supplied (grammar : Grammar) (family : Family) (lines : List Text)
    (reference name : Text) : Prop
  /-- The reference is to a scalar, and the name is that of a builtin type. -/
  | builtin (scalar : TypeRef.scalarHint? reference = some name)
      (isBuiltin : name ∈ TypeRef.builtinScalars)
  /-- The line of a use imports the name that is referred to. -/
  | used {use : Use} (isUse : use ∈ grammar.uses) (same : name = reference)
      (listed : name ∈ use.names)
      (line : ("    from " ++ use.path ++ " import " ++ Text.join ", " use.names : Text) ∈ lines)
  /-- The reference means the family itself or a variant of it, and a line declares the class. -/
  | own (means : Means family reference name)
      (line : ("class " ++ name ++ "(ABC):" : Text) ∈ lines ∨
        ("class " ++ name ++ "(" ++ family.name ++ "):" : Text) ∈ lines)
  /-- A line imports the name from the module of the family that the reference means. -/
  | sibling {target : Family} {names : List Text} (isFamily : target ∈ grammar.families)
      (means : Means target reference name) (listed : name ∈ names)
      (line : ("    from ." ++ target.moduleName ++ " import " ++ Text.join ", " names : Text) ∈
        lines)

variable {grammar : Grammar} {family target : Family} {variant : Variant} {field : Field}
  {reference name : Text} {lines : List Text}

/-! ## The lines of a module -/

section Lines

variable {module : NodeModule}

theorem mem_headerSection_of_import {imported : Import}
    (isImport : imported ∈ module.uses ++ module.relatives) :
    indented imported.line ∈ module.headerSection := by
  have listed : indented imported.line ∈ module.importLines := by
    unfold NodeModule.importLines
    split
    · next none =>
      rw [Bool.and_eq_true, List.isEmpty_iff, List.isEmpty_iff] at none
      simp [none] at isImport
    · rcases List.mem_append.1 isImport with isUse | isRelative
      · simp only [List.mem_append]
        exact .inl (.inl (.inr (List.mem_map_of_mem isUse)))
      · exact List.mem_append_right _ (List.mem_map_of_mem isRelative)
  exact List.mem_append_left _ (List.mem_append_left _ (List.mem_append_right _ listed))

theorem headLine_mem_classSection (module : NodeModule) (node : NodeClass) :
    ("class " ++ node.name ++ "(" ++ module.family ++ "):" : Text) ∈ module.classSection node := by
  simp [NodeModule.classSection]

theorem mem_classSection_of_field {node : NodeClass} {entry : Text × Text}
    (isField : entry ∈ node.fields) :
    indented (entry.1 ++ ": " ++ entry.2) ∈ module.classSection node := by
  unfold NodeModule.classSection
  simp only [List.mem_append]
  exact .inl (.inl (.inl (.inr (List.mem_map_of_mem isField))))

end Lines

theorem mem_sections_of_variant (grammar : Grammar) (isVariant : variant ∈ family.variants) :
    (grammar.nodeModule family).classSection (family.nodeClass grammar.familyNames variant) ∈
      (grammar.nodeModule family).sections := by
  simp only [NodeModule.sections, nodeModule, List.mem_append, List.map_map]
  exact .inl (.inr (List.mem_map_of_mem isVariant))

/-! ## Supplying one name -/

/-- What a family's field types mean in another family is imported from its module. -/
theorem imported_of_means (referred : reference ∈ family.referredNames)
    (unscalar : TypeRef.isScalar reference = false)
    (found : grammar.target? reference = some target) (other : target.name ≠ family.name)
    (means : Means target reference (TypeRef.localName reference)) :
    ∃ names, (target, names) ∈ grammar.familyImports family ∧
      TypeRef.localName reference ∈ names := by
  have wanted : (target.name, TypeRef.localName reference) ∈ grammar.wantedNames family :=
    mem_wantedNames_iff.2 ⟨reference, referred, unscalar, target, found, other, rfl⟩
  obtain ⟨isFamily, -⟩ := family?_eq_some found
  refine ⟨(target.name :: target.variantNames).filter fun name =>
    (target.name, name) ∈ grammar.wantedNames family, ?_, ?_⟩
  · exact mem_familyImports_iff.2 ⟨isFamily, List.mem_map_of_mem wanted, rfl⟩
  · exact List.mem_filter.2 ⟨means.declared, decide_eq_true wanted⟩

section Module

variable (shown : ∀ part ∈ (grammar.nodeModule family).sections, ∀ line ∈ part, line ∈ lines)

include shown

/-- Every import of the module stands in a line of the header. -/
theorem importLine_shown {imported : Import}
    (isImport : imported ∈ (grammar.nodeModule family).uses ++
      (grammar.nodeModule family).relatives) : indented imported.line ∈ lines := by
  refine shown (grammar.nodeModule family).headerSection ?_ _ (mem_headerSection_of_import isImport)
  simp [NodeModule.sections]

/-- A name that is declared for the family or for a variant of it stands in the line of a class. -/
theorem classLine_shown (declared : name ∈ family.name :: family.variantNames) :
    ("class " ++ name ++ "(ABC):" : Text) ∈ lines ∨
      ("class " ++ name ++ "(" ++ family.name ++ "):" : Text) ∈ lines := by
  rcases List.mem_cons.1 declared with rfl | inVariants
  · refine .inl (shown (grammar.nodeModule family).baseSection ?_ _ List.mem_cons_self)
    simp [NodeModule.sections]
  · obtain ⟨variant, isVariant, rfl⟩ := List.mem_map.1 inVariants
    exact .inr (shown _ (mem_sections_of_variant grammar isVariant) _
      (headLine_mem_classSection _ _))

/-- **One reference that resolves.**  The name that annotates it is supplied by a line of the
family's module. -/
theorem supplied_of_resolves (sound : grammar.Sound) (member : family ∈ grammar.families)
    (named : TypeRef.IsTypeName reference) (referred : reference ∈ family.referredNames)
    (resolved : grammar.resolves reference = true) :
    Supplied grammar family lines reference (nameHint grammar.familyNames reference) := by
  cases scalar : TypeRef.scalarHint? reference with
  | some hint =>
      rw [nameHint, scalar]
      exact .builtin scalar (builtin_of_scalarHint? scalar)
  | none =>
      by_cases used : reference ∈ grammar.usedNames
      · -- a used name has no point, so it is annotated as it stands
        have unpointed := used_unpointed sound.wellFormed used
        have whole : nameHint grammar.familyNames reference = reference := by
          rw [nameHint_unpointed unpointed, scalar, Option.getD_none]
        obtain ⟨use, isUse, listed⟩ := List.mem_flatMap.1 used
        rw [whole]
        exact .used isUse rfl listed
          (importLine_shown shown (List.mem_append_left _ (List.mem_map_of_mem isUse)))
      · obtain ⟨target, found, means, spelled⟩ := means_of_resolves named scalar used resolved
        have unscalar : TypeRef.isScalar reference = false := by rw [TypeRef.isScalar, scalar]; rfl
        have isFamily := (family?_eq_some found).1
        rw [spelled]
        by_cases own : target.name = family.name
        · have distinct : grammar.familyNames.Nodup := familyNames_nodup sound.modules
          obtain rfl := family_eq_of_name distinct member isFamily own
          exact .own means (classLine_shown shown means.declared)
        · obtain ⟨names, imported, listed⟩ := imported_of_means referred unscalar found own means
          exact .sibling isFamily means listed
            (importLine_shown shown (List.mem_append_right _ (List.mem_map_of_mem imported)))

end Module

/-! ## Supplying all names -/

/-- Each field of the family stands in the section of its class. -/
theorem annotates_of_sections
    (read : readSections (grammar.emit family) = (grammar.nodeModule family).sections)
    (isVariant : variant ∈ family.variants) (isField : field ∈ variant.fields) :
    Annotates (grammar.emit family) family variant field (field.type.hint grammar.familyNames) := by
  have inClass : (field.name, field.type.hint grammar.familyNames) ∈
      (family.nodeClass grammar.familyNames variant).fields := List.mem_map_of_mem isField
  exact ⟨_, read ▸ mem_sections_of_variant grammar isVariant, headLine_mem_classSection _ _,
    mem_classSection_of_field inClass⟩

theorem render_of_resolved (valid : grammar.validate = .ok ())
    (resolved : ∀ reference ∈ grammar.references, grammar.resolves reference.name = true) :
    grammar.render true = .ok grammar.files := by
  have known : grammar.unresolved = [] := by
    rw [unresolved, List.filter_eq_nil_iff]
    intro reference member
    simp [resolved reference member]
  have passed : grammar.checkFor true = .ok () := by
    rw [checkFor, check_eq_ok_iff, if_pos rfl, known]
    exact ⟨valid, rfl⟩
  rw [render, check_eq_ok_iff]
  exact ⟨passed, rfl⟩

/-- **Strict acceptance closes the generated modules.**  If all references of a loaded grammar
resolve, its modules are generated under the strict rule.  In the text of each of them every
variant's class has its fields with their annotations, and the bare name of an annotation is a
builtin type or is imported or declared by a line of the same text. -/
theorem annotations_supplied {text : Text} (loaded : load text = .ok grammar)
    (resolved : ∀ reference ∈ grammar.references, grammar.resolves reference.name = true) :
    grammar.render true = .ok grammar.files ∧
      ∀ family ∈ grammar.families, ∀ variant ∈ family.variants, ∀ field ∈ variant.fields,
        Annotates (grammar.emit family) family variant field
            (field.type.hint grammar.familyNames) ∧
          Supplied grammar family (Text.split '\n' (grammar.emit family)) field.type.name
            (bare (field.type.hint grammar.familyNames)) := by
  have valid := (load_eq_ok_iff.1 loaded).2
  have sound := sound_of_validate (wellFormed_of_load loaded) valid
  refine ⟨render_of_resolved valid resolved, ?_⟩
  intro family isFamily variant isVariant field isField
  have read : readSections (grammar.emit family) = (grammar.nodeModule family).sections :=
    NodeModule.readSections_text (legible_of_load loaded isFamily).separable_sections
  refine ⟨annotates_of_sections read isVariant isField, ?_⟩
  have wellFormed := sound.wellFormed.families family isFamily
  have named := ((wellFormed.variants variant isVariant).fields field isField).type
  have isReference : ⟨family, variant, field⟩ ∈ grammar.references := by
    simp only [references, List.mem_flatMap, List.mem_map]
    exact ⟨family, isFamily, variant, isVariant, field, isField, rfl⟩
  have referred : field.type.name ∈ family.referredNames :=
    List.mem_flatMap.2 ⟨variant, isVariant, List.mem_map_of_mem isField⟩
  have shown : ∀ part ∈ (grammar.nodeModule family).sections, ∀ line ∈ part,
      line ∈ Text.split '\n' (grammar.emit family) := fun part isPart line member =>
    mem_split_of_mem_readSections (read ▸ isPart) member
  rw [bare_hint named]
  exact supplied_of_resolves shown sound isFamily named referred (resolved _ isReference)

theorem linkedGrammar_supplied :
    load linkedText = .ok linkedGrammar ∧
      (∀ reference ∈ linkedGrammar.references, linkedGrammar.resolves reference.name = true) ∧
      linkedGrammar.render true = .ok linkedGrammar.files ∧
      ∀ family ∈ linkedGrammar.families, ∀ variant ∈ family.variants, ∀ field ∈ variant.fields,
        Annotates (linkedGrammar.emit family) family variant field
            (field.type.hint linkedGrammar.familyNames) ∧
          Supplied linkedGrammar family (Text.split '\n' (linkedGrammar.emit family))
            field.type.name (bare (field.type.hint linkedGrammar.familyNames)) := by
  have loaded : load linkedText = .ok linkedGrammar := by decide +kernel
  have each : linkedGrammar.references.all (linkedGrammar.resolves ·.name) = true := by
    decide +kernel
  have resolved := List.all_eq_true.1 each
  exact ⟨loaded, resolved, annotations_supplied loaded resolved⟩

end TreeGrammar.Grammar
