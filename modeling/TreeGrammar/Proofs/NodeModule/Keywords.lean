/-
# TreeGrammar.Proofs.NodeModule.Keywords -- generated modules without keywords in the place of names

Most names are checked where they are read: they must be identifiers and no keywords.  What
is made of them, visitors, operations and modules, is then no keyword either.  But the parts
of a used path and the words of a type name are only identifiers.  So a module is free of
keywords just if the paths that it imports from and the type names in its family are
(`keywordFree_iff`).
-/
import TreeGrammar.Proofs.NodeModule.Annotations
import TreeGrammar.Proofs.NodeModule.Operations
import TreeGrammar.Proofs.Text.Identifier

set_option autoImplicit false

namespace TreeGrammar

/-! ## Words are identifiers -/

namespace TypeRef

variable {name word : Text}

theorem IsWord.isIdentifier (isWord : IsWord word) : Text.isIdentifier word = true := by
  have words : wordParts.within Text.identifierParts = true := by decide +kernel
  obtain ⟨c, rest, rfl, starts, parts⟩ := isWord
  refine Text.isIdentifier_cons.2 ⟨?_, fun d member => ?_⟩
  · have letters : wordStarts.within Text.identifierStarts = true := by decide +kernel
    exact Text.CharSet.contains_of_within letters (contains_of_isWordStart starts)
  · exact Text.CharSet.contains_of_within words (contains_of_isWordPart (parts d member))

theorem IsTypeName.isIdentifier_parts (named : IsTypeName name) :
    ∀ part ∈ Text.split '.' name, Text.isIdentifier part = true := by
  rcases named with isWord | ⟨first, second, isFirst, isSecond, rfl⟩
  · rw [Text.split_of_not_mem isWord.unpointed]
    exact List.forall_mem_singleton.2 isWord.isIdentifier
  · rw [Text.split_append isFirst.unpointed, Text.split_of_not_mem isSecond.unpointed]
    exact List.forall_mem_cons.2
      ⟨isFirst.isIdentifier, List.forall_mem_singleton.2 isSecond.isIdentifier⟩

end TypeRef

namespace Grammar

/-! ## Names made of names -/

section Names

variable {family : Family} {variant : Variant}

theorem isName_visitorName (named : IsName family.name) : IsName family.visitorName := by
  have parts : "Visitor".toList.all Text.identifierParts.contains = true := by decide +kernel
  constructor
  · exact Text.isIdentifier_append named.1 (List.all_eq_true.1 parts)
  · exact visitorName_not_mem (by decide +kernel) family

theorem isName_operationName (named : IsName family.name) (variantNamed : IsName variant.name) :
    IsName (family.operationName variant) := by
  have visit : Text.isIdentifier "visit_" = true := by decide +kernel
  have low : Text.identifierParts.contains '_' = true := by decide +kernel
  have begins : ∀ keyword ∈ keywords, ¬ "visit_".toList <+: keyword := by decide +kernel
  have variantParts :=
    Text.parts_of_isIdentifier (Text.isIdentifier_snakeCase variantNamed.1)
  have moduleParts := Text.parts_of_isIdentifier (Text.isIdentifier_snakeCase named.1)
  rw [operationName_eq]
  constructor
  · apply Text.isIdentifier_append visit
    exact List.forall_mem_append.2 ⟨variantParts, List.forall_mem_cons.2 ⟨low, moduleParts⟩⟩
  · exact fun keyword => begins _ keyword ⟨_, rfl⟩

end Names

/-! ## Modules without keywords -/

/-- Names with points between them. -/
def IsPath (path : Text) : Prop :=
  ∀ part ∈ Text.split '.' path, IsName part

/-- All names in the module of a family are identifiers and no keywords: the paths of the imports,
for other families behind a point, and the names that they list; the names that are declared; the
operations and the fields; and the bare names of the annotations, unless they are for scalars.  What
every module imports from the standard library does not depend on the grammar. -/
structure KeywordFree (grammar : Grammar) (family : Family) : Prop where
  uses : ∀ line ∈ (grammar.nodeModule family).uses,
    IsPath line.path ∧ ∀ name ∈ line.names, IsName name
  relatives : ∀ line ∈ (grammar.nodeModule family).relatives,
    (∃ path, line.path = '.' :: path ∧ IsPath path) ∧ ∀ name ∈ line.names, IsName name
  declared : ∀ name ∈ (grammar.nodeModule family).exports, IsName name
  classes : ∀ node ∈ (grammar.nodeModule family).classes,
    IsName node.operation ∧ ∀ field ∈ node.fields, IsName field.1
  annotations : ∀ variant ∈ family.variants, ∀ field ∈ variant.fields,
    TypeRef.isScalar field.type.name = false →
      IsPath (bare (field.type.hint grammar.familyNames))

/-- Among the names that are not checked, the parts of the used paths and of the names inside the
family's field types, there is no keyword.  Scalars are not looked at. -/
structure SparesKeywords (grammar : Grammar) (family : Family) : Prop where
  paths : ∀ use ∈ grammar.uses, ∀ part ∈ Text.split '.' use.path, part ∉ keywords
  types : ∀ name ∈ family.referredNames, TypeRef.isScalar name = false →
    ∀ part ∈ Text.split '.' name, part ∉ keywords

section Module

variable {grammar : Grammar} {family : Family} {name : Text}

theorem isPath_iff (identifiers : ∀ part ∈ Text.split '.' name, Text.isIdentifier part = true) :
    IsPath name ↔ ∀ part ∈ Text.split '.' name, part ∉ keywords := by
  constructor
  · exact fun isPath part member => (isPath part member).2
  · exact fun free part member => ⟨identifiers part member, free part member⟩

theorem isPath_of_isName (named : IsName name) : IsPath name := by
  rw [IsPath, Text.split_of_not_mem (Text.unpointed_of_isIdentifier named.1)]
  exact List.forall_mem_singleton.2 named

/-- The qualifier that an annotation leaves out is the name of a family, and so no keyword. -/
theorem isPath_nameHint_iff (wellFormed : grammar.WellFormed) (named : TypeRef.IsTypeName name)
    (unscalar : TypeRef.isScalar name = false) :
    IsPath (nameHint grammar.familyNames name) ↔ ∀ part ∈ Text.split '.' name, part ∉ keywords := by
  have hintless : TypeRef.scalarHint? name = none := by simpa [TypeRef.isScalar] using unscalar
  have whole := isPath_iff named.isIdentifier_parts
  rw [nameHint, hintless]
  rcases named with isWord | ⟨first, second, isFirst, isSecond, rfl⟩
  · rwa [TypeRef.properQualifier?_word isWord]
  · rw [TypeRef.properQualifier?_pointed isFirst, TypeRef.localName_pointed isSecond]
    -- the annotation leaves the first part out only if it is the name of a family
    by_cases isFamily : first ∈ grammar.familyNames
    · obtain ⟨target, member, same⟩ := List.mem_map.1 isFamily
      have qualifier : IsName first := same ▸ (wellFormed.families target member).name
      simp only [isFamily, if_true]
      rw [← whole, IsPath, IsPath, Text.split_append isFirst.unpointed, List.forall_mem_cons]
      exact ⟨fun isPath => ⟨qualifier, isPath⟩, fun both => both.2⟩
    · simp only [isFamily, if_false]
      exact whole

theorem isName_of_declared (wellFormed : grammar.WellFormed) (member : family ∈ grammar.families)
    (declared : name ∈ (grammar.nodeModule family).exports) : IsName name := by
  have own := wellFormed.families family member
  rw [exports_eq, List.mem_append] at declared
  cases declared with
  | inl isOwn =>
      simp only [ownNames, List.mem_cons, List.not_mem_nil, or_false] at isOwn
      rcases isOwn with rfl | rfl | rfl | rfl
      · exact own.name
      · exact isName_visitorName own.name
      · exact ⟨by decide +kernel, by decide +kernel⟩
      · exact ⟨by decide +kernel, by decide +kernel⟩
  | inr isVariant => exact own.isName_of_variant isVariant

/-- A bare annotation, by the name that it is for. -/
theorem isPath_bare_iff (wellFormed : grammar.WellFormed) {type : TypeRef}
    (named : TypeRef.IsTypeName type.name) (unscalar : TypeRef.isScalar type.name = false) :
    IsPath (bare (type.hint grammar.familyNames)) ↔
      ∀ part ∈ Text.split '.' type.name, part ∉ keywords := by
  rw [bare_hint named]
  exact isPath_nameHint_iff wellFormed named unscalar

theorem sparesKeywords_of_keywordFree (wellFormed : grammar.WellFormed)
    (member : family ∈ grammar.families) (free : grammar.KeywordFree family) :
    grammar.SparesKeywords family := by
  constructor
  · intro use isUse
    have isLine : ⟨use.path, use.names⟩ ∈ (grammar.nodeModule family).uses :=
      List.mem_map_of_mem isUse
    exact (isPath_iff (wellFormed.uses use isUse).path).1 (free.uses _ isLine).1
  · intro name referred unscalar
    obtain ⟨variant, isVariant, listed⟩ := List.mem_flatMap.1 referred
    obtain ⟨field, isField, rfl⟩ := List.mem_map.1 listed
    have own := (wellFormed.families family member).variants variant isVariant
    have isPath := free.annotations variant isVariant field isField unscalar
    exact (isPath_bare_iff wellFormed (own.fields field isField).type unscalar).1 isPath

theorem keywordFree_of_sparesKeywords (wellFormed : grammar.WellFormed)
    (admits : ∀ family ∈ grammar.families, grammar.Admits family)
    (member : family ∈ grammar.families) (spares : grammar.SparesKeywords family) :
    grammar.KeywordFree family := by
  have own := wellFormed.families family member
  constructor
  · intro line isLine
    obtain ⟨use, isUse, rfl⟩ := List.mem_map.1 isLine
    have useWellFormed := wellFormed.uses use isUse
    exact ⟨(isPath_iff useWellFormed.path).2 (spares.paths use isUse), useWellFormed.names⟩
  · intro line isLine
    obtain ⟨entry, imported, rfl⟩ := List.mem_map.1 isLine
    obtain ⟨isFamily, -⟩ := imported_other imported
    have target := wellFormed.families entry.1 isFamily
    have module : IsName entry.1.moduleName :=
      ⟨Text.isIdentifier_snakeCase target.name.1, (admits entry.1 isFamily).module⟩
    refine ⟨⟨entry.1.moduleName, rfl, isPath_of_isName module⟩, fun name listed => ?_⟩
    exact isName_of_imported wellFormed imported listed
  · exact fun name declared => isName_of_declared wellFormed member declared
  · intro node isNode
    obtain ⟨variant, isVariant, rfl⟩ := List.mem_map.1 isNode
    have variantWellFormed := own.variants variant isVariant
    refine ⟨isName_operationName own.name variantWellFormed.name, fun entry isEntry => ?_⟩
    obtain ⟨field, isField, rfl⟩ := List.mem_map.1 isEntry
    exact (variantWellFormed.fields field isField).name
  · intro variant isVariant field isField unscalar
    have named := ((own.variants variant isVariant).fields field isField).type
    have referred : field.type.name ∈ family.referredNames :=
      List.mem_flatMap.2 ⟨variant, isVariant, List.mem_map_of_mem isField⟩
    exact (isPath_bare_iff wellFormed named unscalar).2 (spares.types _ referred unscalar)

/-- **When a module has no keyword in the place of a name.**  In a grammar that has been loaded,
the module of a family is free of keywords just if no part of a used path is a keyword, and no part
of a name inside the field types of the family, scalars apart. -/
theorem keywordFree_iff {text : Text} (loaded : load text = .ok grammar)
    (member : family ∈ grammar.families) :
    grammar.KeywordFree family ↔ grammar.SparesKeywords family := by
  have wellFormed := wellFormed_of_load loaded
  have admits := admits_of_validate (load_eq_ok_iff.1 loaded).2
  exact ⟨sparesKeywords_of_keywordFree wellFormed member,
    keywordFree_of_sparesKeywords wellFormed admits member⟩

end Module

/-- A family with one field, of the given type. -/
def oneField (type : Text) : Family :=
  ⟨['E'], [⟨['A'], [⟨['x'], .named type⟩]⟩]⟩

/-- A keyword is let through as the type of a field, and as a part of a used path. -/
theorem keywords_let_through :
    (load "E \x7b A: class x \x7d" = .ok ⟨[oneField "class"], []⟩ ∧
      ¬ KeywordFree ⟨[oneField "class"], []⟩ (oneField "class")) ∧
    (load "use a.class: T\nE \x7b A: T x \x7d" =
        .ok ⟨[oneField ['T']], [⟨"a.class", [['T']]⟩]⟩ ∧
      ¬ KeywordFree ⟨[oneField ['T']], [⟨"a.class", [['T']]⟩]⟩ (oneField ['T'])) := by
  have keyword : ¬ IsName "class" := fun named => absurd (by decide) named.2
  refine ⟨⟨by decide +kernel, fun free => ?_⟩, by decide +kernel, fun free => ?_⟩
  · have isPath : IsPath (bare (TypeRef.hint [['E']] (.named "class"))) :=
      free.annotations ⟨['A'], [⟨['x'], .named "class"⟩]⟩ (by decide) ⟨['x'], .named "class"⟩
        (by decide) (by decide)
    have parts : "lass".toList.all TypeRef.isWordPart = true := by decide
    have isTypeName : TypeRef.IsTypeName (TypeRef.named "class").name :=
      .inl ⟨'c', "lass".toList, rfl, by decide, List.all_eq_true.1 parts⟩
    rw [bare_hint isTypeName] at isPath
    exact keyword (isPath _ (by decide +kernel))
  · have isLine : ⟨"a.class", [['T']]⟩ ∈ (nodeModule ⟨[oneField ['T']], [⟨"a.class", [['T']]⟩]⟩
        (oneField ['T'])).uses := List.mem_singleton_self _
    exact keyword ((free.uses _ isLine).1 _ (by decide))

/-- A grammar that names types in all ways: by a use of a path in two parts, by a scalar that is a
keyword, by a variant behind its family, and by two words that mean nothing. -/
def namingGrammar : Grammar :=
  ⟨[⟨['E'], [⟨['A'], [⟨['x'], .named ['T']⟩, ⟨['y'], .optional (.named "None")⟩,
      ⟨['z'], .sequence (.named "G.B")⟩, ⟨['w'], .named "F.b"⟩]⟩]⟩,
    ⟨['G'], [⟨['B'], []⟩]⟩], [⟨"a.b", [['T']]⟩]⟩

/-- A text that is loaded as `namingGrammar`. -/
def namingText : Text :=
  "use a.b: T\nE \x7b A: T x, None? y, List<G.B> z, F.b w \x7d\nG \x7b B: \x7d"

theorem namingGrammar_keywordFree :
    load namingText = .ok namingGrammar ∧
      ∀ family ∈ namingGrammar.families, namingGrammar.KeywordFree family := by
  have loaded : load namingText = .ok namingGrammar := by decide +kernel
  have spares : ∀ family ∈ namingGrammar.families, namingGrammar.SparesKeywords family := by
    intro family member
    constructor <;> revert family <;> decide +kernel
  exact ⟨loaded, fun family member => (keywordFree_iff loaded member).2 (spares family member)⟩

end Grammar

end TreeGrammar
