/-
# TreeGrammar.Proofs.NodeModule.Operations -- the operations of a family's visitor

A visitor is to have one operation for each variant.  The variants of a loaded grammar
have different names, but an operation is named by the snake case of its variant's name.
So each variant has an operation of its own just if these differ as well
(`ownOperations_iff`).  In plain camel case they do (`ownOperations_of_camel`), and names
that share an operation differ in case and low lines only (`letters_of_shared`).

Behind the variant an operation names the module, so that one object may visit the nodes of
two families.  But a low line may stand in either name, and then the last words of a variant
can be taken for the first words of a module.  Only so do two families share an operation
(`separateOperations_iff`).
-/
import Mathlib.Data.List.Dedup
import Mathlib.Data.Finset.Card
import TreeGrammar.NodeModule.Basic
import TreeGrammar.Proofs.Grammar.Soundness
import TreeGrammar.Proofs.Text.WordBreak

set_option autoImplicit false

namespace TreeGrammar

/-- The operations that the visitor declares, one for each class. -/
def NodeModule.operations (module : NodeModule) : List Text :=
  module.classes.map NodeClass.operation

namespace Grammar

/-- Each variant of the family has an operation of its own: variants with the same operation
are the same, the visitor declares as many operations as there are variants, and no two
classes accept a visitor by the same operation. -/
structure OwnOperations (grammar : Grammar) (family : Family) : Prop where
  injective : ∀ variant ∈ family.variants, ∀ other ∈ family.variants,
    family.operationName variant = family.operationName other → variant = other
  count : (grammar.nodeModule family).operations.toFinset.card = family.variants.length
  accepts : (grammar.nodeModule family).classes.Pairwise fun node other =>
    node.operation ≠ other.operation

variable {grammar : Grammar} {family : Family}

theorem operations_nodeModule (grammar : Grammar) (family : Family) :
    (grammar.nodeModule family).operations = family.variants.map family.operationName := by
  simp [NodeModule.operations, nodeModule, Family.nodeClass]

/-- Only the snake case of the variant's name tells an operation from another of the family. -/
theorem operationName_inj {variant other : Variant} :
    family.operationName variant = family.operationName other ↔
      Text.snakeCase variant.name = Text.snakeCase other.name := by
  unfold Family.operationName
  rw [List.append_left_inj, List.append_left_inj, List.append_right_inj]

theorem nodup_operations_iff :
    (grammar.nodeModule family).operations.Nodup ↔
      (family.variantNames.map Text.snakeCase).Nodup := by
  rw [operations_nodeModule, Family.variantNames, List.map_map]
  simp only [List.Nodup, List.pairwise_map, ne_eq, operationName_inj, Function.comp_apply]

/-- Where each variant is named once, having own operations is declaring none twice. -/
theorem ownOperations_iff_nodup (distinct : family.variants.Nodup) :
    grammar.OwnOperations family ↔ (grammar.nodeModule family).operations.Nodup := by
  constructor
  · intro own
    rw [operations_nodeModule]
    exact distinct.map_on own.injective
  · intro nodup
    refine ⟨?_, ?_, List.pairwise_map.1 nodup⟩
    · rw [operations_nodeModule] at nodup
      exact fun variant member other otherMember same =>
        List.inj_on_of_nodup_map nodup member otherMember same
    · rw [List.toFinset_card_of_nodup nodup, operations_nodeModule, List.length_map]

theorem distinct_variants {text : Text} (loaded : load text = .ok grammar)
    (member : family ∈ grammar.families) : family.variants.Nodup :=
  (admits_of_load loaded member).distinct.of_map

/-- **When each variant has an operation of its own.**  In a grammar that has been loaded, a
family gives its variants operations of their own just if no two of their names have the same
snake case. -/
theorem ownOperations_iff {text : Text} (loaded : load text = .ok grammar)
    (member : family ∈ grammar.families) :
    grammar.OwnOperations family ↔ (family.variantNames.map Text.snakeCase).Nodup := by
  rw [ownOperations_iff_nodup (distinct_variants loaded member), nodup_operations_iff]

/-- A family whose two variants differ in case only. -/
def mergedFamily : Family :=
  ⟨['E'], [⟨['A', 'B'], []⟩, ⟨['A', 'b'], []⟩]⟩

theorem merged_variants_share_operation :
    load "E \x7b AB: ; Ab: \x7d" = .ok ⟨[mergedFamily], []⟩ ∧
      ¬ OwnOperations ⟨[mergedFamily], []⟩ mergedFamily := by
  refine ⟨by decide +kernel, fun own => ?_⟩
  have same := own.injective ⟨['A', 'B'], []⟩ (by decide) ⟨['A', 'b'], []⟩ (by decide)
    (by decide +kernel)
  exact absurd same (by decide)

/-- A family whose variants differ in their words. -/
def partedFamily : Family :=
  ⟨['E'], [⟨['A', 'B', 'c'], []⟩, ⟨['A', 'b', 'c'], []⟩]⟩

theorem parted_variants_ownOperations :
    OwnOperations ⟨[partedFamily], []⟩ partedFamily := by
  have loaded : load "E \x7b ABc: ; Abc: \x7d" = .ok ⟨[partedFamily], []⟩ := by decide +kernel
  exact (ownOperations_iff loaded (by decide)).2 (by decide +kernel)

/-- Plain camel case gives each variant an operation of its own. -/
theorem ownOperations_of_camel {text : Text} (loaded : load text = .ok grammar)
    (member : family ∈ grammar.families) (camel : ∀ variant ∈ family.variants,
      Text.Camel variant.name) : grammar.OwnOperations family := by
  rw [ownOperations_iff_nodup (distinct_variants loaded member), nodup_operations_iff]
  refine (admits_of_load loaded member).distinct.map_on fun name isName other isOther same => ?_
  obtain ⟨variant, isVariant, rfl⟩ := List.mem_map.1 isName
  obtain ⟨second, isSecond, rfl⟩ := List.mem_map.1 isOther
  exact Text.snakeCase_injective (camel variant isVariant) (camel second isSecond) same

/-- Variants that share an operation have names that differ in case and low lines only. -/
theorem letters_of_shared {variant other : Variant}
    (shared : family.operationName variant = family.operationName other) :
    Text.letters (Text.lower variant.name) = Text.letters (Text.lower other.name) := by
  rw [← Text.letters_snakeCase, operationName_inj.1 shared, Text.letters_snakeCase]

/-! ## Operations of two families -/

/-- One object can visit the nodes of both families: no two of their variants have one operation,
no operation is declared by both visitors, and whatever methods are given for the one and for the
other visitor, an object has them all. -/
structure SeparateOperations (grammar : Grammar) (first second : Family) : Prop where
  variants : ∀ variant ∈ first.variants, ∀ other ∈ second.variants,
    first.operationName variant ≠ second.operationName other
  declared : List.Disjoint (grammar.nodeModule first).operations
    (grammar.nodeModule second).operations
  object : ∀ methods others : Text → Text, ∃ both : Text → Text,
    (∀ operation ∈ (grammar.nodeModule first).operations, both operation = methods operation) ∧
      ∀ operation ∈ (grammar.nodeModule second).operations, both operation = others operation

/-- The module of the second family is named by some words and then as the module of the first,
and a variant of the first is named as a variant of the second and then by these words. -/
def SharesWords (first second : Family) : Prop :=
  ∃ words, second.moduleName = words ++ '_' :: first.moduleName ∧
    ∃ variant ∈ first.variants, ∃ other ∈ second.variants,
      Text.snakeCase variant.name = Text.snakeCase other.name ++ '_' :: words

section Families

variable {first second : Family}

theorem operationName_eq (family : Family) (variant : Variant) :
    family.operationName variant =
      "visit_".toList ++ (Text.snakeCase variant.name ++ '_' :: family.moduleName) := by
  have low : "_".toList ++ family.moduleName = '_' :: family.moduleName := rfl
  unfold Family.operationName
  rw [List.append_assoc, List.append_assoc, low]

/-- Variants of families with different modules have one operation only if the low line behind the
one variant stands within the name of the other. -/
theorem operationName_eq_iff (different : first.moduleName ≠ second.moduleName)
    {variant other : Variant} :
    first.operationName variant = second.operationName other ↔
      (∃ words, second.moduleName = words ++ '_' :: first.moduleName ∧
        Text.snakeCase variant.name = Text.snakeCase other.name ++ '_' :: words) ∨
      ∃ words, first.moduleName = words ++ '_' :: second.moduleName ∧
        Text.snakeCase other.name = Text.snakeCase variant.name ++ '_' :: words := by
  rw [operationName_eq, operationName_eq, List.append_right_inj]
  exact Text.append_mark_eq_iff different

/-- Operations are told apart by the variants that they are named for. -/
theorem separateOperations_iff_variants :
    grammar.SeparateOperations first second ↔
      ∀ variant ∈ first.variants, ∀ other ∈ second.variants,
        first.operationName variant ≠ second.operationName other := by
  refine ⟨SeparateOperations.variants, fun apart => ?_⟩
  have declared : List.Disjoint (grammar.nodeModule first).operations
      (grammar.nodeModule second).operations := by
    intro operation isFirst isSecond
    rw [operations_nodeModule] at isFirst isSecond
    obtain ⟨variant, isVariant, rfl⟩ := List.mem_map.1 isFirst
    obtain ⟨other, isOther, same⟩ := List.mem_map.1 isSecond
    exact apart variant isVariant other isOther same.symm
  -- no operation is asked for by both, so the object may take each from where it is declared
  refine ⟨apart, declared, fun methods others => ?_⟩
  refine ⟨fun operation =>
    if operation ∈ (grammar.nodeModule first).operations then methods operation
    else others operation, ?_, ?_⟩
  · intro operation isFirst
    simp only [isFirst, if_true]
  · intro operation isSecond
    have isOther : operation ∉ (grammar.nodeModule first).operations := fun isFirst =>
      declared isFirst isSecond
    simp only [isOther, if_false]

theorem moduleName_ne {text : Text} (loaded : load text = .ok grammar)
    (isFirst : first ∈ grammar.families) (isSecond : second ∈ grammar.families)
    (different : first ≠ second) : first.moduleName ≠ second.moduleName := by
  intro same
  have sound := sound_of_validate (wellFormed_of_load loaded) (load_eq_ok_iff.1 loaded).2
  exact different (List.inj_on_of_nodup_map sound.modules isFirst isSecond same)

/-- **When two families have separate operations.**  In a grammar that has been loaded, two
different families have separate operations just if neither of them shares words with the other:
their modules may be named one by words in front of the other's name, but then no variant may
be named by these words behind the other's variant. -/
theorem separateOperations_iff {text : Text} (loaded : load text = .ok grammar)
    (isFirst : first ∈ grammar.families) (isSecond : second ∈ grammar.families)
    (different : first ≠ second) :
    grammar.SeparateOperations first second ↔
      ¬ SharesWords first second ∧ ¬ SharesWords second first := by
  have modules := moduleName_ne loaded isFirst isSecond different
  rw [separateOperations_iff_variants]
  constructor
  · intro apart
    constructor
    · rintro ⟨words, longer, variant, isVariant, other, isOther, named⟩
      apply apart variant isVariant other isOther
      exact (operationName_eq_iff modules).2 (.inl ⟨words, longer, named⟩)
    · rintro ⟨words, longer, other, isOther, variant, isVariant, named⟩
      apply apart variant isVariant other isOther
      exact (operationName_eq_iff modules).2 (.inr ⟨words, longer, named⟩)
  · rintro ⟨unshared, otherUnshared⟩ variant isVariant other isOther same
    rcases (operationName_eq_iff modules).1 same with
      ⟨words, longer, named⟩ | ⟨words, longer, named⟩
    · exact unshared ⟨words, longer, variant, isVariant, other, isOther, named⟩
    · exact otherUnshared ⟨words, longer, other, isOther, variant, isVariant, named⟩

/-- A family, and one that is named by a word more. -/
def exprFamily : Family :=
  ⟨"Expr", [⟨"OldTry", []⟩]⟩

def tryFamily : Family :=
  ⟨"TryExpr", [⟨"Old", []⟩]⟩

theorem joined_words_share_operation :
    load "Expr \x7b OldTry: \x7d\nTryExpr \x7b Old: \x7d" = .ok ⟨[exprFamily, tryFamily], []⟩ ∧
      exprFamily ≠ tryFamily ∧
      ¬ SeparateOperations ⟨[exprFamily, tryFamily], []⟩ exprFamily tryFamily := by
  refine ⟨by decide +kernel, by decide, fun separate => ?_⟩
  have same : exprFamily.operationName ⟨"OldTry", []⟩ = tryFamily.operationName ⟨"Old", []⟩ := by
    decide +kernel
  exact separate.variants ⟨"OldTry", []⟩ (by decide) ⟨"Old", []⟩ (by decide) same

/-- A family that has the variants of `tryFamily`. -/
def plainFamily : Family :=
  ⟨"Expr", [⟨"Old", []⟩, ⟨"Try", []⟩]⟩

/-- The module of the one family is named by a word in front of the other's name, but no variant is
named by this word behind another. -/
theorem parted_words_separateOperations :
    SeparateOperations ⟨[plainFamily, tryFamily], []⟩ plainFamily tryFamily := by
  have loaded : load "Expr \x7b Old: ; Try: \x7d\nTryExpr \x7b Old: \x7d" =
      .ok ⟨[plainFamily, tryFamily], []⟩ := by decide +kernel
  have plainModule : plainFamily.moduleName = "expr".toList := by decide +kernel
  have tryModule : tryFamily.moduleName = "try_expr".toList := by decide +kernel
  have short : ∀ variant ∈ plainFamily.variants, (Text.snakeCase variant.name).length = 3 := by
    decide +kernel
  have old : ∀ other ∈ tryFamily.variants, (Text.snakeCase other.name).length = 3 := by
    decide +kernel
  refine (separateOperations_iff loaded (by decide) (by decide) (by decide)).2 ⟨?_, ?_⟩
  · rintro ⟨words, -, variant, isVariant, other, isOther, named⟩
    have lengths := congrArg List.length named
    rw [List.length_append, List.length_cons, short variant isVariant, old other isOther] at lengths
    omega
  · rintro ⟨words, longer, -⟩
    have lengths := congrArg List.length longer
    rw [plainModule, tryModule, List.length_append] at lengths
    simp at lengths

end Families

end Grammar

end TreeGrammar
