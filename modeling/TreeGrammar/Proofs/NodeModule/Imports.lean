/-
# TreeGrammar.Proofs.NodeModule.Imports -- which names a family imports from others

The imports of a family are collected in two passes: one along its field types gathers
what is wanted of other families, the other along the families picks it out in order.
What comes of the two is exact (`exactImports_of_distinct`): another family is listed if
and only if a name inside a field type speaks of it, of its names those that are spoken
of, and families and names stand in the order of the grammar, none of them twice.
-/
import TreeGrammar.Proofs.NodeModule.Dependence

set_option autoImplicit false

namespace TreeGrammar

/-! ## Names inside types -/

/-- The name stands inside the type, at any depth. -/
inductive TypeRef.Mentions (name : Text) : TypeRef → Prop
  | named : Mentions name (.named name)
  | sequence {element : TypeRef} (inside : Mentions name element) :
      Mentions name (.sequence element)
  | optional {inner : TypeRef} (inside : Mentions name inner) : Mentions name (.optional inner)

/-- Exactly one name stands inside a type. -/
theorem TypeRef.mentions_iff {type : TypeRef} {name : Text} :
    type.Mentions name ↔ type.name = name := by
  constructor
  · intro mentions
    induction mentions with
    | named => rfl
    | sequence inside ih => exact ih
    | optional inside ih => exact ih
  · rintro rfl
    induction type with
    | named name => exact .named
    | sequence element ih => exact .sequence ih
    | optional inner ih => exact .optional ih

/-- The name stands inside the type of a field of the family. -/
def Family.Mentions (family : Family) (name : Text) : Prop :=
  ∃ variant ∈ family.variants, ∃ field ∈ variant.fields, field.type.Mentions name

theorem Family.mentions_iff {family : Family} {name : Text} :
    family.Mentions name ↔ name ∈ family.referredNames := by
  simp only [Mentions, TypeRef.mentions_iff, referredNames, List.mem_flatMap, List.mem_map]

/-- The name is no scalar, and it has the family's name for its qualifier or, if it has none or an
empty one, is the family's name. -/
def SpeaksOf (family name : Text) : Prop :=
  TypeRef.isScalar name = false ∧
    (TypeRef.qualifier? name = some family ∨
      (TypeRef.qualifier? name = none ∨ TypeRef.qualifier? name = some []) ∧ name = family)

theorem speaksOf_iff {family name : Text} (named : family ≠ []) :
    SpeaksOf family name ↔ TypeRef.isScalar name = false ∧ TypeRef.spokenName name = family := by
  refine and_congr_right fun _ => ?_
  unfold TypeRef.spokenName TypeRef.properQualifier?
  split
  · next empty => simp [empty, named.symm]
  · next other =>
      cases qualified : TypeRef.qualifier? name with
      | none => simp
      | some qualifier =>
          have proper : qualifier ≠ [] := fun same => other (same ▸ qualified)
          simp [proper]

/-! ## Exact imports -/

/-- The imports of a family that mentions the given names: which of the families are listed, which
of their names, and in which order. -/
structure ExactImports (families : List Family) (own : Text) (Mentioned : Text → Prop)
    (imports : List (Family × List Text)) : Prop where
  /-- Another family is listed if and only if a name that is mentioned speaks of it. -/
  listed : ∀ other ∈ families, other.name ≠ own →
    (other ∈ imports.map Prod.fst ↔
      ∃ reference, Mentioned reference ∧ SpeaksOf other.name reference)
  /-- Nothing but other families is listed. -/
  others : ∀ other ∈ imports.map Prod.fst, other ∈ families ∧ other.name ≠ own
  /-- Of a family that is listed those names are that are its own or a variant's and the local part
  of a name that speaks of it. -/
  names : ∀ entry ∈ imports, ∀ name, name ∈ entry.2 ↔
    (name = entry.1.name ∨ name ∈ entry.1.variantNames) ∧
      ∃ reference, Mentioned reference ∧ SpeaksOf entry.1.name reference ∧
        TypeRef.localName reference = name
  /-- The families stand in their order, none of them twice. -/
  order : (imports.map Prod.fst).Sublist families
  once : (imports.map Prod.fst).Nodup
  /-- The names of each stand in their order, its own name first, none of them twice. -/
  nameOrder : ∀ entry ∈ imports, entry.2.Sublist (entry.1.name :: entry.1.variantNames)
  nameOnce : ∀ entry ∈ imports, entry.2.Nodup

namespace Grammar

variable {grammar : Grammar} {family : Family}

theorem mem_wantedNames_iff_spoken {owner name : Text} :
    (owner, name) ∈ grammar.wantedNames family ↔
      (owner ∈ grammar.familyNames ∧ owner ≠ family.name) ∧
        ∃ reference ∈ family.referredNames, TypeRef.isScalar reference = false ∧
          TypeRef.spokenName reference = owner ∧ TypeRef.localName reference = name := by
  simp only [wantedNames_eq, List.mem_filterMap, Option.ite_none_right_eq_some, Option.some.injEq,
    Prod.mk.injEq]
  constructor
  · rintro ⟨reference, referred, ⟨unscalar, other, declared⟩, rfl, rfl⟩
    exact ⟨⟨declared, other⟩, reference, referred, unscalar, rfl, rfl⟩
  · rintro ⟨⟨declared, other⟩, reference, referred, unscalar, rfl, rfl⟩
    exact ⟨reference, referred, ⟨unscalar, other, declared⟩, rfl, rfl⟩

/-- **The imports of a family are exact** where families have different names, none of them empty,
and no family has a name twice among its own and its variants'. -/
theorem exactImports_of_distinct {Mentioned : Text → Prop}
    (mentioned : ∀ name, Mentioned name ↔ name ∈ family.referredNames)
    (named : [] ∉ grammar.familyNames) (distinct : grammar.familyNames.Nodup)
    (apart : ∀ other ∈ grammar.families, (other.name :: other.variantNames).Nodup) :
    ExactImports grammar.families family.name Mentioned (grammar.familyImports family) := by
  have firsts : (grammar.familyImports family).map Prod.fst = grammar.wantedFamilies family := by
    rw [familyImports_eq, List.map_map]
    exact List.map_id _
  have isNamed : ∀ other ∈ grammar.families, other.name ∈ grammar.familyNames ∧ other.name ≠ [] :=
    fun other member =>
      have declared : other.name ∈ grammar.familyNames := List.mem_map_of_mem member
      ⟨declared, fun same => named (same ▸ declared)⟩
  -- a name is wanted of another family just if it is the local part of a name that speaks of it
  have wanted : ∀ other ∈ grammar.families, ∀ name,
      (other.name, name) ∈ grammar.wantedNames family ↔ other.name ≠ family.name ∧
        ∃ reference, Mentioned reference ∧ SpeaksOf other.name reference ∧
          TypeRef.localName reference = name := by
    intro other member name
    obtain ⟨declared, isName⟩ := isNamed other member
    simp only [mem_wantedNames_iff_spoken, mentioned, speaksOf_iff isName, declared, true_and,
      and_assoc]
  have listed_iff : ∀ other, other ∈ grammar.wantedFamilies family ↔
      other ∈ grammar.families ∧ other.name ≠ family.name ∧
        ∃ reference, Mentioned reference ∧ SpeaksOf other.name reference := by
    intro other
    rw [wantedFamilies, List.mem_filter, decide_eq_true_eq]
    refine and_congr_right fun member => ?_
    constructor
    · intro asked
      obtain ⟨⟨owner, name⟩, isWanted, rfl⟩ := List.mem_map.1 asked
      obtain ⟨different, reference, isMentioned, speaks, -⟩ := (wanted other member name).1 isWanted
      exact ⟨different, reference, isMentioned, speaks⟩
    · rintro ⟨different, reference, isMentioned, speaks⟩
      exact List.mem_map_of_mem
        ((wanted other member _).2 ⟨different, reference, isMentioned, speaks, rfl⟩)
  have entries : ∀ entry ∈ grammar.familyImports family,
      entry.1 ∈ grammar.families ∧ entry.1.name ≠ family.name ∧
        entry.2 = (entry.1.name :: entry.1.variantNames).filter fun name =>
          (entry.1.name, name) ∈ grammar.wantedNames family := fun entry member =>
    ⟨(imported_other member).1, (imported_other member).2, (mem_familyImports_iff.1 member).2.2⟩
  constructor
  · intro other member different
    rw [firsts, listed_iff]
    simp only [member, different, ne_eq, not_false_eq_true, true_and]
  · intro other isListed
    rw [firsts, listed_iff] at isListed
    exact ⟨isListed.1, isListed.2.1⟩
  · intro entry isEntry name
    obtain ⟨member, different, whole⟩ := entries entry isEntry
    rw [whole, List.mem_filter, decide_eq_true_eq, wanted entry.1 member name, List.mem_cons]
    simp only [different, ne_eq, not_false_eq_true, true_and]
  · rw [firsts]
    exact List.filter_sublist
  · rw [firsts]
    exact (List.Nodup.of_map _ distinct).filter _
  · intro entry isEntry
    rw [(entries entry isEntry).2.2]
    exact List.filter_sublist
  · intro entry isEntry
    rw [(entries entry isEntry).2.2]
    exact (apart entry.1 (entries entry isEntry).1).filter _

theorem familyNames_nodup_of_validate (valid : grammar.validate = .ok ())
    (named : [] ∉ grammar.familyNames) : grammar.familyNames.Nodup :=
  familyNames_nodup (nodup_moduleNames_of_validate valid fun _ member nameless =>
    named (nameless ▸ List.mem_map_of_mem member))

/-- A family and its variants have different names. -/
theorem Admits.nodup_names (admits : grammar.Admits family) (member : family ∈ grammar.families) :
    (family.name :: family.variantNames).Nodup :=
  List.nodup_cons.2 ⟨fun isVariant =>
    (admits.variant_free isVariant).2.2.1 (List.mem_map_of_mem member), admits.distinct⟩

end Grammar

end TreeGrammar
