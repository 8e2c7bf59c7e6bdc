/-
# TreeGrammar.Proofs.NodeModule.Unresolved -- names that a grammar does not know

A reference that does not resolve shall be inert: its name is annotated as it stands, it
leads to no import, and every import that there is lists a name.  Annotating and importing
look at the family in front of the point only, so a name behind a declared family that has
no such variant loses its qualifier and makes an import of nothing.  There is no other
reference that is not inert (`inert_iff`).
-/
import TreeGrammar.Proofs.NodeModule.Annotations

set_option autoImplicit false

namespace TreeGrammar

/-! ## A family without one of its fields -/

/-- The family of a reference without the field that refers. -/
def Reference.familyWithout (reference : Reference) : Family where
  name := reference.family.name
  variants := reference.family.variants.map fun variant =>
    if variant = reference.variant then
      { variant with fields := variant.fields.erase reference.field }
    else variant

theorem Family.mem_referredNames_iff {family : Family} {name : Text} :
    name ∈ family.referredNames ↔
      ∃ variant ∈ family.variants, ∃ field ∈ variant.fields, field.type.name = name := by
  simp only [referredNames, List.mem_flatMap, List.mem_map]

/-- A name that the field does not refer to is referred to by another one. -/
theorem Reference.mem_referredNames_without {reference : Reference} {name : Text}
    (other : name ≠ reference.name) :
    name ∈ reference.familyWithout.referredNames ↔ name ∈ reference.family.referredNames := by
  rw [Family.mem_referredNames_iff, Family.mem_referredNames_iff]
  constructor
  · rintro ⟨kept, isKept, field, isField, named⟩
    obtain ⟨variant, isVariant, rfl⟩ := List.mem_map.1 isKept
    refine ⟨variant, isVariant, field, ?_, named⟩
    split at isField
    · exact List.mem_of_mem_erase isField
    · exact isField
  · rintro ⟨variant, isVariant, field, isField, named⟩
    refine ⟨_, List.mem_map_of_mem isVariant, field, ?_, named⟩
    split
    · refine (List.mem_erase_of_ne ?_).2 isField
      rintro rfl
      exact other named.symm
    · exact isField

namespace Grammar

variable {grammar : Grammar} {family : Family} {reference : Reference} {name : Text}

theorem mem_unresolved_iff :
    reference ∈ grammar.unresolved ↔
      (reference.family ∈ grammar.families ∧ reference.variant ∈ reference.family.variants ∧
        reference.field ∈ reference.variant.fields) ∧ grammar.resolves reference.name = false := by
  obtain ⟨family, variant, field⟩ := reference
  simp only [unresolved, references, List.mem_filter, List.mem_flatMap, List.mem_map,
    Reference.mk.injEq, Bool.not_eq_true']
  refine and_congr_left fun _ => ⟨?_, ?_⟩
  · rintro ⟨_, isFamily, _, isVariant, _, isField, rfl, rfl, rfl⟩
    exact ⟨isFamily, isVariant, isField⟩
  · rintro ⟨isFamily, isVariant, isField⟩
    exact ⟨family, isFamily, variant, isVariant, field, isField, rfl, rfl, rfl⟩

/-- What is imported depends on the names that are wanted, not on how often they are. -/
theorem familyImports_congr {other : Family}
    (same : ∀ wanted, wanted ∈ grammar.wantedNames family ↔ wanted ∈ grammar.wantedNames other) :
    grammar.familyImports family = grammar.familyImports other := by
  have keys : ∀ name, name ∈ (grammar.wantedNames family).map Prod.fst ↔
      name ∈ (grammar.wantedNames other).map Prod.fst := fun name => by
    simp only [List.mem_map, same]
  simp only [familyImports, keys, same]

/-! ## Inert references -/

/-- A reference that only shows in its annotation. -/
structure Inert (grammar : Grammar) (reference : Reference) : Prop where
  /-- Within the wrappers the annotation is the name as it stands. -/
  verbatim : bare (reference.field.type.hint grammar.familyNames) = reference.name
  /-- The imports are those of the family without the field. -/
  imports : grammar.familyImports reference.family = grammar.familyImports reference.familyWithout
  /-- Every import from another family's module lists a name. -/
  listed : ∀ line ∈ (grammar.nodeModule reference.family).relatives, line.names ≠ []

section Unknown

variable (named : TypeRef.IsTypeName name) (unknown : grammar.resolves name = false)

include unknown

theorem scalarHint?_of_unknown : TypeRef.scalarHint? name = none := by
  cases scalar : TypeRef.scalarHint? name with
  | none => rfl
  | some hint => simp [resolves, TypeRef.isScalar, scalar] at unknown

include named

/-- An unknown name speaks of a family only if it has the family's name in front of a point. -/
theorem target?_eq_none_iff :
    grammar.target? name = none ↔
      ∀ other ∈ grammar.familyNames, TypeRef.qualifier? name ≠ some other := by
  rcases named with isWord | ⟨first, second, isFirst, isSecond, rfl⟩
  · rw [target?, TypeRef.properQualifier?_word isWord, TypeRef.qualifier?_word isWord]
    refine iff_of_true ?_ (by simp)
    simp only [resolves, TypeRef.qualifier?_word isWord] at unknown
    split at unknown
    · exact absurd unknown (by simp)
    · simpa using unknown
  · rw [target?, TypeRef.properQualifier?_pointed isFirst, TypeRef.qualifier?_pointed isFirst,
      Option.getD_some, family?_eq_none_iff]
    constructor
    · rintro absent other isFamily same
      exact absent (Option.some.inj same ▸ isFamily)
    · exact fun apart isFamily => apart first isFamily rfl

/-- An unknown name is annotated as it stands only if it speaks of no family. -/
theorem nameHint_eq_self_iff :
    nameHint grammar.familyNames name = name ↔
      ∀ other ∈ grammar.familyNames, TypeRef.qualifier? name ≠ some other := by
  rw [nameHint, scalarHint?_of_unknown unknown]
  rcases named with isWord | ⟨first, second, isFirst, isSecond, rfl⟩
  · rw [TypeRef.properQualifier?_word isWord, TypeRef.qualifier?_word isWord]
    exact iff_of_true rfl (by simp)
  · rw [TypeRef.properQualifier?_pointed isFirst, TypeRef.qualifier?_pointed isFirst]
    by_cases isFamily : first ∈ grammar.familyNames
    · refine iff_of_false (fun same => ?_) (fun apart => apart first isFamily rfl)
      -- the qualifier is lost, so the annotation is shorter
      have lengths := congrArg List.length same
      simp [isFamily, TypeRef.localName_pointed isSecond] at lengths
      omega
    · refine iff_of_true (by simp [isFamily]) ?_
      rintro other isOther same
      exact isFamily (Option.some.inj same ▸ isOther)

end Unknown

/-- A reference that speaks of no family adds nothing to the imports. -/
theorem imports_of_target?_eq_none (nowhere : grammar.target? reference.name = none) :
    grammar.familyImports reference.family =
      grammar.familyImports reference.familyWithout := by
  refine familyImports_congr fun wanted => ?_
  rw [mem_wantedNames_iff, mem_wantedNames_iff]
  refine exists_congr fun name => ?_
  by_cases same : name = reference.name
  · rw [same, nowhere]
    simp
  · rw [Reference.mem_referredNames_without same]
    rfl

/-- **Imports of something.**  If no unknown name speaks of a family, each family that is imported
is imported for a name that it declares. -/
theorem imports_listed (sound : grammar.Sound) (member : family ∈ grammar.families)
    (apart : ∀ name ∈ family.referredNames, grammar.resolves name = false →
      grammar.target? name = none) {entry : Family × List Text}
    (imported : entry ∈ grammar.familyImports family) : entry.2 ≠ [] := by
  obtain ⟨isFamily, wanted, listed⟩ := mem_familyImports_iff.1 imported
  obtain ⟨pair, isWanted, same⟩ := List.mem_map.1 wanted
  obtain ⟨name, referred, unscalar, target, found, -, rfl⟩ := mem_wantedNames_iff.1 isWanted
  obtain rfl : target = entry.1 :=
    family_eq_of_name (familyNames_nodup sound.modules) isFamily (family?_eq_some found).1 same
  have resolved : grammar.resolves name = true := by
    cases known : grammar.resolves name with
    | true => rfl
    | false => exact absurd ((apart name referred known).symm.trans found) (by simp)
  have named : TypeRef.IsTypeName name := by
    obtain ⟨variant, isVariant, field, isField, rfl⟩ := Family.mem_referredNames_iff.1 referred
    exact (((sound.wellFormed.families family member).variants variant isVariant).fields field
      isField).type
  have unused : name ∉ grammar.usedNames := by
    -- a used name has no point, and no family has its name
    intro used
    have unpointed := used_unpointed sound.wellFormed used
    have unqualified : TypeRef.properQualifier? name = none := by
      rw [TypeRef.properQualifier?, TypeRef.qualifier?, Text.cut_of_not_mem unpointed]
      rfl
    rw [target?, unqualified, Option.getD_none] at found
    obtain ⟨-, rfl⟩ := family?_eq_some found
    exact sound.unused entry.1 isFamily _ List.mem_cons_self used
  have unhinted : TypeRef.scalarHint? name = none := by
    simpa [TypeRef.isScalar] using unscalar
  obtain ⟨other, foundToo, means, -⟩ := means_of_resolves named unhinted unused resolved
  obtain rfl : other = entry.1 := Option.some.inj (foundToo.symm.trans found)
  rw [listed]
  exact List.ne_nil_of_mem (List.mem_filter.2 ⟨means.declared, decide_eq_true isWanted⟩)

/-- **When unresolved references are inert.**  In a grammar that has been loaded, the references of
a family that do not resolve are inert just if none of them has the name of a declared family in
front of its point. -/
theorem inert_iff {text : Text} (loaded : load text = .ok grammar)
    (member : family ∈ grammar.families) :
    (∀ reference ∈ grammar.unresolved, reference.family = family → grammar.Inert reference) ↔
      ∀ reference ∈ grammar.unresolved, reference.family = family →
        ∀ other ∈ grammar.familyNames, TypeRef.qualifier? reference.name ≠ some other := by
  have sound := sound_of_load loaded
  have named : ∀ reference ∈ grammar.unresolved, TypeRef.IsTypeName reference.name := by
    intro reference unresolved
    obtain ⟨⟨isFamily, isVariant, isField⟩, -⟩ := mem_unresolved_iff.1 unresolved
    exact (((sound.wellFormed.families _ isFamily).variants _ isVariant).fields _ isField).type
  have verbatim : ∀ reference ∈ grammar.unresolved,
      bare (reference.field.type.hint grammar.familyNames) = reference.name ↔
        ∀ other ∈ grammar.familyNames, TypeRef.qualifier? reference.name ≠ some other := by
    intro reference unresolved
    have isName := named reference unresolved
    rw [bare_hint isName]
    exact nameHint_eq_self_iff isName (mem_unresolved_iff.1 unresolved).2
  constructor
  · intro inert reference unresolved own
    exact (verbatim reference unresolved).1 (inert reference unresolved own).verbatim
  · intro apart
    have nowhere : ∀ reference ∈ grammar.unresolved, reference.family = family →
        grammar.target? reference.name = none := fun reference unresolved own =>
      (target?_eq_none_iff (named reference unresolved) (mem_unresolved_iff.1 unresolved).2).2
        (apart reference unresolved own)
    intro reference unresolved own
    refine ⟨(verbatim reference unresolved).2 (apart reference unresolved own),
      imports_of_target?_eq_none (nowhere reference unresolved own), ?_⟩
    intro line isLine
    obtain ⟨entry, imported, rfl⟩ := List.mem_map.1 isLine
    rw [own] at imported
    refine imports_listed sound member (fun name referred unknown => ?_) imported
    obtain ⟨variant, isVariant, field, isField, rfl⟩ := Family.mem_referredNames_iff.1 referred
    exact nowhere ⟨family, variant, field⟩
      (mem_unresolved_iff.2 ⟨⟨member, isVariant, isField⟩, unknown⟩) rfl

/-- A family that refers to a variant which the other family does not have. -/
def strayFamily : Family :=
  ⟨['E'], [⟨['A'], [⟨['x'], .named "G.X"⟩]⟩]⟩

def strayGrammar : Grammar :=
  ⟨[strayFamily, ⟨['G'], [⟨['B'], []⟩]⟩], []⟩

/-- The qualifier is lost, and the module of the other family is imported for no name. -/
theorem stray_reference_not_inert :
    load "E \x7b A: G.X x \x7d\nG \x7b B: \x7d" = .ok strayGrammar ∧
      strayGrammar.unresolved.map Reference.name = ["G.X"] ∧
      (strayGrammar.nodeModule strayFamily).classes.map NodeClass.fields = [[(['x'], ['X'])]] ∧
      (strayGrammar.nodeModule strayFamily).relatives.map Import.names = [[]] ∧
      ∀ reference ∈ strayGrammar.unresolved, ¬ strayGrammar.Inert reference := by
  refine ⟨by decide +kernel, by decide +kernel, by decide +kernel, by decide +kernel, ?_⟩
  intro reference unresolved inert
  have own : reference.family = strayFamily := by
    have each : ∀ reference ∈ strayGrammar.unresolved, reference.family = strayFamily := by
      decide +kernel
    exact each reference unresolved
  have empty : ∃ line ∈ (strayGrammar.nodeModule strayFamily).relatives, line.names = [] := by
    decide +kernel
  obtain ⟨line, isLine, names⟩ := empty
  exact inert.listed line (own ▸ isLine) names

/-- A family that refers to an unknown name, to a name behind an unknown family and to a variant of
another family without that family's name, beside references that resolve. -/
def opaqueFamily : Family :=
  ⟨['E'], [⟨['A'], [⟨['t'], .named ['T']⟩, ⟨['h'], .sequence (.named "H.X")⟩,
    ⟨['b'], .optional (.named ['B'])⟩, ⟨['g'], .named "G.B"⟩, ⟨['s'], .named "String"⟩]⟩]⟩

def opaqueGrammar : Grammar :=
  ⟨[opaqueFamily, ⟨['G'], [⟨['B'], []⟩]⟩], []⟩

def opaqueText : Text :=
  "E \x7b A: T t, List<H.X> h, B? b, G.B g, String s \x7d\nG \x7b B: \x7d"

theorem opaque_references_inert :
    load opaqueText = .ok opaqueGrammar ∧ opaqueFamily ∈ opaqueGrammar.families ∧
      opaqueGrammar.unresolved.map Reference.name = ["T", "H.X", "B"] ∧
      ∀ reference ∈ opaqueGrammar.unresolved, reference.family = opaqueFamily →
        opaqueGrammar.Inert reference := by
  have loaded : load opaqueText = .ok opaqueGrammar := by decide +kernel
  have member : opaqueFamily ∈ opaqueGrammar.families := List.mem_cons_self
  have apart : ∀ reference ∈ opaqueGrammar.unresolved, reference.family = opaqueFamily →
      ∀ other ∈ opaqueGrammar.familyNames, TypeRef.qualifier? reference.name ≠ some other := by
    decide +kernel
  exact ⟨loaded, member, by decide +kernel, (inert_iff loaded member).2 apart⟩

end Grammar

end TreeGrammar
