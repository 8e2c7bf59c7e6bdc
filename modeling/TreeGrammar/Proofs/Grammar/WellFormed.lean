/-
# TreeGrammar.Proofs.Grammar.WellFormed -- what holds of every grammar that is loaded

The names, fields and types of a well-formed grammar are such that they can be written
down.  Each reader only answers with well-formed parts, so a loaded grammar is
well-formed (`wellFormed_of_load`).
-/
import TreeGrammar.Proofs.Grammar.Loading
import TreeGrammar.Proofs.TypeRef.Spelling

set_option autoImplicit false

namespace TreeGrammar

open Grammar

/-! ## The parts of a grammar -/

structure Field.WellFormed (field : Field) : Prop where
  name : IsName field.name
  free : field.name ∉ reservedFields
  type : TypeRef.IsTypeName field.type.name

structure Variant.WellFormed (variant : Variant) : Prop where
  name : IsName variant.name
  fields : ∀ field ∈ variant.fields, field.WellFormed
  distinct : variant.fieldNames.Nodup

structure Family.WellFormed (family : Family) : Prop where
  name : IsName family.name
  variants : ∀ variant ∈ family.variants, variant.WellFormed
  inhabited : family.variants ≠ []

structure Use.WellFormed (use : Use) : Prop where
  path : ∀ part ∈ Text.split '.' use.path, Text.isIdentifier part = true
  names : ∀ name ∈ use.names, IsName name
  inhabited : use.names ≠ []

structure Grammar.WellFormed (grammar : Grammar) : Prop where
  uses : ∀ use ∈ grammar.uses, use.WellFormed
  families : ∀ family ∈ grammar.families, family.WellFormed

theorem Family.WellFormed.isName_of_variant {family : Family} {name : Text}
    (wellFormed : family.WellFormed) (isVariant : name ∈ family.variantNames) : IsName name := by
  obtain ⟨variant, member, rfl⟩ := List.mem_map.1 isVariant
  exact (wellFormed.variants variant member).name

/-! ## What is read is well-formed -/

section Lines

variable {line source : Text} {number : LineNumber}

theorem Field.wellFormed_of_parse {variant : Text} {before : List Field} {entry : Text}
    {field : Field} (parsed : Field.parse variant before source number entry = .ok field) :
    field.WellFormed ∧ field.name ∉ before.map Field.name := by
  obtain ⟨type, -, named, free, new, read⟩ := Field.parse_eq_ok_iff.1 parsed
  exact ⟨⟨named, free, TypeRef.isTypeName_of_parse read⟩, new⟩

theorem Field.wellFormed_of_parseAll {variant : Text} {before fields : List Field}
    {entries : List Text} (wellFormed : ∀ field ∈ before, field.WellFormed)
    (distinct : (before.map Field.name).Nodup)
    (parsed : Field.parseAll variant source number before entries = .ok fields) :
    (∀ field ∈ fields, field.WellFormed) ∧ (fields.map Field.name).Nodup := by
  induction entries generalizing before with
  | nil =>
      obtain rfl := Except.ok.inj parsed
      exact ⟨wellFormed, distinct⟩
  | cons entry rest ih =>
      rw [Field.parseAll, bind_eq_ok_iff] at parsed
      obtain ⟨field, first, others⟩ := parsed
      obtain ⟨fieldWellFormed, new⟩ := Field.wellFormed_of_parse first
      refine ih ?_ ?_ others
      · intro other member
        rcases List.mem_append.1 member with old | added
        · exact wellFormed other old
        · rwa [List.mem_singleton.1 added]
      · rw [List.map_append, List.map_singleton]
        exact List.nodup_append.2 ⟨distinct, by simp, by simpa using new⟩

theorem Variant.wellFormed_of_parse {variant : Variant}
    (parsed : Variant.parse line number source = .ok variant) : variant.WellFormed := by
  obtain ⟨before, after, -, -, named, fields⟩ := Variant.parse_eq_ok_iff.1 parsed
  have none : ∀ field ∈ ([] : List Field), field.WellFormed := by simp
  obtain ⟨each, distinct⟩ := Field.wellFormed_of_parseAll none List.nodup_nil fields
  exact ⟨named, each, distinct⟩

theorem Use.wellFormed_of_parse {use : Use} (parsed : Use.parse line number = .ok use) :
    use.WellFormed := by
  obtain ⟨before, after, -, -, -, parts, inhabited, named⟩ := Use.parse_eq_ok_iff.1 parsed
  exact ⟨List.all_eq_true.1 parts, named, inhabited⟩

end Lines

namespace Grammar

/-- The header of an open family has been read, and all its variants so far are well-formed. -/
structure OpenFamily.WellFormed (family : OpenFamily) : Prop where
  name : IsName family.name
  variants : ∀ variant ∈ family.variants, variant.WellFormed

structure Progress.WellFormed (progress : Progress) : Prop where
  uses : ∀ use ∈ progress.uses, use.WellFormed
  families : ∀ family ∈ progress.families, family.WellFormed
  current : ∀ family ∈ progress.current, family.WellFormed

variable {progress next : Progress} {raw line : Text} {number : Nat}

theorem wellFormed_of_parseVariants {parts : List Text} {variants : List Variant}
    (parsed : parseVariants raw number parts = .ok variants) :
    ∀ variant ∈ variants, variant.WellFormed := by
  intro variant member
  obtain ⟨part, -, read⟩ := exists_of_forall₂ (parseVariants_eq_ok_iff.1 parsed) member
  exact Variant.wellFormed_of_parse read

theorem readBody_wellFormed {family : OpenFamily} (wellFormed : progress.WellFormed)
    (familyWellFormed : family.WellFormed)
    (read : readBody progress family raw number line = .ok next) : next.WellFormed := by
  obtain ⟨-, variants, parsed, step⟩ := readBody_eq_ok_iff.1 read
  have all : ∀ variant ∈ family.variants ++ variants, variant.WellFormed := by
    intro variant member
    rcases List.mem_append.1 member with old | added
    · exact familyWellFormed.variants variant old
    · exact wellFormed_of_parseVariants parsed variant added
  rcases step with unclosed | ⟨closing, inhabited⟩
  · refine ⟨wellFormed.uses, wellFormed.families, ?_⟩
    rintro _ ⟨⟩
    exact ⟨familyWellFormed.name, all⟩
  · refine ⟨wellFormed.uses, ?_, (by simp)⟩
    intro other member
    rcases List.mem_append.1 member with old | added
    · exact wellFormed.families other old
    · rw [List.mem_singleton.1 added]
      exact ⟨familyWellFormed.name, all, inhabited⟩

theorem lineStep_wellFormed (wellFormed : progress.WellFormed)
    (step : LineStep progress raw number next) : next.WellFormed := by
  rcases step with empty | ⟨-, opened, read⟩ | ⟨-, closed, -, parsed⟩ | ⟨-, closed, -, opens, read⟩
  · exact wellFormed
  · exact readBody_wellFormed wellFormed (wellFormed.current _ opened) read
  · refine ⟨?_, wellFormed.families, (by simp)⟩
    intro other member
    rcases List.mem_append.1 member with old | added
    · exact wellFormed.uses other old
    · rw [List.mem_singleton.1 added]
      exact Use.wellFormed_of_parse parsed
  · obtain ⟨before, after, -, named, rfl, rfl⟩ := readHeader_eq_ok_iff.1 opens
    have noVariants : ∀ variant ∈ ([] : List Variant), variant.WellFormed := by simp
    exact readBody_wellFormed wellFormed ⟨named, noVariants⟩ read

theorem start_wellFormed : Progress.start.WellFormed := by
  constructor <;> simp [Progress.start]

/-- **A loaded grammar is well-formed.** -/
theorem wellFormed_of_load {text : Text} {grammar : Grammar} (loaded : load text = .ok grammar) :
    grammar.WellFormed := by
  obtain ⟨read, -⟩ := load_eq_ok_iff.1 loaded
  have wellFormed := readLines_preserves lineStep_wellFormed start_wellFormed read
  exact ⟨wellFormed.uses, wellFormed.families⟩

end Grammar

end TreeGrammar
