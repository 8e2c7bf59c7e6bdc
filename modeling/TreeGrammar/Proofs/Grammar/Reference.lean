/-
# TreeGrammar.Proofs.Grammar.Reference -- what a reference means, and what is imported for it

The imports of a family are found from the names in its field types: another family is
listed if one of them speaks of it, and of its names those that are spoken of
(`mem_familyImports_iff`).
-/
import Mathlib.Data.List.Nodup
import TreeGrammar.Grammar.Reference

set_option autoImplicit false

namespace TreeGrammar

/-! ## Families found by their names -/

namespace Grammar

variable {grammar : Grammar} {family other target : Family} {name reference : Text}

theorem family?_eq_some (found : grammar.family? name = some family) :
    family ∈ grammar.families ∧ family.name = name :=
  ⟨List.mem_of_find?_eq_some found, by simpa using List.find?_some found⟩

theorem family?_eq_none_iff : grammar.family? name = none ↔ name ∉ grammar.familyNames := by
  rw [family?, List.find?_eq_none, familyNames, List.mem_map]
  simp

theorem variant?_isSome_iff :
    (family.variant? name).isSome = true ↔ name ∈ family.variantNames := by
  rw [Family.variant?, List.find?_isSome, Family.variantNames, List.mem_map]
  simp

/-! ## Imports -/

/-- What is wanted of another family is wanted because of a name that speaks of it. -/
theorem mem_wantedNames_iff {wanted : Text × Text} :
    wanted ∈ grammar.wantedNames family ↔
      ∃ reference ∈ family.referredNames, TypeRef.isScalar reference = false ∧
        ∃ target, grammar.target? reference = some target ∧ target.name ≠ family.name ∧
          wanted = (target.name, TypeRef.localName reference) := by
  rw [wantedNames, List.mem_filterMap]
  refine exists_congr fun reference => and_congr_right fun _ => ?_
  cases TypeRef.isScalar reference with
  | true => simp
  | false =>
      cases grammar.target? reference with
      | none => simp
      | some target =>
          by_cases own : target.name = family.name
          · simp [own]
          · simp [own, @eq_comm _ wanted]

/-- **Which families are imported, and which of their names.** -/
theorem mem_familyImports_iff {entry : Family × List Text} :
    entry ∈ grammar.familyImports family ↔
      entry.1 ∈ grammar.families ∧
        entry.1.name ∈ (grammar.wantedNames family).map Prod.fst ∧
        entry.2 = (entry.1.name :: entry.1.variantNames).filter fun name =>
          (entry.1.name, name) ∈ grammar.wantedNames family := by
  rw [familyImports, List.mem_filterMap]
  constructor
  · rintro ⟨found, isFamily, listed⟩
    split at listed
    · next wanted =>
      obtain rfl := Option.some.inj listed
      exact ⟨isFamily, wanted, rfl⟩
    · exact absurd listed (by simp)
  · rintro ⟨isFamily, wanted, listed⟩
    refine ⟨entry.1, isFamily, ?_⟩
    rw [if_pos wanted]
    exact congrArg some (Prod.ext rfl listed.symm)

/-- An imported name is the name of another family or of one of its variants. -/
theorem imported_declared {entry : Family × List Text}
    (imported : entry ∈ grammar.familyImports family) (listed : name ∈ entry.2) :
    name = entry.1.name ∨ name ∈ entry.1.variantNames := by
  rw [(mem_familyImports_iff.1 imported).2.2] at listed
  exact List.mem_cons.1 (List.mem_filter.1 listed).1

theorem imported_other {entry : Family × List Text}
    (imported : entry ∈ grammar.familyImports family) :
    entry.1 ∈ grammar.families ∧ entry.1.name ≠ family.name := by
  obtain ⟨isFamily, wanted, -⟩ := mem_familyImports_iff.1 imported
  obtain ⟨pair, isWanted, same⟩ := List.mem_map.1 wanted
  obtain ⟨reference, -, -, target, -, different, rfl⟩ := mem_wantedNames_iff.1 isWanted
  exact ⟨isFamily, same ▸ different⟩

end Grammar

end TreeGrammar
