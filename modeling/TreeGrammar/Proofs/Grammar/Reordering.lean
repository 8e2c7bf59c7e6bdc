/-
# TreeGrammar.Proofs.Grammar.Reordering -- validity does not depend on the order of declarations

Families are checked one after the other, names are looked up among all that are declared, and the
first family of a name is found.  Still it does not matter for validity in which order families,
variants, fields, uses and used names are declared (`Grammar.Reordered.valid_iff`).  Whether a
family is admitted depends only on which names there are.  That the first of two families has its
module to itself is asked only if it has a name, but if the two have one module, both have a name
or neither has.  Which fault is found first does depend on the order.
-/
import Mathlib.Data.List.Perm.Basic
import TreeGrammar.Proofs.NodeModule.Imports
import TreeGrammar.Proofs.Text.WordBreak

set_option autoImplicit false

namespace TreeGrammar

/-! ## Lists in another order -/

/-- The items of the first list stand in the second in some order, each replaced by a related one. -/
def Shuffled {α β : Type} (Related : α → β → Prop) (first : List α) (second : List β) : Prop :=
  ∃ middle, List.Forall₂ Related first middle ∧ middle.Perm second

namespace Shuffled

variable {α β γ : Type} {Related : α → β → Prop} {first : List α} {second : List β}

theorem exists_of_mem (shuffled : Shuffled Related first second) {item : α} (member : item ∈ first) :
    ∃ other ∈ second, Related item other := by
  obtain ⟨middle, related, perm⟩ := shuffled
  obtain ⟨other, isMiddle, relates⟩ := exists_of_forall₂ related.flip member
  exact ⟨other, perm.mem_iff.1 isMiddle, relates⟩

theorem symm {Back : β → α → Prop} (back : ∀ {item other}, Related item other → Back other item)
    (shuffled : Shuffled Related first second) : Shuffled Back second first := by
  obtain ⟨middle, related, perm⟩ := shuffled
  exact List.perm_comp_forall₂ perm.symm (related.flip.imp fun _ _ => back)

/-- What related items satisfy alike is satisfied by all items of both lists or not. -/
theorem forall_iff {Holds : α → Prop} {Satisfied : β → Prop}
    (shuffled : Shuffled Related first second)
    (each : ∀ {item other}, Related item other → (Holds item ↔ Satisfied other)) :
    (∀ item ∈ first, Holds item) ↔ ∀ other ∈ second, Satisfied other := by
  constructor
  · intro all other member
    have back : Shuffled (flip Related) second first := shuffled.symm fun related => related
    obtain ⟨item, isFirst, related⟩ := back.exists_of_mem member
    exact (each related).1 (all item isFirst)
  · intro all item member
    obtain ⟨other, isSecond, related⟩ := shuffled.exists_of_mem member
    exact (each related).2 (all other isSecond)

theorem exists_iff {Holds : α → Prop} {Satisfied : β → Prop}
    (shuffled : Shuffled Related first second)
    (each : ∀ {item other}, Related item other → (Holds item ↔ Satisfied other)) :
    (∃ item ∈ first, Holds item) ↔ ∃ other ∈ second, Satisfied other := by
  have none := shuffled.forall_iff fun related => not_congr (each related)
  simpa using not_congr none

/-- Related items have the same content, but for its order; so have the lists. -/
theorem flatMap_perm {content : α → List γ} {inside : β → List γ}
    (shuffled : Shuffled Related first second)
    (each : ∀ {item other}, Related item other → (content item).Perm (inside other)) :
    (first.flatMap content).Perm (second.flatMap inside) := by
  obtain ⟨middle, related, perm⟩ := shuffled
  refine List.Perm.trans ?_ (perm.flatMap_right inside)
  clear perm
  induction related with
  | nil => exact .nil
  | cons head _ ih => exact (each head).append ih

theorem map_perm {content : α → γ} {inside : β → γ} (shuffled : Shuffled Related first second)
    (each : ∀ {item other}, Related item other → content item = inside other) :
    (first.map content).Perm (second.map inside) := by
  rw [List.map_eq_flatMap, List.map_eq_flatMap]
  exact shuffled.flatMap_perm fun related => each related ▸ List.Perm.refl _

theorem map {α' β' : Type} {Alike : α' → β' → Prop} {form : α → α'} {shape : β → β'}
    (shuffled : Shuffled Related first second)
    (each : ∀ {item other}, Related item other → Alike (form item) (shape other)) :
    Shuffled Alike (first.map form) (second.map shape) := by
  obtain ⟨middle, related, perm⟩ := shuffled
  refine ⟨middle.map shape, ?_, perm.map shape⟩
  rw [List.forall₂_map_left_iff, List.forall₂_map_right_iff]
  exact related.imp fun _ _ => each

end Shuffled

/-! ## Grammars in another order -/

structure Variant.Reordered (first second : Variant) : Prop where
  name : first.name = second.name
  fields : first.fields.Perm second.fields

structure Family.Reordered (first second : Family) : Prop where
  name : first.name = second.name
  variants : Shuffled Variant.Reordered first.variants second.variants

structure Use.Reordered (first second : Use) : Prop where
  path : first.path = second.path
  names : first.names.Perm second.names

/-- The same declarations, families, variants, fields, uses and used names in whatever order. -/
structure Grammar.Reordered (first second : Grammar) : Prop where
  families : Shuffled Family.Reordered first.families second.families
  uses : Shuffled Use.Reordered first.uses second.uses

namespace Family.Reordered

variable {family other : Family} (reordered : family.Reordered other)

include reordered

theorem moduleName : family.moduleName = other.moduleName :=
  congrArg Text.snakeCase reordered.name

theorem visitorName : family.visitorName = other.visitorName := by
  rw [Family.visitorName, reordered.name, Family.visitorName]

theorem variantNames : family.variantNames.Perm other.variantNames :=
  reordered.variants.map_perm Variant.Reordered.name

theorem referredNames : family.referredNames.Perm other.referredNames :=
  reordered.variants.flatMap_perm fun related => related.fields.map _

end Family.Reordered

namespace Grammar

/-- A name is imported if it is wanted of a family that has it for its own or for a variant's. -/
theorem mem_imported_iff {grammar : Grammar} {family : Family} {name : Text} :
    name ∈ (grammar.familyImports family).flatMap Prod.snd ↔
      ∃ other ∈ grammar.families, (name = other.name ∨ name ∈ other.variantNames) ∧
        (other.name, name) ∈ grammar.wantedNames family := by
  rw [List.mem_flatMap]
  constructor
  · rintro ⟨entry, imported, listed⟩
    obtain ⟨isFamily, -, names⟩ := mem_familyImports_iff.1 imported
    rw [names, List.mem_filter, decide_eq_true_eq, List.mem_cons] at listed
    exact ⟨entry.1, isFamily, listed⟩
  · rintro ⟨other, isFamily, declared, wanted⟩
    have names : name ∈ (other.name :: other.variantNames).filter fun listed =>
        (other.name, listed) ∈ grammar.wantedNames family := by
      rw [List.mem_filter, decide_eq_true_eq, List.mem_cons]
      exact ⟨declared, wanted⟩
    have isWanted := List.mem_map_of_mem (f := Prod.fst) wanted
    exact ⟨(other, _), mem_familyImports_iff.2 ⟨isFamily, isWanted, rfl⟩, names⟩

namespace Reordered

variable {grammar reordered : Grammar} {family other : Family}

section Names

variable (same : grammar.Reordered reordered)

include same

theorem familyNames : grammar.familyNames.Perm reordered.familyNames :=
  same.families.map_perm Family.Reordered.name

theorem usedNames : grammar.usedNames.Perm reordered.usedNames :=
  same.uses.flatMap_perm Use.Reordered.names

theorem mem_reservedNames_iff {name : Text} :
    name ∈ grammar.reservedNames ↔ name ∈ reordered.reservedNames := by
  rw [reservedNames, reservedNames, List.mem_append, List.mem_append, same.usedNames.mem_iff]

theorem mem_wantedNames_iff (alike : family.Reordered other) {owner name : Text} :
    (owner, name) ∈ grammar.wantedNames family ↔ (owner, name) ∈ reordered.wantedNames other := by
  simp only [mem_wantedNames_iff_spoken, same.familyNames.mem_iff, alike.name,
    alike.referredNames.mem_iff]

theorem mem_takenNames_iff (alike : family.Reordered other) {name : Text} :
    name ∈ grammar.takenNames family ↔ name ∈ reordered.takenNames other := by
  have imported : name ∈ (grammar.familyImports family).flatMap Prod.snd ↔
      name ∈ (reordered.familyImports other).flatMap Prod.snd := by
    rw [mem_imported_iff, mem_imported_iff]
    refine same.families.exists_iff fun {target} _ related => ?_
    rw [related.name, related.variantNames.mem_iff, same.mem_wantedNames_iff alike]
  simp only [takenNames, List.mem_append, same.mem_reservedNames_iff, alike.visitorName,
    same.familyNames.mem_iff, imported]

/-- **Families are admitted alike**, for nothing that is asked of them depends on an order. -/
theorem admits_iff (alike : family.Reordered other) :
    grammar.Admits family ↔ reordered.Admits other := by
  have visitor : family.visitorName ∈ grammar.reservedNames ++ grammar.familyNames ↔
      other.visitorName ∈ reordered.reservedNames ++ reordered.familyNames := by
    simp only [List.mem_append, same.mem_reservedNames_iff, same.familyNames.mem_iff,
      alike.visitorName]
  have free : (∀ variant ∈ family.variants, variant.name ∉ grammar.takenNames family) ↔
      ∀ variant ∈ other.variants, variant.name ∉ reordered.takenNames other :=
    alike.variants.forall_iff fun related => by rw [same.mem_takenNames_iff alike, related.name]
  have parts : ∀ {grammar : Grammar} {family : Family}, grammar.Admits family ↔
      family.moduleName ∉ keywords ∧ family.name ∉ grammar.reservedNames ∧
        family.visitorName ∉ grammar.reservedNames ++ grammar.familyNames ∧
        family.variantNames.Nodup ∧
        ∀ variant ∈ family.variants, variant.name ∉ grammar.takenNames family :=
    ⟨fun ⟨module, name, visitor, distinct, free⟩ => ⟨module, name, visitor, distinct, free⟩,
      fun ⟨module, name, visitor, distinct, free⟩ => ⟨module, name, visitor, distinct, free⟩⟩
  rw [parts, parts, alike.moduleName, same.mem_reservedNames_iff, alike.name, visitor,
    alike.variantNames.nodup_iff, free]

end Names

/-- No two families have one module, but that a nameless one does not hold it: this is said of the
names alone, and of two of them in either order. -/
theorem pairwise_iff (same : grammar.Reordered reordered) :
    (grammar.families.Pairwise fun first second =>
        first.name ≠ [] → first.moduleName ≠ second.moduleName) ↔
      reordered.families.Pairwise fun first second =>
        first.name ≠ [] → first.moduleName ≠ second.moduleName := by
  let Apart (first second : Text) : Prop :=
    first ≠ [] → Text.snakeCase first ≠ Text.snakeCase second
  have names : ∀ grammar : Grammar, (grammar.families.Pairwise fun first second =>
      first.name ≠ [] → first.moduleName ≠ second.moduleName) ↔
        grammar.familyNames.Pairwise Apart :=
    fun grammar => (List.pairwise_map (f := Family.name) (R := Apart)).symm
  have either : ∀ {first second : Text}, Apart first second → Apart second first := by
    intro first second apart named equal
    have nameless : first = [] := of_not_not fun isNamed => apart isNamed equal.symm
    rw [nameless, Text.snakeCase_eq_nil_iff.2 rfl, Text.snakeCase_eq_nil_iff] at equal
    exact named equal
  rw [names, names]
  exact same.familyNames.pairwise_iff either

theorem valid_iff (same : grammar.Reordered reordered) :
    grammar.validate = .ok () ↔ reordered.validate = .ok () := by
  rw [validate_eq_ok_iff, validate_eq_ok_iff, same.pairwise_iff]
  exact and_congr_right fun _ => same.families.forall_iff same.admits_iff

end Reordered

end Grammar

end TreeGrammar
