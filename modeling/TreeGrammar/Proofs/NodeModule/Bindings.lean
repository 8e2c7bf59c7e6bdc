/-
# TreeGrammar.Proofs.NodeModule.Bindings -- where the names of a generated module come from

A generated module binds the used names, the names it imports from the modules of other
families, and what it declares itself.  The checks of a grammar compare the names of each
family with all others, but not the imports with each other, nor the used names with
`VARIANTS` and `dispatch`, nor the imported variants with the family's visitor.  These
are the only ways in which a name can be bound twice (`boundOnce_iff`).
-/
import TreeGrammar.Proofs.Grammar.Soundness

set_option autoImplicit false

namespace TreeGrammar

/-- Where a name that a module binds comes from. -/
inductive Origin where
  /-- A use, by the path that it names. -/
  | used (path : Text)
  /-- The module of another family. -/
  | sibling (family : Text)
  /-- A declaration of the module itself, by its place among them. -/
  | declared (place : Nat)
  deriving DecidableEq

structure Binding where
  name : Text
  origin : Origin
  deriving DecidableEq

namespace Grammar

/-- The names that all uses bind. -/
def usedBindings (grammar : Grammar) : List Binding :=
  grammar.uses.flatMap fun use => use.names.map fun name => ⟨name, .used use.path⟩

/-- The names that the imports from other families bind. -/
def importedBindings (grammar : Grammar) (family : Family) : List Binding :=
  (grammar.familyImports family).flatMap fun entry =>
    entry.2.map fun name => ⟨name, .sibling entry.1.name⟩

/-- The names that the declarations of a family's module bind: the family, its visitor, `VARIANTS`,
`dispatch` and the variants. -/
def declaredBindings (grammar : Grammar) (family : Family) : List Binding :=
  (grammar.nodeModule family).exports.mapIdx fun place name => ⟨name, .declared place⟩

/-- All names that the module of a family binds. -/
def bindings (grammar : Grammar) (family : Family) : List Binding :=
  grammar.usedBindings ++ grammar.importedBindings family ++ grammar.declaredBindings family

/-- Bindings of one name have one origin. -/
def BoundOnce (grammar : Grammar) (family : Family) : Prop :=
  ∀ first ∈ grammar.bindings family, ∀ second ∈ grammar.bindings family,
    first.name = second.name → first.origin = second.origin

/-- The names that no check compares are apart. -/
structure Apart (grammar : Grammar) (family : Family) : Prop where
  /-- No name is used from two paths. -/
  uses : ∀ use ∈ grammar.uses, ∀ other ∈ grammar.uses, ∀ name ∈ use.names, name ∈ other.names →
    use.path = other.path
  /-- No used name is declared in every module. -/
  fixed : "VARIANTS".toList ∉ grammar.usedNames ∧ "dispatch".toList ∉ grammar.usedNames
  /-- No variant's name is imported from two families. -/
  imports : ∀ entry ∈ grammar.familyImports family, ∀ other ∈ grammar.familyImports family,
    ∀ name ∈ entry.2, name ∈ other.2 → entry.1.name = other.1.name
  /-- No imported variant is named like the family's visitor. -/
  visitor : ∀ entry ∈ grammar.familyImports family, family.visitorName ∉ entry.2

variable {grammar : Grammar} {family : Family} {binding : Binding}

theorem mem_usedBindings_iff :
    binding ∈ grammar.usedBindings ↔
      ∃ use ∈ grammar.uses, ∃ name ∈ use.names, binding = ⟨name, .used use.path⟩ := by
  simp [usedBindings, eq_comm]

theorem mem_importedBindings_iff :
    binding ∈ grammar.importedBindings family ↔
      ∃ entry ∈ grammar.familyImports family, ∃ name ∈ entry.2,
        binding = ⟨name, .sibling entry.1.name⟩ := by
  simp [importedBindings, eq_comm]

theorem mem_declaredBindings_iff :
    binding ∈ grammar.declaredBindings family ↔
      ∃ place, (grammar.nodeModule family).exports[place]? = some binding.name ∧
        binding.origin = .declared place := by
  obtain ⟨name, origin⟩ := binding
  rw [declaredBindings, List.mem_mapIdx]
  constructor
  · rintro ⟨place, inside, same⟩
    obtain ⟨rfl, rfl⟩ := Binding.mk.inj same
    exact ⟨place, List.getElem?_eq_getElem inside, rfl⟩
  · rintro ⟨place, found, rfl⟩
    obtain ⟨inside, rfl⟩ := List.getElem?_eq_some_iff.1 found
    exact ⟨place, inside, rfl⟩

/-! ## Names of different origins -/

section Origins

variable {name : Text} {entry : Family × List Text} {first second : Binding}

theorem name_used (used : binding ∈ grammar.usedBindings) : binding.name ∈ grammar.usedNames := by
  obtain ⟨use, isUse, name, listed, rfl⟩ := mem_usedBindings_iff.1 used
  exact List.mem_flatMap.2 ⟨use, isUse, listed⟩

theorem name_declared (declared : binding ∈ grammar.declaredBindings family) :
    binding.name ∈ ownNames family ∨ binding.name ∈ family.variantNames := by
  obtain ⟨place, found, -⟩ := mem_declaredBindings_iff.1 declared
  have listed := List.mem_of_getElem? found
  rw [exports_eq] at listed
  exact List.mem_append.1 listed

variable (admits : ∀ family ∈ grammar.families, grammar.Admits family)

include admits

/-- Neither families nor variants have reserved names, so none is imported. -/
theorem imported_unreserved (imported : entry ∈ grammar.familyImports family)
    (listed : name ∈ entry.2) : name ∉ grammar.reservedNames := by
  have other := admits entry.1 (imported_other imported).1
  cases imported_declared imported listed with
  | inl isName => exact isName ▸ other.name
  | inr isVariant => exact (other.variant_free isVariant).1

theorem used_ne_imported (used : first ∈ grammar.usedBindings)
    (imported : second ∈ grammar.importedBindings family) : first.name ≠ second.name := by
  obtain ⟨entry, isImport, name, listed, rfl⟩ := mem_importedBindings_iff.1 imported
  intro same
  have reserved := reserved_of_used (name_used used)
  rw [same] at reserved
  exact imported_unreserved admits isImport listed reserved

theorem used_ne_declared (apart : grammar.Apart family) (member : family ∈ grammar.families)
    (used : first ∈ grammar.usedBindings)
    (declared : second ∈ grammar.declaredBindings family) : first.name ≠ second.name := by
  intro same
  have isUsed := same ▸ name_used used
  have reserved := reserved_of_used isUsed
  have own := admits family member
  cases name_declared declared with
  | inr isVariant => exact (own.variant_free isVariant).1 reserved
  | inl isOwn =>
      simp only [ownNames, List.mem_cons, List.not_mem_nil, or_false] at isOwn
      rcases isOwn with isName | isVisitor | isVariants | isDispatch
      · exact own.name (isName ▸ reserved)
      · exact own.visitor_unreserved (isVisitor ▸ reserved)
      · exact apart.fixed.1 (isVariants ▸ isUsed)
      · exact apart.fixed.2 (isDispatch ▸ isUsed)

theorem imported_ne_declared (apart : grammar.Apart family) (member : family ∈ grammar.families)
    (imported : first ∈ grammar.importedBindings family)
    (declared : second ∈ grammar.declaredBindings family) : first.name ≠ second.name := by
  obtain ⟨entry, isImport, name, listed, rfl⟩ := mem_importedBindings_iff.1 imported
  obtain ⟨isFamily, different⟩ := imported_other isImport
  have unreserved := imported_unreserved admits isImport listed
  intro same
  change name = second.name at same
  subst same
  cases name_declared declared with
  | inr isVariant =>
      exact ((admits family member).variant_free isVariant).2.2.2 entry isImport listed
  | inl isOwn =>
      simp only [ownNames, List.mem_cons, List.not_mem_nil, or_false] at isOwn
      rcases isOwn with isName | isVisitor | isFixed
      · cases imported_declared isImport listed with
        | inl isOther => exact different (isOther.symm.trans isName)
        | inr isVariant =>
            have noFamily := ((admits entry.1 isFamily).variant_free isVariant).2.2.1
            exact noFamily (isName ▸ List.mem_map_of_mem member)
      · exact apart.visitor entry isImport (isVisitor ▸ listed)
      · exact unreserved (reserved_of_generated (generated_of_fixed isFixed))

end Origins

/-! ## When every name is bound once -/

section Once

variable {first second : Binding}

theorem declared_origin (distinct : (grammar.nodeModule family).exports.Nodup)
    (isFirst : first ∈ grammar.declaredBindings family)
    (isSecond : second ∈ grammar.declaredBindings family) (same : first.name = second.name) :
    first.origin = second.origin := by
  obtain ⟨place, found, origin⟩ := mem_declaredBindings_iff.1 isFirst
  obtain ⟨other, foundOther, originOther⟩ := mem_declaredBindings_iff.1 isSecond
  obtain ⟨inside, -⟩ := List.getElem?_eq_some_iff.1 found
  have places : place = other :=
    (List.getElem?_inj inside distinct).1 (found.trans (same ▸ foundOther.symm))
  rw [origin, originOther, places]

theorem boundOnce_of_apart (admits : ∀ family ∈ grammar.families, grammar.Admits family)
    (member : family ∈ grammar.families) (apart : grammar.Apart family) :
    grammar.BoundOnce family := by
  intro first isFirst second isSecond same
  rw [bindings, List.mem_append, List.mem_append] at isFirst isSecond
  -- one case for each pair of origins; across origins no name is shared
  rcases isFirst with (used | imported) | declared <;>
    rcases isSecond with (otherUsed | otherImported) | otherDeclared
  · obtain ⟨use, isUse, name, listed, rfl⟩ := mem_usedBindings_iff.1 used
    obtain ⟨other, isOther, name, alsoListed, rfl⟩ := mem_usedBindings_iff.1 otherUsed
    cases same
    exact congrArg Origin.used (apart.uses use isUse other isOther _ listed alsoListed)
  · exact absurd same (used_ne_imported admits used otherImported)
  · exact absurd same (used_ne_declared admits apart member used otherDeclared)
  · exact absurd same.symm (used_ne_imported admits otherUsed imported)
  · obtain ⟨entry, isImport, name, listed, rfl⟩ := mem_importedBindings_iff.1 imported
    obtain ⟨other, isOther, name, alsoListed, rfl⟩ := mem_importedBindings_iff.1 otherImported
    cases same
    exact congrArg Origin.sibling (apart.imports entry isImport other isOther _ listed alsoListed)
  · exact absurd same (imported_ne_declared admits apart member imported otherDeclared)
  · exact absurd same.symm (used_ne_declared admits apart member otherUsed declared)
  · exact absurd same.symm (imported_ne_declared admits apart member otherImported declared)
  · exact declared_origin ((admits family member).exports_nodup member) declared otherDeclared same

theorem apart_of_boundOnce (once : grammar.BoundOnce family) : grammar.Apart family := by
  have isUsed : ∀ use ∈ grammar.uses, ∀ name ∈ use.names,
      Binding.mk name (.used use.path) ∈ grammar.bindings family := by
    intro use isUse name listed
    refine List.mem_append_left _ (List.mem_append_left _ ?_)
    exact mem_usedBindings_iff.2 ⟨use, isUse, name, listed, rfl⟩
  have isImported : ∀ entry ∈ grammar.familyImports family, ∀ name ∈ entry.2,
      Binding.mk name (.sibling entry.1.name) ∈ grammar.bindings family := by
    intro entry isImport name listed
    refine List.mem_append_left _ (List.mem_append_right _ ?_)
    exact mem_importedBindings_iff.2 ⟨entry, isImport, name, listed, rfl⟩
  have isDeclared : ∀ (place : Nat) (name : Text), (ownNames family)[place]? = some name →
      Binding.mk name (.declared place) ∈ grammar.bindings family := by
    intro place name found
    refine List.mem_append_right _ (mem_declaredBindings_iff.2 ⟨place, ?_, rfl⟩)
    obtain ⟨inside, -⟩ := List.getElem?_eq_some_iff.1 found
    rw [exports_eq, List.getElem?_append_left inside, found]
  have unused : ∀ (place : Nat) (name : Text), (ownNames family)[place]? = some name →
      name ∉ grammar.usedNames := by
    intro place name found used
    obtain ⟨use, isUse, listed⟩ := List.mem_flatMap.1 used
    cases once _ (isUsed use isUse name listed) _ (isDeclared place name found) rfl
  constructor
  · intro use isUse other isOther name listed alsoListed
    exact Origin.used.inj
      (once _ (isUsed use isUse name listed) _ (isUsed other isOther name alsoListed) rfl)
  · exact ⟨unused 2 _ rfl, unused 3 _ rfl⟩
  · intro entry isImport other isOther name listed alsoListed
    exact Origin.sibling.inj (once _ (isImported entry isImport name listed) _
      (isImported other isOther name alsoListed) rfl)
  · intro entry isImport listed
    cases once _ (isImported entry isImport _ listed) _ (isDeclared 1 _ rfl) rfl

/-- **When every name of a module is bound once.**  In a grammar that has been loaded, the bindings
of a family's module have one origin for each name just if no name is used from two paths,
`VARIANTS` and `dispatch` are not used, no variant's name is imported from two families, and none
that is imported is the name of the family's visitor. -/
theorem boundOnce_iff {text : Text} (loaded : load text = .ok grammar)
    (member : family ∈ grammar.families) :
    grammar.BoundOnce family ↔ grammar.Apart family :=
  ⟨apart_of_boundOnce, boundOnce_of_apart (admits_of_validate (load_eq_ok_iff.1 loaded).2) member⟩

/-- A family that refers to another family's variant with the name of its own visitor. -/
def visitedFamily : Family :=
  ⟨['E'], [⟨['A'], [⟨['x'], .named "G.EVisitor"⟩]⟩]⟩

def visitedGrammar : Grammar :=
  ⟨[visitedFamily, ⟨['G'], [⟨"EVisitor", []⟩]⟩], []⟩

theorem visitor_bound_twice :
    load "E \x7b A: G.EVisitor x \x7d\nG \x7b EVisitor: \x7d" = .ok visitedGrammar ∧
      ¬ visitedGrammar.BoundOnce visitedFamily := by
  refine ⟨by decide +kernel, fun once => ?_⟩
  have origins := once ⟨"EVisitor", .sibling ['G']⟩ (by decide +kernel)
    ⟨"EVisitor", .declared 1⟩ (by decide +kernel) rfl
  cases origins

theorem linkedGrammar_boundOnce :
    load linkedText = .ok linkedGrammar ∧
      ∀ family ∈ linkedGrammar.families, linkedGrammar.BoundOnce family := by
  have loaded : load linkedText = .ok linkedGrammar := by decide +kernel
  have apart : ∀ family ∈ linkedGrammar.families, linkedGrammar.Apart family := by
    intro family member
    constructor <;> revert family <;> decide +kernel
  exact ⟨loaded, fun family member => (boundOnce_iff loaded member).2 (apart family member)⟩

end Once

end Grammar

end TreeGrammar
