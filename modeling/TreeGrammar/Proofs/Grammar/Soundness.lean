/-
# TreeGrammar.Proofs.Grammar.Soundness -- what is promised of every grammar that is loaded

The lines of a text are checked one by one, each name and type where it stands; the
grammar they make is checked as a whole, family by family.  Together the checks ensure
that all names can be declared and that none is declared twice in a generated module
(`sound_of_load`).
-/
import TreeGrammar.NodeModule.Printer
import TreeGrammar.Proofs.Grammar.Reference
import TreeGrammar.Proofs.Grammar.WellFormed

set_option autoImplicit false

namespace TreeGrammar.Grammar

variable {grammar : Grammar} {family : Family}

/-- Only names are imported from other families. -/
theorem isName_of_imported {entry : Family × List Text} {name : Text}
    (wellFormed : grammar.WellFormed) (imported : entry ∈ grammar.familyImports family)
    (listed : name ∈ entry.2) : IsName name := by
  have target := wellFormed.families entry.1 (imported_other imported).1
  cases imported_declared imported listed with
  | inl isName => exact isName ▸ target.name
  | inr isVariant => exact target.isName_of_variant isVariant

/-! ## One family -/

/-- What a module exports besides its family's variants. -/
def ownNames (family : Family) : List Text :=
  [family.name, family.visitorName, "VARIANTS", "dispatch"]

theorem exports_eq (grammar : Grammar) (family : Family) :
    (grammar.nodeModule family).exports = ownNames family ++ family.variantNames := by
  have classes : (grammar.nodeModule family).classes.map NodeClass.name = family.variantNames := by
    simp [nodeModule, Family.nodeClass, Family.variantNames]
  rw [NodeModule.exports, classes]
  rfl

/-- The names that `VARIANTS` and `dispatch` stand for are generated ones. -/
theorem generated_of_fixed {name : Text}
    (fixed : name = "VARIANTS".toList ∨ name = "dispatch".toList) : name ∈ generatedNames := by
  cases fixed with
  | inl same => exact same ▸ by decide
  | inr same => exact same ▸ by decide

theorem reserved_of_generated {name : Text} (generated : name ∈ generatedNames) :
    name ∈ grammar.reservedNames :=
  List.mem_append_left _ generated

theorem reserved_of_used {name : Text} (used : name ∈ grammar.usedNames) :
    name ∈ grammar.reservedNames :=
  List.mem_append_right _ used

theorem name_ne_visitorName (family : Family) : family.name ≠ family.visitorName := by
  intro same
  have lengths := congrArg List.length same
  rw [Family.visitorName, List.length_append] at lengths
  exact absurd lengths (by simp)

/-- No visitor has a name from a list in which none ends as the names of visitors do. -/
theorem visitorName_not_mem {names : List Text}
    (other : ∀ name ∈ names, ¬ "Visitor".toList <:+ name) (family : Family) :
    family.visitorName ∉ names :=
  fun listed => other _ listed ⟨family.name, rfl⟩

namespace Admits

variable (admits : grammar.Admits family)

include admits

theorem visitor_unreserved : family.visitorName ∉ grammar.reservedNames :=
  fun reserved => admits.visitor (List.mem_append_left _ reserved)

/-- A variant has none of the names that are taken in the family's module. -/
theorem variant_free {name : Text} (isVariant : name ∈ family.variantNames) :
    name ∉ grammar.reservedNames ∧ name ≠ family.visitorName ∧ name ∉ grammar.familyNames ∧
      ∀ entry ∈ grammar.familyImports family, name ∉ entry.2 := by
  obtain ⟨variant, member, rfl⟩ := List.mem_map.1 isVariant
  have free := admits.free variant member
  simp only [takenNames, List.mem_append, List.mem_singleton, List.mem_flatMap, not_or, not_exists,
    not_and] at free
  obtain ⟨⟨⟨reserved, visitor⟩, families⟩, imports⟩ := free
  exact ⟨reserved, visitor, families, imports⟩

/-- No two declarations of a module have one name. -/
theorem exports_nodup (member : family ∈ grammar.families) :
    (grammar.nodeModule family).exports.Nodup := by
  have fixed : ∀ name, name = "VARIANTS".toList ∨ name = "dispatch".toList →
      name ∈ grammar.reservedNames := fun name same =>
    reserved_of_generated (generated_of_fixed same)
  have ownApart : (ownNames family).Nodup := by
    have named : ∀ name ∈ (["VARIANTS".toList, "dispatch".toList] : List Text),
        family.name ≠ name ∧ family.visitorName ≠ name := by
      intro name isFixed
      have reserved := fixed name (by simpa using isFixed)
      exact ⟨fun same => admits.name (same ▸ reserved),
        fun same => admits.visitor_unreserved (same ▸ reserved)⟩
    have differ : "VARIANTS".toList ≠ "dispatch".toList := by decide
    simp only [List.forall_mem_cons] at named
    obtain ⟨⟨nameVariants, visitorVariants⟩, ⟨nameDispatch, visitorDispatch⟩, -⟩ := named
    simp only [ownNames, List.nodup_cons, List.mem_cons, List.not_mem_nil, or_false, not_or]
    exact ⟨⟨name_ne_visitorName family, nameVariants, nameDispatch⟩,
      ⟨visitorVariants, visitorDispatch⟩, differ, not_false, List.nodup_nil⟩
  rw [exports_eq]
  refine List.nodup_append.2 ⟨ownApart, admits.distinct, ?_⟩
  intro own isOwn name isVariant same
  subst same
  obtain ⟨unreserved, noVisitor, noFamily, -⟩ := admits.variant_free isVariant
  simp only [ownNames, List.mem_cons, List.not_mem_nil, or_false] at isOwn
  rcases isOwn with isName | isVisitor | isFixed
  · exact noFamily (isName ▸ List.mem_map_of_mem member)
  · exact noVisitor isVisitor
  · exact unreserved (fixed own isFixed)

end Admits

/-! ## Whole grammars -/

/-- What is promised of a grammar: its parts are well-formed, the modules of its families have
names of their own, and in each module no name is declared twice or imported as well. -/
structure Sound (grammar : Grammar) : Prop where
  wellFormed : grammar.WellFormed
  modules : (grammar.families.map Family.moduleName).Nodup
  plain : ∀ family ∈ grammar.families, family.moduleName ∉ keywords
  exports : ∀ family ∈ grammar.families, (grammar.nodeModule family).exports.Nodup
  unused : ∀ family ∈ grammar.families,
    ∀ name ∈ family.name :: family.visitorName :: family.variantNames, name ∉ grammar.usedNames
  variants : ∀ family ∈ grammar.families, ∀ name ∈ family.variantNames,
    name ∉ grammar.familyNames ∧ ∀ entry ∈ grammar.familyImports family, name ∉ entry.2

/-- Families with one name would have one module. -/
theorem familyNames_nodup (modules : (grammar.families.map Family.moduleName).Nodup) :
    grammar.familyNames.Nodup := by
  have snake : grammar.families.map Family.moduleName = grammar.familyNames.map Text.snakeCase := by
    rw [familyNames, List.map_map]
    rfl
  exact List.Nodup.of_map _ (snake ▸ modules)

/-- A grammar of well-formed parts that passes the checks as a whole is sound. -/
theorem sound_of_validate (wellFormed : grammar.WellFormed) (valid : grammar.validate = .ok ()) :
    grammar.Sound := by
  have admits := admits_of_validate valid
  have named : ∀ family ∈ grammar.families, family.name ≠ [] := fun family member =>
    (wellFormed.families family member).name.ne_nil
  refine ⟨wellFormed, nodup_moduleNames_of_validate valid named, ?_, ?_, ?_, ?_⟩
  · intro family member
    exact (admits family member).module
  · intro family member
    exact (admits family member).exports_nodup member
  · intro family member name isDeclared used
    have reserved := reserved_of_used used
    rcases List.mem_cons.1 isDeclared with rfl | behind
    · exact (admits family member).name reserved
    rcases List.mem_cons.1 behind with rfl | isVariant
    · exact (admits family member).visitor_unreserved reserved
    · exact ((admits family member).variant_free isVariant).1 reserved
  · intro family member name isVariant
    exact ((admits family member).variant_free isVariant).2.2

/-- **Every loaded grammar is sound.** -/
theorem sound_of_load {text : Text} (loaded : load text = .ok grammar) : grammar.Sound :=
  sound_of_validate (wellFormed_of_load loaded) (load_eq_ok_iff.1 loaded).2

/-- Two families, the first of which refers to a used name, to the other family and a variant of it,
to a scalar and to a variant of its own. -/
def linkedGrammar : Grammar :=
  ⟨[⟨['E'], [⟨['A'], [⟨['x'], .named ['T']⟩, ⟨['y'], .sequence (.named ['G', '.', 'B'])⟩,
      ⟨['z'], .optional (.named ['G'])⟩]⟩, ⟨['C'], [⟨['v'], .optional (.named "Object")⟩,
      ⟨['w'], .named ['E', '.', 'A']⟩]⟩]⟩, ⟨['G'], [⟨['B'], []⟩]⟩], [⟨['m'], [['T']]⟩]⟩

/-- A text that is loaded as `linkedGrammar`. -/
def linkedText : Text :=
  "use m: T\nE \x7b A: T x, List<G.B> y, G? z; C: Object? v, E.A w \x7d\nG \x7b B: \x7d"

theorem linkedGrammar_sound : load linkedText = .ok linkedGrammar ∧ linkedGrammar.Sound := by
  have loaded : load linkedText = .ok linkedGrammar := by decide +kernel
  exact ⟨loaded, sound_of_load loaded⟩

end TreeGrammar.Grammar
