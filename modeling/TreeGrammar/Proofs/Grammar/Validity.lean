/-
# TreeGrammar.Proofs.Grammar.Validity -- what the checks of a grammar ensure

`Grammar.Admits` gathers what is checked of one family.  A grammar is valid just if it admits
all its families and each family with a name has its module name alone, as far as the families
behind it go (`validate_eq_ok_iff`).  So where each family has a name, their modules have
different names (`nodup_moduleNames_of_validate`).
-/
import Mathlib.Data.List.Forall2
import TreeGrammar.Grammar.Validity

set_option autoImplicit false

namespace TreeGrammar

theorem bind_eq_ok_iff {ε α β : Type} {first : Except ε α} {next : α → Except ε β} {result : β} :
    first >>= next = .ok result ↔ ∃ value, first = .ok value ∧ next value = .ok result := by
  cases first with
  | error fault =>
      constructor
      · intro failed
        cases failed
      · rintro ⟨value, failed, -⟩
        cases failed
  | ok value =>
      constructor
      · exact fun passed => ⟨value, rfl, passed⟩
      · rintro ⟨same, ⟨⟩, passed⟩
        exact passed

/-- A check comes before what is checked for. -/
theorem check_eq_ok_iff {ε β : Type} {check : Except ε Unit} {next : Unit → Except ε β}
    {result : β} : check >>= next = .ok result ↔ check = .ok () ∧ next () = .ok result := by
  rw [bind_eq_ok_iff]
  constructor
  · rintro ⟨⟨⟩, passed, rest⟩
    exact ⟨passed, rest⟩
  · exact fun passed => ⟨(), passed⟩

/-- Faults may be reported in another way. -/
theorem mapError_eq_ok_iff {ε ε' α : Type} {result : Except ε α} {report : ε → ε'} {value : α} :
    result.mapError report = .ok value ↔ result = .ok value := by
  cases result with
  | error fault => exact ⟨nofun, nofun⟩
  | ok other => exact ⟨fun same => congrArg _ (Except.ok.inj same), fun same => by rw [same]; rfl⟩

/-- A check of each item of a list. -/
theorem forM_eq_ok_iff {ε α : Type} {check : α → Except ε Unit} {list : List α} :
    forM list check = .ok () ↔ ∀ item ∈ list, check item = .ok () := by
  induction list with
  | nil => exact ⟨fun _ => nofun, fun _ => rfl⟩
  | cons item rest ih => rw [List.forM_cons, check_eq_ok_iff, ih, List.forall_mem_cons]

/-- A list whose items are read one by one. -/
theorem mapM_eq_ok_iff {ε α β : Type} {reader : α → Except ε β} {list : List α} {items : List β} :
    list.mapM reader = .ok items ↔
      List.Forall₂ (fun value item => reader value = .ok item) list items := by
  induction list generalizing items with
  | nil =>
      rw [List.mapM_nil, List.forall₂_nil_left_iff]
      exact ⟨fun same => (Except.ok.inj same).symm, fun same => same ▸ rfl⟩
  | cons value rest ih =>
      simp only [List.mapM_cons, bind_eq_ok_iff, ih, List.forall₂_cons_left_iff]
      constructor
      · rintro ⟨item, first, others, behind, same⟩
        exact ⟨item, others, first, behind, (Except.ok.inj same).symm⟩
      · rintro ⟨item, others, first, behind, rfl⟩
        exact ⟨item, first, others, behind, rfl⟩

/-- An item of the second of two lists that are related item by item. -/
theorem exists_of_forall₂ {α β : Type} {Related : α → β → Prop} {first : List α} {second : List β}
    (related : List.Forall₂ Related first second) {item : β} (member : item ∈ second) :
    ∃ other ∈ first, Related other item := by
  induction related with
  | nil => exact absurd member List.not_mem_nil
  | cons head _ ih =>
      rcases List.mem_cons.1 member with rfl | later
      · exact ⟨_, List.mem_cons_self, head⟩
      · obtain ⟨other, behind, relates⟩ := ih later
        exact ⟨other, List.mem_cons_of_mem _ behind, relates⟩

theorem guard_eq_ok_iff {ε : Type} {refused : Prop} [Decidable refused] {fault : ε} :
    (if refused then Except.error fault else .ok ()) = .ok () ↔ ¬ refused := by
  by_cases refused <;> simp [*]

namespace Grammar

/-- The variants are named apart from each other, from those in `seen` and from what is taken. -/
theorem checkVariants_eq_ok_iff {taken : List Text} {family : Text} (seen : List Text)
    (variants : List Variant) :
    checkVariants taken family seen variants = .ok () ↔
      (variants.map Variant.name).Nodup ∧
        ∀ variant ∈ variants, variant.name ∉ seen ∧ variant.name ∉ taken := by
  induction variants generalizing seen with
  | nil => simp [checkVariants]
  | cons variant rest ih =>
      rw [checkVariants]
      split
      · next isSeen => simp [isSeen]
      split
      · next notSeen isTaken => simp [isTaken]
      next notSeen notTaken =>
        rw [ih]
        rw [List.map_cons, List.nodup_cons, List.forall_mem_cons]
        simp only [List.mem_cons, not_or]
        constructor
        · rintro ⟨distinct, each⟩
          refine ⟨⟨fun twice => ?_, distinct⟩, ⟨notSeen, notTaken⟩, fun other member => ?_⟩
          · obtain ⟨other, member, same⟩ := List.mem_map.1 twice
            exact (each other member).1.1 same
          · exact ⟨(each other member).1.2, (each other member).2⟩
        · rintro ⟨⟨once, distinct⟩, -, each⟩
          refine ⟨distinct, fun other member => ⟨⟨fun same => ?_, (each other member).1⟩,
            (each other member).2⟩⟩
          exact once (List.mem_map.2 ⟨other, member, same⟩)

/-- What is checked of a family on its own. -/
structure Admits (grammar : Grammar) (family : Family) : Prop where
  module : family.moduleName ∉ keywords
  name : family.name ∉ grammar.reservedNames
  visitor : family.visitorName ∉ grammar.reservedNames ++ grammar.familyNames
  distinct : family.variantNames.Nodup
  free : ∀ variant ∈ family.variants, variant.name ∉ grammar.takenNames family

theorem checkModule_eq_ok_iff (modules : List (Text × Text)) (family : Family) :
    checkModule modules family = .ok () ↔
      family.moduleName ∉ keywords ∧ holder? modules family.moduleName = none := by
  unfold checkModule
  split
  · next keyword => simp [keyword]
  · next free => split <;> simp_all

theorem checkFamily_eq_ok_iff (grammar : Grammar) (modules : List (Text × Text))
    (family : Family) :
    checkFamily grammar modules family = .ok () ↔
      holder? modules family.moduleName = none ∧ grammar.Admits family := by
  simp only [checkFamily, check_eq_ok_iff, checkModule_eq_ok_iff, checkFamilyName, checkVisitor,
    guard_eq_ok_iff, checkVariants_eq_ok_iff]
  constructor
  · rintro ⟨⟨module, free⟩, named, visited, distinct, each⟩
    exact ⟨free, module, named, visited, distinct, fun variant member => (each variant member).2⟩
  · rintro ⟨free, module, named, visited, distinct, each⟩
    exact ⟨⟨module, free⟩, named, visited, distinct, fun variant member =>
      ⟨List.not_mem_nil, each variant member⟩⟩

/-- A family with a name holds its module against all families behind it. -/
theorem holder?_put {modules : List (Text × Text)} {moduleName name other : Text} :
    holder? (Keyed.put moduleName name modules) other =
      if moduleName = other then (some name).filter (· ≠ []) else holder? modules other := by
  unfold holder?
  rw [Keyed.get?_put]
  split
  · rfl
  · rfl

/-- One family after the other has a module that no family in front of it holds. -/
def FreeModules (modules : List (Text × Text)) : List Family → Prop
  | [] => True
  | family :: rest =>
      holder? modules family.moduleName = none ∧
        FreeModules (Keyed.put family.moduleName family.name modules) rest

theorem holder?_put_eq_none_iff {modules : List (Text × Text)} {family other : Family}
    (free : holder? modules family.moduleName = none) :
    holder? (Keyed.put family.moduleName family.name modules) other.moduleName = none ↔
      (family.name ≠ [] → family.moduleName ≠ other.moduleName) ∧
        holder? modules other.moduleName = none := by
  rw [holder?_put]
  by_cases same : family.moduleName = other.moduleName
  · rw [if_pos same, ← same]
    simp [free, Option.filter]
  · simp [same]

/-- Each family has its module to itself, but that a family without a name does not hold it. -/
theorem freeModules_iff {modules : List (Text × Text)} {families : List Family} :
    FreeModules modules families ↔
      (families.Pairwise fun first second =>
        first.name ≠ [] → first.moduleName ≠ second.moduleName) ∧
        ∀ family ∈ families, holder? modules family.moduleName = none := by
  induction families generalizing modules with
  | nil => simp [FreeModules]
  | cons family rest ih =>
      rw [FreeModules, ih, List.pairwise_cons, List.forall_mem_cons]
      constructor
      · rintro ⟨free, apart, each⟩
        have behind := fun other member => (holder?_put_eq_none_iff free).1 (each other member)
        exact ⟨⟨fun other member => (behind other member).1, apart⟩, free,
          fun other member => (behind other member).2⟩
      · rintro ⟨⟨first, apart⟩, free, each⟩
        exact ⟨free, apart, fun other member =>
          (holder?_put_eq_none_iff free).2 ⟨first other member, each other member⟩⟩

/-- What is checked of families: each on its own, and their modules one after the other. -/
theorem checkFamilies_eq_ok_iff {grammar : Grammar} {modules : List (Text × Text)}
    {families : List Family} :
    checkFamilies grammar modules families = .ok () ↔
      FreeModules modules families ∧ ∀ family ∈ families, grammar.Admits family := by
  induction families generalizing modules with
  | nil => exact iff_of_true rfl ⟨trivial, List.forall_mem_nil _⟩
  | cons family rest ih =>
      rw [checkFamilies, check_eq_ok_iff, checkFamily_eq_ok_iff, ih, FreeModules,
        List.forall_mem_cons]
      exact and_and_and_comm

/-- Of families that all have names no two have one module. -/
theorem FreeModules.nodup {modules : List (Text × Text)} {families : List Family}
    (free : FreeModules modules families) (named : ∀ family ∈ families, family.name ≠ []) :
    (families.map Family.moduleName).Nodup :=
  List.pairwise_map.2 ((freeModules_iff.1 free).1.imp_of_mem fun isFirst _ apart =>
    apart (named _ isFirst))

/-- **Which grammars are valid.**  All their families are admitted, and no two of them have one
module, unless the first of the two has no name. -/
theorem validate_eq_ok_iff {grammar : Grammar} :
    grammar.validate = .ok () ↔
      (grammar.families.Pairwise fun first second =>
        first.name ≠ [] → first.moduleName ≠ second.moduleName) ∧
        ∀ family ∈ grammar.families, grammar.Admits family := by
  rw [validate, checkFamilies_eq_ok_iff, freeModules_iff]
  exact and_congr_left fun _ => and_iff_left fun _ _ => rfl

/-- A valid grammar admits all its families. -/
theorem admits_of_validate {grammar : Grammar} (valid : grammar.validate = .ok ()) :
    ∀ family ∈ grammar.families, grammar.Admits family :=
  (validate_eq_ok_iff.1 valid).2

/-- A family with a name has a module that no family behind it has. -/
theorem apart_of_validate {grammar : Grammar} (valid : grammar.validate = .ok ()) :
    grammar.families.Pairwise fun first second =>
      first.name ≠ [] → first.moduleName ≠ second.moduleName :=
  (validate_eq_ok_iff.1 valid).1

/-- The families of a valid grammar have different modules, if each of them has a name. -/
theorem nodup_moduleNames_of_validate {grammar : Grammar} (valid : grammar.validate = .ok ())
    (named : ∀ family ∈ grammar.families, family.name ≠ []) :
    (grammar.families.map Family.moduleName).Nodup :=
  (checkFamilies_eq_ok_iff.1 valid).1.nodup named

end Grammar

end TreeGrammar
