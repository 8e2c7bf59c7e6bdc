/-
# TreeGrammar.Proofs.NodeModule.Dependence -- what the module of a family depends on

A module is generated with the whole grammar at hand: names are looked up among all families,
and imports are collected along all of them.  Still nothing shows in it but the family itself,
the used names and, of the families that it speaks of, whether there is one of that name, the
names of its variants and where it stands among the others it speaks of (`Agreement`).  Two
valid grammars that agree on these give the family one module (`emit_eq_of_agreement`).
-/
import TreeGrammar.Proofs.Grammar.Soundness

set_option autoImplicit false

namespace TreeGrammar

/-- The name of the family that a name speaks of: its qualifier, or the whole name without one. -/
def TypeRef.spokenName (name : Text) : Text :=
  (properQualifier? name).getD name

/-- The names of other families that the field types of a family speak of. -/
def Family.spokenNames (family : Family) : List Text :=
  (family.referredNames.filter fun name =>
    !TypeRef.isScalar name && TypeRef.spokenName name ≠ family.name).map TypeRef.spokenName

namespace Grammar

variable {grammar first second : Grammar} {family : Family} {name : Text}

/-- Two grammars are alike in all that a family's module depends on. -/
structure Agreement (family : Family) (first second : Grammar) : Prop where
  uses : first.uses = second.uses
  declared : ∀ name ∈ family.spokenNames, name ∈ first.familyNames ↔ name ∈ second.familyNames
  variants : ∀ one ∈ first.families, ∀ other ∈ second.families, one.name = other.name →
    one.name ∈ family.spokenNames → one.variantNames = other.variantNames
  /-- Two of the families stand in the same order. -/
  order : ∀ one ∈ family.spokenNames, ∀ other ∈ family.spokenNames,
    [one, other].Sublist first.familyNames ↔ [one, other].Sublist second.familyNames

theorem mem_spokenNames_iff :
    name ∈ family.spokenNames ↔
      name ≠ family.name ∧ ∃ reference ∈ family.referredNames,
        TypeRef.isScalar reference = false ∧ TypeRef.spokenName reference = name := by
  simp only [Family.spokenNames, List.mem_map, List.mem_filter, Bool.and_eq_true,
    Bool.not_eq_true', decide_eq_true_eq, and_assoc]
  constructor
  · rintro ⟨reference, referred, unscalar, other, rfl⟩
    exact ⟨other, reference, referred, unscalar, rfl⟩
  · rintro ⟨other, reference, referred, unscalar, rfl⟩
    exact ⟨reference, referred, unscalar, other, rfl⟩

/-! ## What is wanted -/

/-- Of the families only the names are needed to say what is wanted of them. -/
theorem wantedNames_eq (grammar : Grammar) (family : Family) :
    grammar.wantedNames family =
      family.referredNames.filterMap fun name =>
        if TypeRef.isScalar name = false ∧ TypeRef.spokenName name ≠ family.name ∧
            TypeRef.spokenName name ∈ grammar.familyNames then
          some (TypeRef.spokenName name, TypeRef.localName name)
        else none := by
  refine List.filterMap_congr fun name _ => ?_
  cases scalar : TypeRef.isScalar name with
  | true => simp
  | false =>
      rw [target?, ← TypeRef.spokenName]
      cases found : grammar.family? (TypeRef.spokenName name) with
      | none =>
          have absent := family?_eq_none_iff.1 found
          simp [absent]
      | some target =>
          obtain ⟨isFamily, named⟩ := family?_eq_some found
          have declared : TypeRef.spokenName name ∈ grammar.familyNames :=
            named ▸ List.mem_map_of_mem isFamily
          by_cases own : TypeRef.spokenName name = family.name <;> simp [named, declared, own]

theorem Agreement.wantedNames (agreement : Agreement family first second) :
    first.wantedNames family = second.wantedNames family := by
  rw [wantedNames_eq, wantedNames_eq]
  refine List.filterMap_congr fun name referred => ?_
  have same : (TypeRef.isScalar name = false ∧ TypeRef.spokenName name ≠ family.name ∧
        TypeRef.spokenName name ∈ first.familyNames) ↔
      TypeRef.isScalar name = false ∧ TypeRef.spokenName name ≠ family.name ∧
        TypeRef.spokenName name ∈ second.familyNames :=
    and_congr_right fun unscalar => and_congr_right fun other =>
      agreement.declared _ (mem_spokenNames_iff.2 ⟨other, name, referred, unscalar, rfl⟩)
  simp only [same]

/-- Names are wanted only of families that are spoken of and declared. -/
theorem spoken_of_wanted (wanted : name ∈ (grammar.wantedNames family).map Prod.fst) :
    name ∈ family.spokenNames ∧ name ∈ grammar.familyNames := by
  obtain ⟨pair, isWanted, rfl⟩ := List.mem_map.1 wanted
  obtain ⟨reference, referred, unscalar, target, found, other, rfl⟩ := mem_wantedNames_iff.1 isWanted
  obtain ⟨isFamily, named⟩ := family?_eq_some found
  exact ⟨mem_spokenNames_iff.2 ⟨other, reference, referred, unscalar, named.symm⟩,
    List.mem_map_of_mem isFamily⟩

/-! ## The imports -/

/-- Where no item is twice in a list, two items stand in one order only. -/
theorem idxOf_lt_of_sublist {list : List Text} (distinct : list.Nodup) {one other : Text}
    (both : [one, other].Sublist list) : list.idxOf one < list.idxOf other := by
  have rising : list.Pairwise fun one other => list.idxOf one < list.idxOf other := by
    refine List.pairwise_iff_getElem.2 fun i j isFirst isSecond before => ?_
    rw [distinct.idxOf_getElem, distinct.idxOf_getElem]
    exact before
  exact List.pairwise_iff_forall_sublist.1 rising both

/-- Lists with the same items in the same order are one. -/
theorem eq_of_same_order {left right : List Text} (distinct : left.Nodup)
    (distinctToo : right.Nodup) (same : ∀ item, item ∈ left ↔ item ∈ right)
    (order : ∀ one ∈ left, ∀ other ∈ left, [one, other].Sublist left →
      [one, other].Sublist right) : left = right := by
  have perm : left.Perm right := (List.perm_ext_iff_of_nodup distinct distinctToo).2 same
  have ordered : left.Pairwise fun one other => [one, other].Sublist right :=
    List.pairwise_iff_forall_sublist.2 fun both =>
      order _ (both.subset (by simp)) _ (both.subset (by simp)) both
  refine perm.eq_of_pairwise (fun one other _ _ before behind => ?_) ordered
    (List.pairwise_iff_forall_sublist.2 id)
  exact absurd (idxOf_lt_of_sublist distinctToo before)
    (Nat.lt_asymm (idxOf_lt_of_sublist distinctToo behind))

/-- The families that names are wanted of, in the order of the grammar. -/
def wantedFamilies (grammar : Grammar) (family : Family) : List Family :=
  grammar.families.filter fun other => other.name ∈ (grammar.wantedNames family).map Prod.fst

theorem familyImports_eq (grammar : Grammar) (family : Family) :
    grammar.familyImports family = (grammar.wantedFamilies family).map fun other =>
      (other, (other.name :: other.variantNames).filter fun name =>
        (other.name, name) ∈ grammar.wantedNames family) := by
  rw [familyImports, wantedFamilies]
  induction grammar.families with
  | nil => rfl
  | cons other rest ih =>
      by_cases wanted : other.name ∈ (grammar.wantedNames family).map Prod.fst
      · rw [List.filterMap_cons, if_pos wanted, List.filter_cons_of_pos (by simpa using wanted),
          List.map_cons, ← ih]
      · rw [List.filterMap_cons, if_neg wanted, List.filter_cons_of_neg (by simpa using wanted),
          ← ih]

theorem names_wantedFamilies :
    (grammar.wantedFamilies family).map Family.name =
      grammar.familyNames.filter (· ∈ (grammar.wantedNames family).map Prod.fst) := by
  rw [wantedFamilies, familyNames, List.filter_map]
  rfl

theorem Agreement.names_wantedFamilies (agreement : Agreement family first second)
    (distinct : first.familyNames.Nodup) (distinctToo : second.familyNames.Nodup) :
    (first.wantedFamilies family).map Family.name =
      (second.wantedFamilies family).map Family.name := by
  have spoken : ∀ name ∈ (second.wantedNames family).map Prod.fst, name ∈ family.spokenNames :=
    fun name wanted => (spoken_of_wanted wanted).1
  rw [Grammar.names_wantedFamilies, Grammar.names_wantedFamilies, agreement.wantedNames]
  refine eq_of_same_order (distinct.filter _) (distinctToo.filter _) (fun name => ?_)
    fun one isOne other isOther both => ?_
  · rw [List.mem_filter, List.mem_filter]
    refine and_congr_left fun wanted => agreement.declared name (spoken name ?_)
    simpa using wanted
  · have wanted : one ∈ (second.wantedNames family).map Prod.fst := by
      simpa using (List.mem_filter.1 isOne).2
    have wantedToo : other ∈ (second.wantedNames family).map Prod.fst := by
      simpa using (List.mem_filter.1 isOther).2
    have whole : [one, other].filter (· ∈ (second.wantedNames family).map Prod.fst) =
        [one, other] := by
      rw [List.filter_cons_of_pos (by simpa using wanted),
        List.filter_cons_of_pos (by simpa using wantedToo), List.filter_nil]
    have ordered := (agreement.order one (spoken one wanted) other (spoken other wantedToo)).1
      (both.trans List.filter_sublist)
    exact whole ▸ ordered.filter _

/-- What is computed from the items is the same if their names are, and name for name it is. -/
theorem map_eq_of_names {β : Type} {make : Family → β} {left right : List Family}
    (names : left.map Family.name = right.map Family.name)
    (each : ∀ one ∈ left, ∀ other ∈ right, one.name = other.name → make one = make other) :
    left.map make = right.map make := by
  induction left generalizing right with
  | nil => rw [List.map_eq_nil_iff.1 names.symm]
  | cons one rest ih =>
      cases right with
      | nil => cases names
      | cons other behind =>
          rw [List.map_cons, List.map_cons, List.cons.injEq] at names
          have head := each one List.mem_cons_self other List.mem_cons_self names.1
          have tail := ih names.2 fun one isOne other isOther =>
            each one (List.mem_cons_of_mem _ isOne) other (List.mem_cons_of_mem _ isOther)
          rw [List.map_cons, List.map_cons, head, tail]

theorem Agreement.relatives (agreement : Agreement family first second)
    (distinct : first.familyNames.Nodup) (distinctToo : second.familyNames.Nodup) :
    (first.nodeModule family).relatives = (second.nodeModule family).relatives := by
  rw [nodeModule, nodeModule]
  simp only [familyImports_eq, List.map_map, agreement.wantedNames]
  refine map_eq_of_names (agreement.names_wantedFamilies distinct distinctToo) ?_
  intro one isOne other isOther named
  obtain ⟨isFamily, wanted⟩ := List.mem_filter.1 isOne
  have spoken := (spoken_of_wanted (of_decide_eq_true wanted)).1
  have variants := agreement.variants one isFamily other (List.mem_filter.1 isOther).1 named spoken
  simp only [Function.comp_apply, Family.moduleName, named, variants]

/-! ## The annotations -/

/-- An annotation looks only for the family that its name speaks of. -/
theorem hint_congr {families others : List Text} {type : TypeRef}
    (same : TypeRef.isScalar type.name = false →
      (TypeRef.spokenName type.name ∈ families ↔ TypeRef.spokenName type.name ∈ others)) :
    type.hint families = type.hint others := by
  induction type with
  | named name =>
      rw [TypeRef.hint, TypeRef.hint, nameHint, nameHint]
      cases scalar : TypeRef.scalarHint? name with
      | some hint => rfl
      | none =>
          have spoken := same (by rw [TypeRef.name, TypeRef.isScalar, scalar]; rfl)
          rw [TypeRef.name, TypeRef.spokenName] at spoken
          cases qualified : TypeRef.properQualifier? name with
          | none => rfl
          | some qualifier =>
              rw [qualified, Option.getD_some] at spoken
              simp only [spoken]
  | sequence element ih => rw [TypeRef.hint, TypeRef.hint, ih same]
  | optional inner ih => rw [TypeRef.hint, TypeRef.hint, ih same]

theorem Agreement.classes (agreement : Agreement family first second)
    (inFirst : family ∈ first.families) (inSecond : family ∈ second.families) :
    (first.nodeModule family).classes = (second.nodeModule family).classes := by
  refine List.map_congr_left fun variant isVariant => ?_
  have fields : ∀ field ∈ variant.fields,
      field.type.hint first.familyNames = field.type.hint second.familyNames := by
    intro field isField
    refine hint_congr fun unscalar => ?_
    have referred : field.type.name ∈ family.referredNames :=
      List.mem_flatMap.2 ⟨variant, isVariant, List.mem_map_of_mem isField⟩
    by_cases own : TypeRef.spokenName field.type.name = family.name
    · rw [own]
      exact iff_of_true (List.mem_map_of_mem inFirst) (List.mem_map_of_mem inSecond)
    · exact agreement.declared _ (mem_spokenNames_iff.2 ⟨own, _, referred, unscalar, rfl⟩)
  rw [Family.nodeClass, Family.nodeClass, NodeClass.mk.injEq]
  exact ⟨rfl, List.map_congr_left fun field isField => by rw [fields field isField], rfl, rfl⟩

/-- **What a module depends on.**  In two valid grammars whose families have names, a family of both
has the same module if both use the same names and, among the other families that it speaks of,
declare the same ones, with the same variants by name and in the same order.  Nothing else of the
grammars shows: no fields of other families, no family that is not spoken of, no place of the
family itself. -/
theorem emit_eq_of_agreement (validFirst : first.validate = .ok ())
    (validSecond : second.validate = .ok ()) (namedFirst : [] ∉ first.familyNames)
    (namedSecond : [] ∉ second.familyNames) (inFirst : family ∈ first.families)
    (inSecond : family ∈ second.families) (agreement : Agreement family first second) :
    first.emit family = second.emit family := by
  have distinct : ∀ {grammar : Grammar}, grammar.validate = .ok () → [] ∉ grammar.familyNames →
      grammar.familyNames.Nodup := fun valid named =>
    familyNames_nodup (nodup_moduleNames_of_validate valid fun other member nameless =>
      named (nameless ▸ List.mem_map_of_mem member))
  have relatives := agreement.relatives (distinct validFirst namedFirst)
    (distinct validSecond namedSecond)
  have classes := agreement.classes inFirst inSecond
  have module : first.nodeModule family = second.nodeModule family := by
    rw [NodeModule.mk.injEq]
    exact ⟨rfl, rfl, congrArg (List.map _) agreement.uses, relatives, classes⟩
  rw [emit, emit, module]

/-- A family that speaks of a variant behind its family, of a family and of a name that is none. -/
def speakingFamily : Family :=
  ⟨['E'], [⟨['A'], [⟨['x'], .named "G.B"⟩, ⟨['y'], .sequence (.named ['H'])⟩,
    ⟨['z'], .named ['Z']⟩]⟩]⟩

def narrowGrammar : Grammar :=
  ⟨[speakingFamily, ⟨['G'], [⟨['B'], []⟩]⟩, ⟨['H'], [⟨['C'], []⟩]⟩], []⟩

/-- The families spoken of have fields here, and there is one more family. -/
def wideGrammar : Grammar :=
  ⟨[⟨['U'], [⟨['D'], []⟩]⟩, ⟨['G'], [⟨['B'], [⟨['w'], .named ['Z']⟩]⟩]⟩,
    ⟨['H'], [⟨['C'], [⟨['v'], .named ['E']⟩]⟩]⟩, speakingFamily], []⟩

theorem speakingFamily_emit :
    narrowGrammar ≠ wideGrammar ∧
      narrowGrammar.emit speakingFamily = wideGrammar.emit speakingFamily :=
  ⟨by decide, emit_eq_of_agreement (by decide +kernel) (by decide +kernel) (by decide) (by decide)
    (by decide) (by decide)
    ⟨rfl, by decide +kernel, by decide +kernel, by decide +kernel⟩⟩

end Grammar

end TreeGrammar
