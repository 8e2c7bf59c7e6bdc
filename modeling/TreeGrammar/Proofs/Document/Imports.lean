/-
# TreeGrammar.Proofs.Document.Imports -- exact imports in grammars and documents

The imports of a family are exact in every valid grammar, and in every valid document as
well (`familyImports_exact`).  A valid document need not declare a grammar: the names of
variants, fields and uses may be any values there that can be looked up.  But its families
have texts for names, and a name stands inside each of its types, so nothing is in the way
when imports are collected, and only texts are wanted.
-/
import TreeGrammar.Document.Generation
import TreeGrammar.Proofs.NodeModule.Imports

set_option autoImplicit false

namespace TreeGrammar

namespace Document

/-! ## Documents that declare a grammar -/

theorem eq_map_of_mapM {α β : Type} {find? : α → Option β} {form : β → α} {list : List α}
    {found : List β} (each : ∀ item value, find? item = some value → item = form value)
    (all : list.mapM find? = some found) : list = found.map form := by
  induction list generalizing found with
  | nil =>
      obtain rfl := Option.some.inj all
      rfl
  | cons item rest ih =>
      rw [List.mapM_cons] at all
      obtain ⟨value, first, behind⟩ := Option.bind_eq_some_iff.1 all
      obtain ⟨values, others, same⟩ := Option.bind_eq_some_iff.1 behind
      obtain rfl := Option.some.inj same
      rw [List.map_cons, each item value first, ← ih others]

theorem eq_of_text? {value : Json} {text : Text} (isText : value.text? = some text) :
    value = .text text := by
  cases value with
  | text content => exact congrArg _ (Option.some.inj isText)
  | _ => cases isText

theorem TypeForm.eq_ofType {form : TypeForm} {type : TypeRef} (isType : form.type? = some type) :
    form = ofType type := by
  induction form generalizing type with
  | value content => cases isType
  | named inner =>
      cases inner with
      | value content =>
          cases content with
          | text name => obtain rfl := Option.some.inj isType; rfl
          | _ => cases isType
      | _ => cases isType
  | sequence element ih =>
      obtain ⟨inside, found, rfl⟩ := Option.map_eq_some_iff.1 isType
      rw [ih found, ofType]
  | optional inner ih =>
      obtain ⟨inside, found, rfl⟩ := Option.map_eq_some_iff.1 isType
      rw [ih found, ofType]

theorem Field.eq_ofField {field : Field} {declared : TreeGrammar.Field}
    (isField : field.field? = some declared) : field = ofField declared := by
  obtain ⟨name, named, behind⟩ := Option.bind_eq_some_iff.1 isField
  obtain ⟨type, typed, same⟩ := Option.bind_eq_some_iff.1 behind
  obtain rfl := Option.some.inj same
  rw [ofField, ← eq_of_text? named, ← TypeForm.eq_ofType typed]

theorem Variant.eq_ofVariant {variant : Variant} {declared : TreeGrammar.Variant}
    (isVariant : variant.variant? = some declared) : variant = ofVariant declared := by
  obtain ⟨name, named, behind⟩ := Option.bind_eq_some_iff.1 isVariant
  obtain ⟨fields, found, same⟩ := Option.bind_eq_some_iff.1 behind
  obtain rfl := Option.some.inj same
  rw [ofVariant, ← eq_of_text? named, ← eq_map_of_mapM (fun _ _ => Field.eq_ofField) found]

theorem Family.eq_ofFamily {family : Family} {declared : TreeGrammar.Family}
    (isFamily : family.family? = some declared) : family = ofFamily declared := by
  obtain ⟨name, named, behind⟩ := Option.bind_eq_some_iff.1 isFamily
  obtain ⟨variants, found, same⟩ := Option.bind_eq_some_iff.1 behind
  obtain rfl := Option.some.inj same
  rw [ofFamily, ← eq_of_text? named, ← eq_map_of_mapM (fun _ _ => Variant.eq_ofVariant) found]

theorem Use.eq_ofUse {use : Use} {declared : TreeGrammar.Use}
    (isUse : use.use? = some declared) : use = ofUse declared := by
  obtain ⟨path, spelled, behind⟩ := Option.bind_eq_some_iff.1 isUse
  obtain ⟨names, found, same⟩ := Option.bind_eq_some_iff.1 behind
  obtain rfl := Option.some.inj same
  rw [ofUse, ← eq_of_text? spelled, ← eq_map_of_mapM (fun _ _ => eq_of_text?) found]

/-- A document that declares a grammar is the document of this grammar. -/
theorem eq_ofGrammar {document : Document} {grammar : Grammar}
    (declares : document.grammar? = some grammar) : document = ofGrammar grammar := by
  obtain ⟨families, found, behind⟩ := Option.bind_eq_some_iff.1 declares
  obtain ⟨uses, foundUses, same⟩ := Option.bind_eq_some_iff.1 behind
  obtain rfl := Option.some.inj same
  rw [ofGrammar, ← eq_map_of_mapM (fun _ _ => Family.eq_ofFamily) found,
    ← eq_map_of_mapM (fun _ _ => Use.eq_ofUse) foundUses]

/-- The families of a document that declares a grammar are those of the grammar. -/
theorem families_eq_of_grammar? {document : Document} {grammar : Grammar}
    (declares : document.grammar? = some grammar) :
    document.families = grammar.families.map Family.ofFamily :=
  congrArg Document.families (eq_ofGrammar declares)

/-! ## What is looked up in a document -/

theorem TypeForm.shown_ofType (type : TypeRef) : (ofType type).shown = type := by
  induction type with
  | named name => rfl
  | sequence element ih => rw [ofType, shown, ih]
  | optional inner ih => rw [ofType, shown, ih]

theorem filterMap_eq_of_forall {α β : Type} {find? : α → Option β} {form : β → α}
    (each : ∀ item, find? (form item) = some item) (list : List β) :
    (list.map form).filterMap find? = list := by
  rw [List.filterMap_map, show find? ∘ form = some from funext each, List.filterMap_some]

theorem Family.declared?_ofFamily (family : TreeGrammar.Family) :
    (ofFamily family).declared? = some family := by
  have fields : ∀ variant : TreeGrammar.Variant,
      (variant.fields.map Field.ofField).map Field.shown = variant.fields := by
    intro variant
    rw [List.map_map, List.map_congr_left (g := id) fun field _ => ?_, List.map_id]
    exact congrArg (TreeGrammar.Field.mk field.name) (TypeForm.shown_ofType field.type)
  have variants : ∀ variant, (Variant.ofVariant variant).declared? = some variant := by
    intro variant
    rw [Variant.declared?, Variant.ofVariant, Json.text?, Option.map_some, fields]
  rw [Family.declared?, ofFamily, Json.text?, Option.map_some, filterMap_eq_of_forall variants]

/-- The name stands inside the form, at any depth. -/
inductive TypeForm.Mentions (name : Text) : TypeForm → Prop
  | named : Mentions name (.named (.value (.text name)))
  | sequence {element : TypeForm} (inside : Mentions name element) :
      Mentions name (.sequence element)
  | optional {inner : TypeForm} (inside : Mentions name inner) : Mentions name (.optional inner)

/-- The name stands inside the type of a field of the family. -/
def Family.Mentions (family : Family) (name : Text) : Prop :=
  ∃ variant ∈ family.variants, ∃ field ∈ variant.fields, field.type.Mentions name

theorem TypeForm.mentions_iff {form : TypeForm} {name : Text} :
    form.Mentions name ↔ form.name = .ok name := by
  constructor
  · intro mentions
    induction mentions with
    | named => rfl
    | sequence inside ih => exact ih
    | optional inside ih => exact ih
  · intro named
    induction form with
    | value content => cases named
    | named inner =>
        cases inner with
        | value content =>
            cases content with
            | text other => obtain rfl := Except.ok.inj named; exact .named
            | _ => cases named
        | _ => cases named
    | sequence element ih => exact .sequence (ih named)
    | optional inner ih => exact .optional (ih named)

/-- The name inside a form is also the name inside what is shown of it. -/
theorem TypeForm.name_shown {form : TypeForm} {name : Text} (mentions : form.Mentions name) :
    form.shown.name = name := by
  induction mentions with
  | named => rfl
  | sequence inside ih => exact ih
  | optional inside ih => exact ih

theorem Family.mentions_iff {family : Family}
    (named : ∀ form ∈ family.types, ∃ name, form.Mentions name) {name : Text} :
    family.Mentions name ↔ name ∈ family.shown.referredNames := by
  have names : family.shown.referredNames = family.types.map fun form => form.shown.name := by
    simp [Family.shown, Variant.shown, Field.shown, TreeGrammar.Family.referredNames, types,
      List.flatMap_map, List.map_flatMap, Function.comp_def]
  have forms : family.Mentions name ↔ ∃ form ∈ family.types, form.Mentions name := by
    simp [Mentions, types]
    tauto
  rw [forms, names, List.mem_map]
  refine exists_congr fun form => and_congr_right fun member => ?_
  obtain ⟨inside, mentions⟩ := named form member
  constructor
  · exact TypeForm.name_shown
  · intro same
    rw [← same, TypeForm.name_shown mentions]
    exact mentions

theorem needComparable_eq_ok_iff {names : List Json} :
    needComparable names = .ok () ↔ ∀ name ∈ names, isComparable name = true := by
  unfold needComparable
  split
  · next all => exact iff_of_true rfl (List.all_eq_true.1 all)
  · next some => exact iff_of_false nofun fun all => some (List.all_eq_true.2 all)

variable {document : Document} {family : Family} {imports : List (TreeGrammar.Family × List Text)}

/-- When imports are collected, and which. -/
theorem familyImports_eq_ok_iff :
    document.familyImports family = .ok imports ↔
      (∀ form ∈ family.types, ∃ name, form.Mentions name) ∧
        (∀ other ∈ document.families, isComparable other.name = true) ∧
        (∀ other ∈ document.families,
          other.name ∈ (document.declared.familyImports family.shown).map
              (fun entry => Json.text entry.1.name) →
            ∀ variant ∈ other.variants, isComparable variant.name = true) ∧
        document.declared.familyImports family.shown = imports := by
  have named : ∀ form : TypeForm,
      (form.name.map fun _ => ()) = .ok () ↔ ∃ name, form.Mentions name := by
    intro form
    simp only [TypeForm.mentions_iff]
    cases form.name with
    | ok name => exact iff_of_true rfl ⟨name, rfl⟩
    | error fault => exact iff_of_false nofun fun ⟨name, found⟩ => nomatch found
  have asked : (family.types.forM fun form => form.name.map fun _ => ()) = .ok () ↔
      ∀ form ∈ family.types, ∃ name, form.Mentions name :=
    forM_eq_ok_iff.trans (forall₂_congr fun form _ => named form)
  have looked : ∀ wanted : List Json,
      needComparable ((document.families.filter (·.name ∈ wanted)).flatMap fun other =>
        other.variants.map Variant.name) = .ok () ↔
      ∀ other ∈ document.families, other.name ∈ wanted →
        ∀ variant ∈ other.variants, isComparable variant.name = true := by
    intro wanted
    simp only [needComparable_eq_ok_iff, List.forall_mem_flatMap, List.mem_filter,
      decide_eq_true_eq, List.forall_mem_map, and_imp]
  rw [familyImports, check_eq_ok_iff, check_eq_ok_iff, check_eq_ok_iff, asked, looked,
    needComparable_eq_ok_iff, List.forall_mem_map]
  exact and_congr_right fun _ => and_congr_right fun _ => and_congr_right fun _ =>
    ⟨Except.ok.inj, congrArg _⟩

/-! ## Valid documents -/

/-- What the checks of a document ensure for the imports of its families. -/
structure Importable (document : Document) : Prop where
  named : document.declared.familyNames.map Json.text = document.families.map Family.name
  distinct : [] ∉ document.declared.familyNames → document.declared.familyNames.Nodup
  apart : ∀ other ∈ document.declared.families, (other.name :: other.variantNames).Nodup
  collected : ∀ family ∈ document.families, ∃ imports, document.familyImports family = .ok imports

theorem Family.mentions_ofFamily (family : TreeGrammar.Family) :
    ∀ form ∈ (ofFamily family).types, ∃ name, form.Mentions name := by
  intro form member
  obtain ⟨variant, isVariant, isType⟩ := List.mem_flatMap.1 member
  obtain ⟨declared, -, rfl⟩ := List.mem_map.1 isVariant
  obtain ⟨field, isField, rfl⟩ := List.mem_map.1 isType
  obtain ⟨declaredField, -, rfl⟩ := List.mem_map.1 isField
  refine ⟨declaredField.type.name, ?_⟩
  rw [Field.ofField]
  induction declaredField.type with
  | named name => exact .named
  | sequence element ih => exact .sequence ih
  | optional inner ih => exact .optional ih

/-- A valid grammar's families have what is needed, however it came to be declared. -/
theorem importable_of_grammar {grammar : Grammar} (valid : grammar.validate = .ok ())
    (families : document.families = grammar.families.map .ofFamily) : document.Importable := by
  have declared : document.declared.families = grammar.families := by
    rw [Document.declared, families, filterMap_eq_of_forall Family.declared?_ofFamily]
  have names : document.declared.familyNames = grammar.familyNames := by
    rw [Grammar.familyNames, declared, Grammar.familyNames]
  constructor
  · rw [names, families, Grammar.familyNames, List.map_map, List.map_map]
    rfl
  · rw [names]
    exact Grammar.familyNames_nodup_of_validate valid
  · rw [declared]
    exact fun other member => (Grammar.admits_of_validate valid other member).nodup_names member
  · rw [families, List.forall_mem_map]
    refine fun family _ => ⟨_, familyImports_eq_ok_iff.2
      ⟨Family.mentions_ofFamily family, ?_, ?_, rfl⟩⟩
    · rw [families, List.forall_mem_map]
      exact fun other _ => rfl
    · rw [families, List.forall_mem_map]
      intro other _ _ variant isVariant
      obtain ⟨declared, -, rfl⟩ := List.mem_map.1 isVariant
      rfl

theorem any_same_text {names : List Json} {name : Text} :
    names.any (Json.same (.text name)) = true ↔ .text name ∈ names := by
  have same : ∀ other : Json, Json.same (.text name) other = decide (Json.text name = other) :=
    fun other => rfl
  simp only [List.any_eq_true, same, decide_eq_true_eq, exists_eq_right']

theorem checkVariants_cons_eq_ok_iff {taken seen : List Json} {name : Text} {variant : Variant}
    {rest : List Variant} :
    checkVariants taken name seen (variant :: rest) = .ok () ↔
      needComparable [variant.name] = .ok () ∧ seen.any (Json.same variant.name) = false ∧
        taken.any (Json.same variant.name) = false ∧
        checkVariants taken name (variant.name :: seen) rest = .ok () := by
  rw [checkVariants, check_eq_ok_iff, mapError_eq_ok_iff]
  refine and_congr_right fun _ => ?_
  cases seen.any (Json.same variant.name) with
  | true => exact iff_of_false nofun fun passed => nomatch passed.1
  | false =>
      cases taken.any (Json.same variant.name) with
      | true => exact iff_of_false nofun fun passed => nomatch passed.2.1
      | false => exact ⟨fun passed => ⟨rfl, rfl, passed⟩, fun passed => passed.2.2⟩

/-- Those variants whose names are texts are named apart from each other, from those in `seen` and
from what is taken. -/
theorem names_of_checkVariants {taken seen : List Json} {name : Text} {variants : List Variant}
    (passed : checkVariants taken name seen variants = .ok ()) :
    (variants.filterMap (·.name.text?)).Nodup ∧
      ∀ name ∈ variants.filterMap (·.name.text?), .text name ∉ seen ∧ .text name ∉ taken := by
  induction variants generalizing seen with
  | nil => simp
  | cons variant rest ih =>
      obtain ⟨-, unseen, free, others⟩ := checkVariants_cons_eq_ok_iff.1 passed
      obtain ⟨distinct, each⟩ := ih others
      cases named : variant.name.text? with
      | none =>
          rw [List.filterMap_cons_none (f := fun variant : Variant => variant.name.text?) named]
          exact ⟨distinct, fun other member =>
            ⟨fun isSeen => (each other member).1 (List.mem_cons_of_mem _ isSeen),
              (each other member).2⟩⟩
      | some own =>
          have isOwn := eq_of_text? named
          rw [isOwn, ← Bool.not_eq_true, any_same_text] at unseen free
          rw [List.filterMap_cons_some (f := fun variant : Variant => variant.name.text?) named,
            List.nodup_cons, List.forall_mem_cons]
          refine ⟨⟨fun twice => ?_, distinct⟩, ⟨unseen, free⟩, fun other member =>
            ⟨fun isSeen => (each other member).1 (List.mem_cons_of_mem _ isSeen),
              (each other member).2⟩⟩
          exact (each own twice).1 (isOwn ▸ List.mem_cons_self)

/-- What the check of a family ensures for the imports. -/
theorem facts_of_checkFamily {modules : List (Text × Text)} (member : family ∈ document.families)
    (passed : document.checkFamily modules family = .ok ()) :
    family.name = .text family.shown.name ∧
      Grammar.holder? modules family.shown.moduleName = none ∧
      (family.shown.name :: family.variants.filterMap (·.name.text?)).Nodup ∧
      ∃ imports, document.familyImports family = .ok imports := by
  simp only [checkFamily, bind_eq_ok_iff, mapError_eq_ok_iff] at passed
  obtain ⟨⟨⟩, isText, ⟨⟩, free, -, -, -, -, -, -, imports, found, variants⟩ := passed
  have isName : family.name = .text family.shown.name := by
    cases named : family.name with
    | text name => rw [Family.shown, named, Json.inserted]
    | _ => rw [named] at isText; cases isText
  obtain ⟨distinct, each⟩ := names_of_checkVariants variants
  have taken : Json.text family.shown.name ∈
      document.takenNames family (imports.flatMap Prod.snd) := by
    have listed : Json.text family.shown.name ∈ document.families.map Family.name :=
      isName ▸ List.mem_map_of_mem member
    exact List.mem_append_left _ (List.mem_append_right _ listed)
  exact ⟨isName, ((Grammar.checkModule_eq_ok_iff modules family.shown).1 free).2,
    List.nodup_cons.2 ⟨fun isVariant => (each _ isVariant).2 taken, distinct⟩, imports, found⟩

theorem facts_of_checkFamilies {modules : List (Text × Text)} {families : List Family}
    (subset : families ⊆ document.families)
    (passed : document.checkFamilies modules families = .ok ()) :
    Grammar.FreeModules modules (families.map Family.shown) ∧
      ∀ family ∈ families, family.name = .text family.shown.name ∧
        (family.shown.name :: family.variants.filterMap (·.name.text?)).Nodup ∧
        ∃ imports, document.familyImports family = .ok imports := by
  induction families generalizing modules with
  | nil => exact ⟨trivial, nofun⟩
  | cons family rest ih =>
      rw [checkFamilies, check_eq_ok_iff] at passed
      obtain ⟨isName, free, distinct, collected⟩ :=
        facts_of_checkFamily (subset List.mem_cons_self) passed.1
      obtain ⟨others, each⟩ := ih (fun _ member => subset (List.mem_cons_of_mem _ member)) passed.2
      exact ⟨⟨free, others⟩, List.forall_mem_cons.2 ⟨⟨isName, distinct, collected⟩, each⟩⟩

/-- The names of a declared family. -/
theorem names_declared {declared : TreeGrammar.Family} (found : family.declared? = some declared) :
    declared.name = family.shown.name ∧
      declared.variantNames = family.variants.filterMap (·.name.text?) := by
  obtain ⟨name, named, rfl⟩ := Option.map_eq_some_iff.1 found
  refine ⟨by rw [Family.shown, eq_of_text? named, Json.inserted], ?_⟩
  rw [TreeGrammar.Family.variantNames, List.map_filterMap]
  refine List.filterMap_congr fun variant _ => ?_
  rw [Variant.declared?, Option.map_map]
  exact Option.map_id'

theorem importable_of_checkFamilies
    (passed : document.checkFamilies [] document.families = .ok ()) : document.Importable := by
  obtain ⟨free, each⟩ := facts_of_checkFamilies (List.Subset.refl _) passed
  have names : document.declared.familyNames = document.families.map (·.shown.name) := by
    rw [Grammar.familyNames, Document.declared, List.map_filterMap, ← List.filterMap_eq_map]
    refine List.filterMap_congr fun family member => ?_
    rw [Family.declared?, (each family member).1, Json.text?, Option.map_some]
    rfl
  constructor
  · rw [names, List.map_map]
    exact List.map_congr_left fun family member => (each family member).1.symm
  · intro named
    rw [names] at named ⊢
    have modules := free.nodup (List.forall_mem_map.2 fun family member nameless =>
      named (nameless ▸ List.mem_map_of_mem (f := fun family : Family => family.shown.name) member))
    have snake : (document.families.map Family.shown).map TreeGrammar.Family.moduleName =
        (document.families.map (·.shown.name)).map Text.snakeCase := by
      rw [List.map_map, List.map_map]
      rfl
    exact List.Nodup.of_map _ (snake ▸ modules)
  · intro other isOther
    obtain ⟨family, member, found⟩ := List.mem_filterMap.1 isOther
    obtain ⟨name, variants⟩ := names_declared found
    rw [name, variants]
    exact (each family member).2.1
  · exact fun family member => (each family member).2.2

theorem importable_of_validate (valid : document.validate = .ok ()) : document.Importable := by
  rw [validate] at valid
  split at valid
  · next grammar declares =>
    exact importable_of_grammar (mapError_eq_ok_iff.1 valid) (families_eq_of_grammar? declares)
  · exact importable_of_checkFamilies (check_eq_ok_iff.1 valid).2

/-- **The imports of a valid document's family** are collected without a fault, and they are
exact. -/
theorem Importable.exactImports (importable : document.Importable)
    (named : .text [] ∉ document.families.map Family.name) (member : family ∈ document.families) :
    ∃ imports, document.familyImports family = .ok imports ∧
      ExactImports document.declared.families family.shown.name family.Mentions imports := by
  obtain ⟨imports, found⟩ := importable.collected family member
  obtain ⟨types, -, -, rfl⟩ := familyImports_eq_ok_iff.1 found
  have isNamed : [] ∉ document.declared.familyNames := fun nameless =>
    named (importable.named ▸ List.mem_map_of_mem nameless)
  exact ⟨_, found, Grammar.exactImports_of_distinct (fun _ => Family.mentions_iff types) isNamed
    (importable.distinct isNamed) importable.apart⟩

end Document

/-- **Imports are exact.**  In a valid grammar whose families have names, the imports of each family
list those other families, and those of their names, that the names inside its field types speak
of, in the order of the grammar and without repetition.  In a valid document the same holds of the
families and variants that have texts for names, which all of its families do; there collecting
the imports ends in no fault. -/
theorem familyImports_exact :
    (∀ grammar : Grammar, grammar.validate = .ok () → [] ∉ grammar.familyNames →
      ∀ family ∈ grammar.families, ExactImports grammar.families family.name family.Mentions
        (grammar.familyImports family)) ∧
    ∀ document : Document, document.validate = .ok () →
      .text [] ∉ document.families.map Document.Family.name →
      document.declared.familyNames.map Json.text = document.families.map Document.Family.name ∧
      ∀ family ∈ document.families, ∃ imports, document.familyImports family = .ok imports ∧
        ExactImports document.declared.families family.shown.name family.Mentions imports := by
  constructor
  · intro grammar valid named family member
    exact Grammar.exactImports_of_distinct (fun _ => Family.mentions_iff) named
      (Grammar.familyNames_nodup_of_validate valid named) fun other isOther =>
        (Grammar.admits_of_validate valid other isOther).nodup_names isOther
  · intro document valid named
    have importable := Document.importable_of_validate valid
    exact ⟨importable.named, fun family member => importable.exactImports named member⟩

/-- A family that speaks of another family at two depths and of a variant that this family has,
beside a variant whose name is a number. -/
def numberedFamily : Document.Family :=
  ⟨.text ['E'], [⟨.text ['A'], [⟨.text ['x'], .named (.value (.text "G.B"))⟩,
    ⟨.text ['y'], .sequence (.optional (.named (.value (.text ['G']))))⟩]⟩]⟩

def numberedDocument : Document :=
  ⟨[numberedFamily, ⟨.text ['G'], [⟨.number 5, []⟩, ⟨.text ['B'], []⟩]⟩], []⟩

theorem numberedDocument_imports :
    (Grammar.narrowGrammar.validate = .ok () ∧ [] ∉ Grammar.narrowGrammar.familyNames ∧
      ExactImports Grammar.narrowGrammar.families ['E'] Grammar.speakingFamily.Mentions
        (Grammar.narrowGrammar.familyImports Grammar.speakingFamily)) ∧
    numberedDocument.grammar? = none ∧ numberedDocument.validate = .ok () ∧
      .text [] ∉ numberedDocument.families.map Document.Family.name ∧
      ∃ imports, numberedDocument.familyImports numberedFamily = .ok imports ∧
        ExactImports numberedDocument.declared.families ['E'] numberedFamily.Mentions imports := by
  have valid : Grammar.narrowGrammar.validate = .ok () := by decide +kernel
  have named : [] ∉ Grammar.narrowGrammar.familyNames := by decide
  have documentValid : numberedDocument.validate = .ok () := by rfl
  have documentNamed : Json.text [] ∉ numberedDocument.families.map Document.Family.name := by
    decide
  exact ⟨⟨valid, named, familyImports_exact.1 _ valid named _ List.mem_cons_self⟩, rfl,
    documentValid, documentNamed,
    (familyImports_exact.2 _ documentValid documentNamed).2 _ List.mem_cons_self⟩

end TreeGrammar
