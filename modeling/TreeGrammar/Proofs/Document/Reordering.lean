/-
# TreeGrammar.Proofs.Document.Reordering -- validity does not depend on the order in a document

What holds of grammars in another order (`Grammar.Reordered.valid_iff`) holds of documents with
texts in all places of names as well (`validate_reordered`).  Such a document is valid only if it
declares a grammar, and a document that has the same declarations in another order then declares
this grammar in another order.
-/
import TreeGrammar.Proofs.Document.Imports
import TreeGrammar.Proofs.Document.RoundTrip
import TreeGrammar.Proofs.Grammar.Reordering
import TreeGrammar.Proofs.NodeModule.Rendering

set_option autoImplicit false

namespace TreeGrammar

/-! ## Lists of one form in another order -/

theorem exists_map_of_perm {α β : Type} {form : α → β} {items : List α} {list : List β}
    (perm : (items.map form).Perm list) :
    ∃ others, list = others.map form ∧ items.Perm others := by
  have found : Relation.Comp (· = List.map form ·) List.Perm list items := by
    rw [List.eq_map_comp_perm]
    exact perm.symm
  obtain ⟨others, same, back⟩ := found
  exact ⟨others, same, back.symm⟩

theorem Shuffled.exists_map {α β : Type} {Related : β → β → Prop} {Alike : α → α → Prop}
    {form : α → β} {items : List α} {list : List β}
    (shuffled : Shuffled Related (items.map form) list)
    (each : ∀ {item other}, Related (form item) other →
      ∃ content, other = form content ∧ Alike item content) :
    ∃ others, list = others.map form ∧ Shuffled Alike items others := by
  obtain ⟨middle, related, perm⟩ := shuffled
  have found : ∃ contents, middle = contents.map form ∧ List.Forall₂ Alike items contents := by
    rw [List.forall₂_map_left_iff] at related
    clear perm
    induction related with
    | nil => exact ⟨[], rfl, .nil⟩
    | cons head _ ih =>
        obtain ⟨content, rfl, alike⟩ := each head
        obtain ⟨contents, rfl, others⟩ := ih
        exact ⟨content :: contents, rfl, .cons alike others⟩
  obtain ⟨contents, rfl, alike⟩ := found
  obtain ⟨others, rfl, same⟩ := exists_map_of_perm perm
  exact ⟨others, rfl, contents, alike, same⟩

namespace Document

/-! ## Documents in another order -/

structure Variant.Reordered (first second : Variant) : Prop where
  name : first.name = second.name
  fields : first.fields.Perm second.fields

structure Family.Reordered (first second : Family) : Prop where
  name : first.name = second.name
  variants : Shuffled Variant.Reordered first.variants second.variants

structure Use.Reordered (first second : Use) : Prop where
  path : first.path = second.path
  names : first.names.Perm second.names

/-- The same declarations in whatever order. -/
structure Reordered (first second : Document) : Prop where
  families : Shuffled Family.Reordered first.families second.families
  uses : Shuffled Use.Reordered first.uses second.uses

theorem Variant.Reordered.symm {first second : Variant} (reordered : first.Reordered second) :
    second.Reordered first :=
  ⟨reordered.name.symm, reordered.fields.symm⟩

theorem Family.Reordered.symm {first second : Family} (reordered : first.Reordered second) :
    second.Reordered first :=
  ⟨reordered.name.symm, reordered.variants.symm Variant.Reordered.symm⟩

theorem Use.Reordered.symm {first second : Use} (reordered : first.Reordered second) :
    second.Reordered first :=
  ⟨reordered.path.symm, reordered.names.symm⟩

theorem Reordered.symm {first second : Document} (reordered : first.Reordered second) :
    second.Reordered first :=
  ⟨reordered.families.symm Family.Reordered.symm, reordered.uses.symm Use.Reordered.symm⟩

/-! ## Grammars that documents declare -/

theorem Variant.Reordered.exists_variant {variant : TreeGrammar.Variant} {other : Variant}
    (reordered : (ofVariant variant).Reordered other) :
    ∃ declared, other = ofVariant declared ∧ variant.Reordered declared := by
  obtain ⟨name, fields⟩ := other
  obtain ⟨named, perm⟩ := reordered
  obtain rfl : _ = name := named
  obtain ⟨declared, rfl, same⟩ := exists_map_of_perm perm
  exact ⟨⟨variant.name, declared⟩, rfl, rfl, same⟩

theorem Family.Reordered.exists_family {family : TreeGrammar.Family} {other : Family}
    (reordered : (ofFamily family).Reordered other) :
    ∃ declared, other = ofFamily declared ∧ family.Reordered declared := by
  obtain ⟨name, variants⟩ := other
  obtain ⟨named, shuffled⟩ := reordered
  obtain rfl : _ = name := named
  obtain ⟨declared, rfl, same⟩ := shuffled.exists_map Variant.Reordered.exists_variant
  exact ⟨⟨family.name, declared⟩, rfl, rfl, same⟩

theorem Use.Reordered.exists_use {use : TreeGrammar.Use} {other : Use}
    (reordered : (ofUse use).Reordered other) :
    ∃ declared, other = ofUse declared ∧ use.Reordered declared := by
  obtain ⟨path, names⟩ := other
  obtain ⟨spelled, perm⟩ := reordered
  obtain rfl : _ = path := spelled
  obtain ⟨declared, rfl, same⟩ := exists_map_of_perm perm
  exact ⟨⟨use.path, declared⟩, rfl, rfl, same⟩

theorem Reordered.exists_grammar {grammar : Grammar} {other : Document}
    (reordered : (ofGrammar grammar).Reordered other) :
    ∃ declared, other = ofGrammar declared ∧ grammar.Reordered declared := by
  obtain ⟨families, uses⟩ := other
  obtain ⟨families, declared, same⟩ := reordered.families.exists_map Family.Reordered.exists_family
  obtain ⟨uses, declaredUses, sameUses⟩ := reordered.uses.exists_map Use.Reordered.exists_use
  exact ⟨⟨families, uses⟩, by rw [ofGrammar, ← declared, ← declaredUses], same, sameUses⟩

/-- The documents of a grammar and of the same grammar in another order. -/
theorem reordered_ofGrammar {grammar reordered : Grammar} (same : grammar.Reordered reordered) :
    (ofGrammar grammar).Reordered (ofGrammar reordered) := by
  constructor
  · refine same.families.map fun family => ⟨congrArg Json.text family.name, ?_⟩
    exact family.variants.map fun variant => ⟨congrArg Json.text variant.name, variant.fields.map _⟩
  · exact same.uses.map fun use => ⟨congrArg Json.text use.path, use.names.map _⟩

/-! ## Validity -/

variable {document other : Document}

/-- In another order texts still stand in all places of names. -/
theorem Reordered.textual (reordered : document.Reordered other) (textual : document.Textual) :
    other.Textual := by
  have families := reordered.families
  constructor
  · exact (families.forall_iff fun related => by rw [related.name]).1 textual.families
  · refine (families.forall_iff fun related => ?_).1 textual.variants
    exact related.variants.forall_iff fun alike => by rw [alike.name]
  · refine (families.forall_iff fun related => ?_).1 textual.fields
    refine related.variants.forall_iff fun alike => ?_
    exact forall_congr' fun field => imp_congr_left alike.fields.mem_iff
  · refine (reordered.uses.forall_iff fun related => ?_).1 textual.uses
    rw [related.path]
    exact and_congr_right fun _ => forall_congr' fun name => imp_congr_left related.names.mem_iff

theorem validate_ofGrammar (grammar : Grammar) :
    (ofGrammar grammar).validate = .ok () ↔ grammar.validate = .ok () :=
  validate_declared_iff (grammar?_ofGrammar grammar)

theorem Reordered.valid (reordered : document.Reordered other) (textual : document.Textual)
    (valid : document.validate = .ok ()) : other.validate = .ok () := by
  obtain ⟨grammar, declares, grammarValid⟩ := grammar_of_validate textual valid
  obtain rfl := eq_ofGrammar declares
  obtain ⟨declared, rfl, same⟩ := reordered.exists_grammar
  exact (validate_ofGrammar declared).2 (same.valid_iff.1 grammarValid)

end Document

/-- **Validity does not depend on the order of declarations.**  Of two grammars that have the same
families, variants, fields, uses and used names in different orders either both are valid or
neither is; and so it is for documents with texts in all places of names. -/
theorem validate_reordered :
    (∀ grammar reordered : Grammar, grammar.Reordered reordered →
      (grammar.validate = .ok () ↔ reordered.validate = .ok ())) ∧
    ∀ document reordered : Document, document.Textual → document.Reordered reordered →
      (document.validate = .ok () ↔ reordered.validate = .ok ()) :=
  ⟨fun _ _ same => same.valid_iff, fun _ _ textual same =>
    ⟨same.valid textual, same.symm.valid (same.textual textual)⟩⟩

/-- Two families without a name around one that refers to a variant of its own, to a used name and
to the nameless families. -/
def scatteredGrammar : Grammar :=
  ⟨[⟨[], [⟨['A'], []⟩]⟩, ⟨['E'], [⟨['A'], [⟨['x'], .named ['T']⟩, ⟨['y'], .named []⟩]⟩,
    ⟨['B'], [⟨['z'], .named ['E', '.', 'A']⟩]⟩]⟩, ⟨[], [⟨['C'], []⟩]⟩],
    [⟨['m'], [['T'], ['U']]⟩, ⟨['n'], [['V']]⟩]⟩

/-- The same declarations back to front. -/
def reversedGrammar : Grammar :=
  ⟨[⟨[], [⟨['C'], []⟩]⟩, ⟨['E'], [⟨['B'], [⟨['z'], .named ['E', '.', 'A']⟩]⟩,
    ⟨['A'], [⟨['y'], .named []⟩, ⟨['x'], .named ['T']⟩]⟩]⟩, ⟨[], [⟨['A'], []⟩]⟩],
    [⟨['n'], [['V']]⟩, ⟨['m'], [['U'], ['T']]⟩]⟩

theorem reversedGrammar_valid :
    scatteredGrammar.Reordered reversedGrammar ∧ reversedGrammar.validate = .ok () ∧
      (Document.ofGrammar scatteredGrammar).Textual ∧
      (Document.ofGrammar scatteredGrammar).Reordered (Document.ofGrammar reversedGrammar) ∧
      (Document.ofGrammar reversedGrammar).validate = .ok () := by
  have valid : scatteredGrammar.validate = .ok () := by decide +kernel
  have documentValid : (Document.ofGrammar scatteredGrammar).validate = .ok () :=
    (Document.validate_ofGrammar _).2 valid
  have single : ∀ variant : Variant, Shuffled Variant.Reordered [variant] [variant] :=
    fun variant => ⟨[variant], .cons ⟨rfl, .refl _⟩ .nil, .refl _⟩
  have variants : Shuffled Variant.Reordered scatteredGrammar.families[1].variants
      reversedGrammar.families[1].variants :=
    ⟨reversedGrammar.families[1].variants.reverse,
      .cons ⟨rfl, .swap _ _ _⟩ (.cons ⟨rfl, .refl _⟩ .nil), List.reverse_perm _⟩
  have same : scatteredGrammar.Reordered reversedGrammar :=
    ⟨⟨reversedGrammar.families.reverse,
        .cons ⟨rfl, single _⟩ (.cons ⟨rfl, variants⟩ (.cons ⟨rfl, single _⟩ .nil)),
        List.reverse_perm _⟩,
      ⟨reversedGrammar.uses.reverse, .cons ⟨rfl, .swap _ _ _⟩ (.cons ⟨rfl, .refl _⟩ .nil),
        List.reverse_perm _⟩⟩
  have textual : (Document.ofGrammar scatteredGrammar).Textual :=
    ⟨by decide, by decide, by decide, by decide⟩
  have documentSame := Document.reordered_ofGrammar same
  exact ⟨same, (validate_reordered.1 _ _ same).1 valid, textual, documentSame,
    (validate_reordered.2 _ _ textual documentSame).1 documentValid⟩

end TreeGrammar
