/-
# TreeGrammar.Proofs.NodeModule.Builtins -- builtins and declared names

A generated module relies on builtins: on the types of scalars in its annotations, on `tuple`
and `object` where a node stores its sequences, on `type` in the list of its variants.  And a
grammar may declare names that scalars have.  Scalars come first: what is called like one is
annotated as one, everything else that is declared by its own name.  A builtin that is not
declared keeps its meaning in all modules (`scalarsFirst_of_load`); nothing is promised of
one that is.
-/
import TreeGrammar.Proofs.NodeModule.Annotations
import TreeGrammar.Proofs.NodeModule.Bindings

set_option autoImplicit false

namespace TreeGrammar

/-- The names that the class of a variant binds itself. -/
def Variant.classNames (variant : Variant) : List Text :=
  variant.fieldNames ++ ["__post_init__".toList, "accept".toList]

namespace Grammar

/-- The builtins that are called, or that stand in annotations besides the scalars. -/
def calledBuiltins : List Text :=
  ["tuple", "object", "type"]

/-- The builtins that generated modules rely on. -/
def reliedBuiltins : List Text :=
  TypeRef.builtinScalars ++ calledBuiltins

/-- The names of the families, of all variants, and the used names. -/
def declaredNames (grammar : Grammar) : List Text :=
  grammar.familyNames ++ grammar.families.flatMap Family.variantNames ++ grammar.usedNames

/-- The name means a builtin in the family's module, in a place where the names in `inner` are bound
besides those of the module. -/
structure MeansBuiltin (grammar : Grammar) (family : Family) (inner : List Text) (name : Text) :
    Prop where
  builtin : name ∈ reliedBuiltins
  unbound : ∀ binding ∈ grammar.bindings family, binding.name ≠ name
  unhidden : name ∉ inner

/-- Scalars come first, and keep their meaning unless a builtin's own name is declared. -/
structure ScalarsFirst (grammar : Grammar) : Prop where
  /-- The one builtin that is a keyword is not declared. -/
  keyword : "None".toList ∉ grammar.declaredNames
  /-- What refers to a family or to a used name is annotated by the name, scalars apart. -/
  annotated : ∀ type : TypeRef, type.name ∈ grammar.familyNames ++ grammar.usedNames →
    bare (type.hint grammar.familyNames) = (TypeRef.scalarHint? type.name).getD type.name
  /-- A scalar is annotated by its builtin, and this means the builtin where it stands, unless a
  family, a variant, a used name or a field of the class has its name. -/
  scalars : ∀ family ∈ grammar.families, ∀ variant ∈ family.variants,
    ∀ field ∈ variant.fields, ∀ hint, TypeRef.scalarHint? field.type.name = some hint →
      bare (field.type.hint grammar.familyNames) = hint ∧
        (hint ∉ grammar.declaredNames → hint ∉ variant.fieldNames →
          grammar.MeansBuiltin family variant.classNames hint)
  /-- The methods of a node call the builtins, unless these names are declared. -/
  calls : ∀ family ∈ grammar.families, ∀ name ∈ calledBuiltins, name ∉ grammar.declaredNames →
    grammar.MeansBuiltin family ["self"] name

variable {grammar : Grammar} {family : Family} {name hint : Text}

theorem mem_declaredNames_iff :
    name ∈ grammar.declaredNames ↔
      (∃ family ∈ grammar.families, name = family.name ∨ name ∈ family.variantNames) ∨
        name ∈ grammar.usedNames := by
  simp only [declaredNames, familyNames, List.mem_append, List.mem_map, List.mem_flatMap]
  constructor
  · rintro ((⟨family, member, rfl⟩ | ⟨family, member, isVariant⟩) | used)
    · exact .inl ⟨family, member, .inl rfl⟩
    · exact .inl ⟨family, member, .inr isVariant⟩
    · exact .inr used
  · rintro (⟨family, member, rfl | isVariant⟩ | used)
    · exact .inl (.inl ⟨family, member, rfl⟩)
    · exact .inl (.inr ⟨family, member, isVariant⟩)
    · exact .inr used

theorem declared_isName (wellFormed : grammar.WellFormed)
    (declared : name ∈ grammar.declaredNames) : IsName name := by
  rcases mem_declaredNames_iff.1 declared with ⟨family, member, rfl | isVariant⟩ | used
  · exact (wellFormed.families family member).name
  · exact (wellFormed.families family member).isName_of_variant isVariant
  · obtain ⟨use, isUse, listed⟩ := List.mem_flatMap.1 used
    exact (wellFormed.uses use isUse).names name listed

/-- Scalars are annotated before families and used names are looked at. -/
theorem bare_hint_of_declared (wellFormed : grammar.WellFormed) {type : TypeRef}
    (declared : type.name ∈ grammar.declaredNames) :
    bare (type.hint grammar.familyNames) = (TypeRef.scalarHint? type.name).getD type.name := by
  -- an identifier has neither a blank nor a point in it
  have identifier := (declared_isName wellFormed declared).1
  rw [bare_hint_of_solid (Text.quiet_of_isIdentifier identifier).solid]
  exact nameHint_unpointed (Text.unpointed_of_isIdentifier identifier)

/-! ## Builtins -/

theorem builtin_of_called (called : name ∈ calledBuiltins) : name ∈ reliedBuiltins :=
  List.mem_append_right _ called

theorem visitorName_not_builtin (family : Family) : family.visitorName ∉ reliedBuiltins :=
  visitorName_not_mem (by decide +kernel) family

/-- What a module binds is declared by the grammar, or has a name that is made for the module. -/
theorem declared_of_bound (member : family ∈ grammar.families) {binding : Binding}
    (bound : binding ∈ grammar.bindings family) :
    binding.name ∈ grammar.declaredNames ∨ binding.name = family.visitorName ∨
      binding.name = "VARIANTS".toList ∨ binding.name = "dispatch".toList := by
  rw [bindings, List.mem_append, List.mem_append] at bound
  rcases bound with (used | imported) | declared
  · exact .inl (mem_declaredNames_iff.2 (.inr (name_used used)))
  · obtain ⟨entry, isImport, name, listed, rfl⟩ := mem_importedBindings_iff.1 imported
    have isFamily := (imported_other isImport).1
    have declares := imported_declared isImport listed
    exact .inl (mem_declaredNames_iff.2 (.inl ⟨entry.1, isFamily, declares⟩))
  · cases name_declared declared with
    | inr isVariant => exact .inl (mem_declaredNames_iff.2 (.inl ⟨family, member, .inr isVariant⟩))
    | inl isOwn =>
        simp only [ownNames, List.mem_cons, List.not_mem_nil, or_false] at isOwn
        refine isOwn.imp_left fun isName => ?_
        exact mem_declaredNames_iff.2 (.inl ⟨family, member, .inl isName⟩)

/-- A builtin that is not declared is bound nowhere. -/
theorem unbound_of_undeclared (member : family ∈ grammar.families)
    (builtin : name ∈ reliedBuiltins) (undeclared : name ∉ grammar.declaredNames) :
    ∀ binding ∈ grammar.bindings family, binding.name ≠ name := by
  rintro binding bound rfl
  rcases declared_of_bound member bound with declared | visitor | variants | dispatch
  · exact undeclared declared
  · exact visitorName_not_builtin family (visitor ▸ builtin)
  · exact absurd (variants ▸ builtin) (by decide)
  · exact absurd (dispatch ▸ builtin) (by decide)

theorem not_mem_classNames {variant : Variant} (builtin : name ∈ reliedBuiltins)
    (other : name ∉ variant.fieldNames) : name ∉ variant.classNames := by
  have apart : ∀ builtin ∈ reliedBuiltins, builtin ∉ ["__post_init__".toList, "accept".toList] := by
    decide
  exact List.not_mem_append other (apart name builtin)

/-- **Scalars and declared names.**  A grammar that has been loaded does not declare `None`.  What
refers to a family or a used name is annotated by this name, or as a scalar if it is called like
one.  A scalar's annotation means a builtin unless a family, a variant, a used name or a field of
the class is called like the builtin, and the calls that store sequences mean builtins unless a
family, a variant or a used name is called so. -/
theorem scalarsFirst_of_load {text : Text} (loaded : load text = .ok grammar) :
    grammar.ScalarsFirst := by
  have wellFormed := wellFormed_of_load loaded
  constructor
  · intro declared
    exact absurd (declared_isName wellFormed declared).2 (by decide)
  · intro type declared
    apply bare_hint_of_declared wellFormed
    rw [declaredNames, List.append_assoc]
    refine List.mem_append.2 ((List.mem_append.1 declared).imp_right ?_)
    exact List.mem_append_right _
  · intro family member variant isVariant field isField hint scalar
    have own := (wellFormed.families family member).variants variant isVariant
    have builtin : hint ∈ reliedBuiltins :=
      List.mem_append_left _ (builtin_of_scalarHint? scalar)
    constructor
    · rw [bare_hint (own.fields field isField).type, nameHint, scalar]
    · intro undeclared other
      exact ⟨builtin, unbound_of_undeclared member builtin undeclared,
        not_mem_classNames builtin other⟩
  · intro family member name called undeclared
    have builtin := builtin_of_called called
    have noSelf : ∀ builtin ∈ calledBuiltins, builtin ∉ ["self".toList] := by decide
    exact ⟨builtin, unbound_of_undeclared member builtin undeclared, noSelf name called⟩

/-- A family that is named like a scalar and refers to itself, with a variant named like another. -/
def objectFamily : Family :=
  ⟨"Object", [⟨"Nil", [⟨['x'], .named "Object"⟩]⟩]⟩

/-- A family whose class hides the builtin that its nodes call. -/
def tupleFamily : Family :=
  ⟨"tuple", [⟨['A'], [⟨['x'], .sequence (.named ['T'])⟩]⟩]⟩

theorem builtin_names_declared :
    (load "Object \x7b Nil: Object x \x7d" = .ok ⟨[objectFamily], []⟩ ∧
      TypeRef.isScalar "Nil" = true ∧ "Nil".toList ∈ objectFamily.variantNames ∧
      bare (TypeRef.hint [objectFamily.name] (.named objectFamily.name)) ≠ objectFamily.name) ∧
    load "tuple \x7b A: List<T> x \x7d" = .ok ⟨[tupleFamily], []⟩ ∧
      ¬ MeansBuiltin ⟨[tupleFamily], []⟩ tupleFamily ["self"] "tuple" := by
  refine ⟨⟨by decide +kernel, by decide, by decide, fun same => ?_⟩, by decide +kernel,
    fun means => ?_⟩
  · have parts : "bject".toList.all TypeRef.isWordPart = true := by decide
    have named : TypeRef.IsTypeName (TypeRef.named objectFamily.name).name :=
      .inl ⟨'O', "bject".toList, rfl, by decide, List.all_eq_true.1 parts⟩
    rw [bare_hint named] at same
    exact absurd same (by decide)
  · exact means.unbound ⟨"tuple", .declared 0⟩ (by decide +kernel) rfl

/-- A family named like a scalar, a variant named like another, a reference to the family, a scalar
and a sequence. -/
def literalGrammar : Grammar :=
  ⟨[⟨"Number", [⟨"Nil", [⟨['x'], .optional (.named "Number")⟩, ⟨['y'], .named "String"⟩,
      ⟨['z'], .sequence (.named ['T'])⟩]⟩]⟩], [⟨['m'], [['T']]⟩]⟩

/-- A text that is loaded as `literalGrammar`. -/
def literalText : Text :=
  "use m: T\nNumber \x7b Nil: Number? x, String y, List<T> z \x7d"

theorem literalGrammar_scalarsFirst :
    load literalText = .ok literalGrammar ∧ literalGrammar.ScalarsFirst ∧
      ∀ name ∈ reliedBuiltins, name ∉ literalGrammar.declaredNames := by
  have loaded : load literalText = .ok literalGrammar := by decide +kernel
  exact ⟨loaded, scalarsFirst_of_load loaded, by decide⟩

end Grammar

end TreeGrammar
