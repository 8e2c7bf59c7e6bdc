/-
# TreeGrammar.Proofs.NodeModule.Freezing -- what a node holds once it is made

The annotation of a field says `tuple` wherever its type has a sequence, at any depth.
The statements that store tuples look at the outside of the type only, and tuple what is
given there without what is inside.  So a node that is made of lists holds tuples where
its annotations say so just if no sequence stands further inside its field types
(`holdsTuples_iff`).
-/
import Mathlib.Logic.Function.Basic
import TreeGrammar.Proofs.NodeModule.Annotations

set_option autoImplicit false

namespace TreeGrammar

/-! ## Values and statements -/

/-- A value that a node may be made of. -/
inductive Value where
  | absent
  | atom (name : Text)
  | list (items : List Value)
  | tuple (items : List Value)

/-- What a node holds under the names of its fields. -/
abbrev Values := Text → Value

namespace Value

/-- The tuple of the value's items; an absent value and an atom have none. -/
def tupled? : Value → Option Value
  | .absent | .atom _ => none
  | .list items | .tuple items => some (.tuple items)

/-- The value itself, but a tuple for a list. -/
def frozen : Value → Value
  | .list items => .tuple items
  | other => other

end Value

/-- A statement that stores a tuple.  It fails if it asks for the items of a value without items. -/
def Freeze.run (values : Values) : Freeze → Option Values
  | .always field => (values field).tupled?.map (Function.update values field)
  | .ifPresent field =>
      match values field with
      | .absent => some values
      | other => other.tupled?.map (Function.update values field)

/-- What a node of the class holds when its statements have run on the values it is given. -/
def NodeClass.make? (node : NodeClass) (given : Values) : Option Values :=
  node.freezes.foldlM Freeze.run given

namespace TypeRef

/-- The value has the shape of the type: items for a sequence, which all fit, and for an optional
type a value that fits, or none. -/
def Fits : TypeRef → Value → Prop
  | .named _, _ => True
  | .sequence element, value =>
      ∃ items, (value = .list items ∨ value = .tuple items) ∧ ∀ item ∈ items, element.Fits item
  | .optional inner, value => value = .absent ∨ inner.Fits value

/-- What is stored for a value of the type. -/
def stored : TypeRef → Value → Value
  | .sequence _, value | .optional (.sequence _), value => value.frozen
  | _, value => value

end TypeRef

/-! ## Making a node -/

section Making

variable {element : TypeRef} {value : Value}

namespace Freeze

variable {field : Text} {values : Values}

theorem run_always (fits : (TypeRef.sequence element).Fits (values field)) :
    run values (.always field) = some (Function.update values field (values field).frozen) := by
  obtain ⟨items, is | is, -⟩ := fits <;> rw [run, is] <;> rfl

theorem run_ifPresent (fits : (TypeRef.optional (.sequence element)).Fits (values field)) :
    run values (.ifPresent field) = some (Function.update values field (values field).frozen) := by
  cases fits with
  | inl absent =>
      have same : Function.update values field .absent = values := by
        rw [← absent, Function.update_eq_self]
      simp only [run, absent, Value.frozen, same]
  | inr present =>
      obtain ⟨items, is | is, -⟩ := present <;> rw [run, is] <;> rfl

end Freeze

/-- **One field.**  Its statement, if it has one, succeeds on a value that fits, and changes nothing
but what is stored under the field's name. -/
theorem Field.run_freeze? {field : Field} {values : Values}
    (fits : field.type.Fits (values field.name)) :
    field.freeze?.toList.foldlM Freeze.run values =
      some (Function.update values field.name (field.type.stored (values field.name))) := by
  obtain ⟨name, type⟩ := field
  have unchanged : some values = some (Function.update values name (values name)) := by
    rw [Function.update_eq_self]
  cases type with
  | named _ => exact unchanged
  | sequence element => exact (bind_pure _).trans (Freeze.run_always fits)
  | optional inner =>
      cases inner with
      | named _ => exact unchanged
      | optional _ => exact unchanged
      | sequence element => exact (bind_pure _).trans (Freeze.run_ifPresent fits)

/-- **All fields.**  The statements of a class succeed on values that fit, and each of its fields
holds what is stored for its type. -/
theorem run_freezes {fields : List Field} {given : Values}
    (distinct : (fields.map Field.name).Nodup)
    (fits : ∀ field ∈ fields, field.type.Fits (given field.name)) :
    ∃ held, (fields.filterMap Field.freeze?).foldlM Freeze.run given = some held ∧
      (∀ field ∈ fields, held field.name = field.type.stored (given field.name)) ∧
      ∀ name ∉ fields.map Field.name, held name = given name := by
  induction fields generalizing given with
  | nil => exact ⟨given, rfl, by simp, fun _ _ => rfl⟩
  | cons field rest ih =>
      rw [List.map_cons, List.nodup_cons] at distinct
      obtain ⟨new, distinct⟩ := distinct
      rw [List.forall_mem_cons] at fits
      let value := field.type.stored (given field.name)
      have elsewhere : ∀ name, name ≠ field.name →
          Function.update given field.name value name = given name :=
        fun name other => Function.update_of_ne other ..
      have apart : ∀ other ∈ rest, other.name ≠ field.name :=
        fun other member same => new (same ▸ List.mem_map_of_mem member)
      have othersFit : ∀ other ∈ rest,
          other.type.Fits (Function.update given field.name value other.name) := by
        intro other member
        rw [elsewhere _ (apart other member)]
        exact fits.2 other member
      obtain ⟨held, ran, each, others⟩ := ih distinct othersFit
      refine ⟨held, ?_, List.forall_mem_cons.2 ⟨?_, ?_⟩, ?_⟩
      · have split : (field :: rest).filterMap Field.freeze? =
            field.freeze?.toList ++ rest.filterMap Field.freeze? := by
          cases found : field.freeze? <;> simp [found]
        rw [split, List.foldlM_append, Field.run_freeze? fits.1]
        exact ran
      · rw [others _ new, Function.update_self]
      · intro other member
        rw [each other member, elsewhere _ (apart other member)]
      · intro name unlisted
        rw [List.map_cons, List.mem_cons, not_or] at unlisted
        rw [others name unlisted.2, elsewhere name unlisted.1]

end Making

/-! ## What annotations say -/

/-- The value has tuples where the annotation says so. -/
inductive Conforms : Text → Value → Prop
  | tuple {element : Text} {items : List Value} (each : ∀ item ∈ items, Conforms element item) :
      Conforms (sequenceHint element) (.tuple items)
  | absent {inner : Text} : Conforms (optionalHint inner) .absent
  | present {inner : Text} {value : Value} (conforms : Conforms inner value) :
      Conforms (optionalHint inner) value
  /-- An annotation without wrappers says nothing about tuples. -/
  | bare {hint : Text} {value : Value} (whole : unwrapped? hint = none) : Conforms hint value

theorem sequenceHint_ne_optionalHint (element inner : Text) :
    sequenceHint element ≠ optionalHint inner := by
  intro same
  have inside := unwrapped?_sequenceHint element
  rw [same, unwrapped?_optionalHint] at inside
  obtain rfl := Option.some.inj inside
  have lengths := congrArg List.length same
  rw [sequenceHint_eq, optionalHint_eq] at lengths
  simp at lengths

theorem conforms_sequenceHint {element : Text} {value : Value} :
    Conforms (sequenceHint element) value ↔
      ∃ items, value = .tuple items ∧ ∀ item ∈ items, Conforms element item := by
  constructor
  · generalize whole : sequenceHint element = hint
    have inside := whole ▸ unwrapped?_sequenceHint element
    intro conforms
    cases conforms with
    | @tuple other items each =>
        rw [unwrapped?_sequenceHint] at inside
        exact ⟨items, rfl, Option.some.inj inside ▸ each⟩
    | absent => exact absurd whole (sequenceHint_ne_optionalHint _ _)
    | present => exact absurd whole (sequenceHint_ne_optionalHint _ _)
    | bare none => exact absurd (none.symm.trans inside) (by simp)
  · rintro ⟨items, rfl, each⟩
    exact .tuple each

theorem conforms_optionalHint {inner : Text} {value : Value} :
    Conforms (optionalHint inner) value ↔ value = .absent ∨ Conforms inner value := by
  constructor
  · generalize whole : optionalHint inner = hint
    have inside := whole ▸ unwrapped?_optionalHint inner
    intro conforms
    cases conforms with
    | tuple => exact absurd whole.symm (sequenceHint_ne_optionalHint _ _)
    | absent => exact .inl rfl
    | present conforms =>
        rw [unwrapped?_optionalHint] at inside
        exact .inr (Option.some.inj inside ▸ conforms)
    | bare none => exact absurd (none.symm.trans inside) (by simp)
  · rintro (rfl | conforms)
    · exact .absent
    · exact .present conforms

/-! ## When nodes hold tuples -/

namespace TypeRef

/-- No sequence stands in the type. -/
def plain : TypeRef → Bool
  | .named _ => true
  | .sequence _ => false
  | .optional inner => inner.plain

/-- No sequence stands in the type but the one that is stored as a tuple. -/
def shallow : TypeRef → Bool
  | .sequence element | .optional (.sequence element) => element.plain
  | other => other.plain

/-- A value of the type with a list for each sequence. -/
def listed : TypeRef → Value
  | .named name => .atom name
  | .sequence element => .list [element.listed]
  | .optional inner => inner.listed

variable {families : List Text} {type element : TypeRef} {value : Value}

theorem fits_listed (type : TypeRef) : type.Fits type.listed := by
  induction type with
  | named name => trivial
  | sequence element ih => exact ⟨_, .inl rfl, List.forall_mem_singleton.2 ih⟩
  | optional inner ih => exact .inr ih

theorem listed_ne_absent (type : TypeRef) : type.listed ≠ .absent := by
  induction type with
  | named name => exact Value.noConfusion
  | sequence element ih => exact Value.noConfusion
  | optional inner ih => exact ih

theorem conforms_of_plain (named : IsTypeName type.name) (plain : type.plain = true) :
    Conforms (type.hint families) value := by
  induction type with
  | named name => exact .bare (unwrapped?_of_solid (solid_nameHint named.quiet.solid))
  | sequence element ih => exact absurd plain Bool.false_ne_true
  | optional inner ih => exact .present (ih named plain)

/-- Nothing in a list is a tuple, so a type whose lists conform has none. -/
theorem plain_of_conforms (conforms : Conforms (type.hint families) type.listed) :
    type.plain = true := by
  induction type with
  | named name => rfl
  | sequence element ih =>
      obtain ⟨items, is, -⟩ := conforms_sequenceHint.1 conforms
      exact absurd is Value.noConfusion
  | optional inner ih =>
      exact ih ((conforms_optionalHint.1 conforms).resolve_left (listed_ne_absent _))

theorem conforms_frozen (named : IsTypeName element.name) (plain : element.plain = true)
    (fits : (TypeRef.sequence element).Fits value) :
    Conforms (sequenceHint (element.hint families)) value.frozen := by
  obtain ⟨items, rfl | rfl, -⟩ := fits <;>
    exact .tuple fun item _ => conforms_of_plain named plain

theorem plain_of_conforms_frozen
    (conforms : Conforms (sequenceHint (element.hint families)) (sequence element).listed.frozen) :
    element.plain = true := by
  obtain ⟨items, is, each⟩ := conforms_sequenceHint.1 conforms
  obtain rfl := Value.tuple.inj is
  exact plain_of_conforms (each _ List.mem_cons_self)

/-- What is stored for a shallow type conforms to its annotation. -/
theorem conforms_stored (named : IsTypeName type.name) (isShallow : type.shallow = true)
    (fits : type.Fits value) : Conforms (type.hint families) (type.stored value) := by
  cases type with
  | named name => exact conforms_of_plain named isShallow
  | sequence element => exact conforms_frozen named isShallow fits
  | optional inner =>
      cases inner with
      | named name => exact conforms_of_plain named isShallow
      | optional inner => exact conforms_of_plain named isShallow
      | sequence element =>
          cases fits with
          | inl absent => exact absent ▸ .absent
          | inr present => exact .present (conforms_frozen named isShallow present)

theorem shallow_of_conforms (conforms : Conforms (type.hint families) (type.stored type.listed)) :
    type.shallow = true := by
  cases type with
  | named name => rfl
  | sequence element => exact plain_of_conforms_frozen conforms
  | optional inner =>
      cases inner with
      | named name => rfl
      | optional inner => exact plain_of_conforms conforms
      | sequence element =>
          have present := (conforms_optionalHint.1 conforms).resolve_left Value.noConfusion
          exact plain_of_conforms_frozen present

end TypeRef

/-- For each field a value of its type with a list for each sequence. -/
def Variant.lists (variant : Variant) (name : Text) : Value :=
  match variant.fields.find? (·.name = name) with
  | some field => field.type.listed
  | none => .absent

theorem Variant.lists_eq {variant : Variant} {field : Field} (distinct : variant.fieldNames.Nodup)
    (member : field ∈ variant.fields) : variant.lists field.name = field.type.listed := by
  unfold lists
  split
  · next other found =>
    have same : other.name = field.name := by simpa using List.find?_some found
    rw [List.inj_on_of_nodup_map distinct (List.mem_of_find?_eq_some found) member same]
  · next missing =>
    have differs := List.find?_eq_none.1 missing field member
    simp at differs

/-- **When nodes hold tuples.**  The statements of a variant's class succeed on all values that fit
its field types; they leave a tuple wherever an annotation says so, whatever the values, just if no
field type has a sequence further inside than the one that is stored as a tuple. -/
theorem holdsTuples_iff {families : List Text} {family : Family} {variant : Variant}
    (distinct : variant.fieldNames.Nodup)
    (named : ∀ field ∈ variant.fields, TypeRef.IsTypeName field.type.name) :
    (∀ given : Values, (∀ field ∈ variant.fields, field.type.Fits (given field.name)) →
      ∃ held, (family.nodeClass families variant).make? given = some held ∧
        ∀ entry ∈ (family.nodeClass families variant).fields, Conforms entry.2 (held entry.1)) ↔
      ∀ field ∈ variant.fields, field.type.shallow = true := by
  constructor
  · -- a list wherever a sequence may stand shows what is not tupled
    intro holds field member
    have fits : ∀ field ∈ variant.fields, field.type.Fits (variant.lists field.name) :=
      fun field member => Variant.lists_eq distinct member ▸ TypeRef.fits_listed _
    obtain ⟨held, made, conforms⟩ := holds variant.lists fits
    obtain ⟨other, ran, each, -⟩ := run_freezes distinct fits
    obtain rfl := Option.some.inj (made.symm.trans ran)
    have stored := conforms _ (List.mem_map_of_mem member)
    rw [each field member, Variant.lists_eq distinct member] at stored
    exact TypeRef.shallow_of_conforms stored
  · intro shallow given fits
    obtain ⟨held, made, each, -⟩ := run_freezes distinct fits
    refine ⟨held, made, ?_⟩
    intro entry isEntry
    obtain ⟨field, member, rfl⟩ := List.mem_map.1 isEntry
    rw [each field member]
    exact TypeRef.conforms_stored (named field member) (shallow field member) (fits field member)

/-- A variant with a sequence, an optional one and two types without a sequence. -/
def shallowVariant : Variant :=
  ⟨['A'], [⟨"xs", .sequence (.optional (.named ['X']))⟩, ⟨"ys", .optional (.sequence (.named "E"))⟩,
    ⟨"zs", .optional (.optional (.named "Number"))⟩, ⟨['e'], .named ['E']⟩]⟩

def shallowFamily : Family :=
  ⟨['E'], [shallowVariant]⟩

def shallowText : Text :=
  "E \x7b A: List<X?> xs, List<E>? ys, Optional<Number?> zs, E e \x7d"

theorem shallowVariant_holdsTuples :
    Grammar.load shallowText = .ok ⟨[shallowFamily], []⟩ ∧
      (∀ field ∈ shallowVariant.fields, TypeRef.IsTypeName field.type.name) ∧
      ∀ given : Values,
        (∀ field ∈ shallowVariant.fields, field.type.Fits (given field.name)) →
          ∃ held, (shallowFamily.nodeClass [['E']] shallowVariant).make? given = some held ∧
            ∀ entry ∈ (shallowFamily.nodeClass [['E']] shallowVariant).fields,
              Conforms entry.2 (held entry.1) := by
  have loaded : Grammar.load shallowText = .ok ⟨[shallowFamily], []⟩ := by decide +kernel
  have grammarWellFormed := Grammar.wellFormed_of_load loaded
  have wellFormed : shallowVariant.WellFormed :=
    (grammarWellFormed.families _ List.mem_cons_self).variants _ List.mem_cons_self
  have named : ∀ field ∈ shallowVariant.fields, TypeRef.IsTypeName field.type.name :=
    fun field member => (wellFormed.fields field member).type
  exact ⟨loaded, named, (holdsTuples_iff wellFormed.distinct named).2 (by decide)⟩

/-- A variant with a sequence of sequences. -/
def nestedVariant : Variant :=
  ⟨['A'], [⟨"xs", .sequence (.sequence (.named ['X']))⟩]⟩

def nestedFamily : Family :=
  ⟨['E'], [nestedVariant]⟩

/-- A list inside the list that the field is given stays a list. -/
theorem nested_list_kept :
    Grammar.load "E \x7b A: List<List<X>> xs \x7d" = .ok ⟨[nestedFamily], []⟩ ∧
      (∀ field ∈ nestedVariant.fields, field.type.Fits (nestedVariant.lists field.name)) ∧
      ∃ held, (nestedFamily.nodeClass [['E']] nestedVariant).make? nestedVariant.lists = some held ∧
        held "xs" = .tuple [.list [.atom ['X']]] ∧
        ∃ entry ∈ (nestedFamily.nodeClass [['E']] nestedVariant).fields,
          ¬ Conforms entry.2 (held entry.1) := by
  have fits : ∀ field ∈ nestedVariant.fields, field.type.Fits (nestedVariant.lists field.name) :=
    List.forall_mem_singleton.2 (TypeRef.fits_listed _)
  obtain ⟨held, made, each, -⟩ := run_freezes (by decide) fits
  have stored := each _ List.mem_cons_self
  refine ⟨by decide +kernel, fits, held, made, stored, _, List.mem_cons_self, ?_⟩
  intro conforms
  rw [stored] at conforms
  exact absurd (TypeRef.shallow_of_conforms conforms) (by decide)

end TreeGrammar
