/-
# TreeGrammar.Proofs.Grammar.Printer -- what is printed on one line

The fields, variants and uses of a well-formed grammar are printed as they may be written in
a layout, each on one line.  Where a blank stands behind a comma it is counted to the part
that follows.
-/
import TreeGrammar.Grammar.Printer
import TreeGrammar.Proofs.Grammar.Completeness

set_option autoImplicit false

namespace TreeGrammar

open Grammar
open Text (AllBlank SolidEnds Unbroken)

theorem listed_spaced {α : Type} {Written : α → Text → Prop} {print : α → Text} {items : List α}
    (inhabited : items ≠ [])
    (each : ∀ item ∈ items, ∀ front, AllBlank front → Written item (front ++ print item))
    {front : Text} (blank : AllBlank front) :
    Listed Written items (front ++ Text.join [',', ' '] (items.map print)) := by
  obtain ⟨item, rest, rfl⟩ := List.exists_cons_of_ne_nil inhabited
  rw [List.forall_mem_cons] at each
  rw [List.map_cons, Text.join_spaced, Text.append_join]
  refine ⟨_, _, .cons (each.1 front blank) ?_, rfl⟩
  rw [List.forall₂_map_left_iff, List.forall₂_map_left_iff]
  exact List.forall₂_same.2 fun other member => each.2 other member [' '] Text.allBlank_space

/-! ## Fields -/

section Fields

variable {field : Field}

theorem TypeRef.unbroken_text {type : TypeRef} (named : TypeRef.IsTypeName type.name) :
    Unbroken type.text := by
  have close : Unbroken ['>'] := by decide
  induction type with
  | named name => exact named.quiet.unbroken
  | sequence element ih =>
      have word : Unbroken "List<".toList := by decide
      exact (word.append (ih named)).append close
  | optional inner ih =>
      have word : Unbroken "Optional<".toList := by decide
      exact (word.append (ih named)).append close

theorem Field.text_eq (field : Field) : field.text = field.type.text ++ [' '] ++ field.name :=
  rfl

theorem Field.text_ne_nil (field : Field) : field.text ≠ [] := by
  simp [Field.text_eq]

theorem Field.WellFormed.solidEnds (wellFormed : field.WellFormed) : SolidEnds field.text := by
  have spelled := TypeRef.spells_text wellFormed.type
  exact spelled.solidEnds.around [' '] wellFormed.name.solidEnds spelled.ne_nil
    wellFormed.name.ne_nil

theorem Field.WellFormed.unbroken (wellFormed : field.WellFormed) : Unbroken field.text := by
  have space : Unbroken [' '] := by decide
  exact ((TypeRef.unbroken_text wellFormed.type).append space).append
    wellFormed.name.quiet.unbroken

/-- A field is printed as it may be written, also behind blanks. -/
theorem Field.written_text (wellFormed : field.WellFormed) {front : Text} (blank : AllBlank front) :
    field.Written (front ++ field.text) :=
  ⟨_, [' '], TypeRef.spells_text wellFormed.type, Text.allBlank_space, by simp,
    (Text.padded_self _).behind blank⟩

end Fields

/-! ## Variants -/

section Variants

variable {variant : Variant}

/-- The fields of a variant as they are printed. -/
def Variant.fieldList (variant : Variant) : Text :=
  Text.join [',', ' '] (variant.fields.map Field.text)

theorem Variant.text_eq (variant : Variant) :
    variant.text = variant.name ++ ':' :: Text.trimEnd (' ' :: variant.fieldList) := by
  rw [← Text.trimEnd_append_cons (by decide), Variant.text, List.append_assoc]
  rfl

/-- The blank behind the colon goes if there are no fields. -/
theorem Variant.WellFormed.fieldsWritten (wellFormed : variant.WellFormed) :
    FieldsWritten variant.fields (Text.trimEnd (' ' :: variant.fieldList)) := by
  by_cases bare : variant.fields = []
  · rw [Variant.fieldList, bare]
    exact .empty Text.allBlank_nil
  · have solid : SolidEnds variant.fieldList := by
      refine Text.solidEnds_join fun part listed => ?_
      obtain ⟨field, member, rfl⟩ := List.mem_map.1 listed
      exact ⟨field.text_ne_nil, (wellFormed.fields field member).solidEnds⟩
    have there : variant.fieldList ≠ [] := by
      obtain ⟨field, rest, fielded⟩ := List.exists_cons_of_ne_nil bare
      rw [Variant.fieldList, fielded, List.map_cons]
      exact Text.join_ne_nil field.text_ne_nil
    have kept : Text.trimEnd (' ' :: variant.fieldList) = ' ' :: variant.fieldList := by
      refine Text.trimEnd_of_back fun c last => solid.back c ?_
      rwa [List.getLast?_cons_of_ne_nil there] at last
    rw [kept]
    exact .listed (listed_spaced bare
      (fun field member _ => Field.written_text (wellFormed.fields field member))
      Text.allBlank_space)

/-- **A variant is printed as it may be written**, also behind blanks. -/
theorem Variant.written_text (wellFormed : variant.WellFormed) {front : Text}
    (blank : AllBlank front) : variant.Written (front ++ variant.text) := by
  refine ⟨front ++ variant.name, _, (Text.padded_self _).behind blank, wellFormed.fieldsWritten, ?_⟩
  rw [Variant.text_eq, List.append_assoc]

theorem Variant.WellFormed.unbroken (wellFormed : variant.WellFormed) : Unbroken variant.text := by
  have fields : Unbroken variant.fieldList := by
    refine Text.unbroken_join (by decide) fun part listed => ?_
    obtain ⟨field, member, rfl⟩ := List.mem_map.1 listed
    exact (wellFormed.fields field member).unbroken
  have colon : Unbroken ": ".toList := by decide
  have whole := (wellFormed.name.quiet.unbroken.append colon).append fields
  exact fun c member => whole c (Text.trimEnd_subset _ member)

end Variants

/-! ## Uses -/

section Uses

variable {use : Use}

/-- **A use is printed as it may be written.** -/
theorem Use.written_text (wellFormed : use.WellFormed) : use.Written use.text := by
  have listed : Listed Text.Padded use.names (' ' :: Text.join [',', ' '] (use.names.map id)) :=
    listed_spaced wellFormed.inhabited (fun _ _ _ => (Text.padded_self _).behind)
      Text.allBlank_space
  rw [List.map_id] at listed
  refine ⟨[], use.path, _, Text.allBlank_nil, Text.padded_self _, listed, ?_⟩
  change "use ".toList ++ use.path ++ ": ".toList ++ Text.join ", " use.names = _
  rw [List.append_assoc]
  rfl

theorem Use.WellFormed.unbroken (wellFormed : use.WellFormed) : Unbroken use.text := by
  have names : Unbroken (Text.join ", " use.names) :=
    Text.unbroken_join (by decide) fun name member =>
      (wellFormed.names name member).quiet.unbroken
  have word : Unbroken "use ".toList := by decide
  have colon : Unbroken ": ".toList := by decide
  exact ((word.append wellFormed.quiet_path.unbroken).append colon).append names

end Uses

end TreeGrammar
