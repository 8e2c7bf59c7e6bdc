/-
# TreeGrammar.Proofs.Grammar.Line -- what the lines of a grammar are read as

For each reader of `Grammar.Line` one equivalence: it answers with a value just if the
text has the parts of that value and each part passes its checks.  A type on its own is
read from its spellings alone, and any other text is refused (`readType_spellings`).
-/
import TreeGrammar.Grammar.Line
import TreeGrammar.Proofs.Grammar.Validity
import TreeGrammar.Proofs.TypeRef.Spelling

set_option autoImplicit false

namespace TreeGrammar

/-- Where a refusal ends a reading, only the other branch answers. -/
theorem refuse_eq_ok_iff {ε γ β : Type} {refused : Prop} [Decidable refused] {fault : ε}
    {next : γ → Except ε β} {rest : Except ε β} {result : β} :
    (if refused then (throw fault : Except ε γ) >>= next else rest) = .ok result ↔
      ¬ refused ∧ rest = .ok result := by
  by_cases isRefused : refused
  · simp only [isRefused, if_true, not_true, false_and, iff_false]
    intro answered
    cases answered
  · simp [isRefused]

namespace Grammar

/-- An identifier that is no keyword. -/
def IsName (name : Text) : Prop :=
  Text.isIdentifier name = true ∧ name ∉ keywords

theorem IsName.ne_nil {name : Text} (named : IsName name) : name ≠ [] :=
  Text.ne_nil_of_isIdentifier named.1

theorem checkName_eq_ok_iff {role : Role} {name : Text} {number : LineNumber} :
    checkName role name number = .ok () ↔ IsName name := by
  unfold checkName IsName
  split
  · next other => simp_all
  · next identifier => simp_all

theorem checkNames_eq_ok_iff {role : Role} {names : List Text} {number : LineNumber} :
    checkNames role names number = .ok () ↔ ∀ name ∈ names, IsName name := by
  simp only [checkNames, List.forM_eq_forM, forM_eq_ok_iff, checkName_eq_ok_iff]

/-! ## Types on their own -/

theorem readType_eq_ok_iff {text : Text} {type : TypeRef} :
    readType text = .ok type ↔ TypeRef.Spells type (Text.trim text) := by
  rw [← TypeRef.parse_eq_ok_iff, readType]
  cases TypeRef.parse text <;> simp

/-- What is no type is refused with its text. -/
theorem readType_of_unspelled {text : Text}
    (unspelled : ∀ type, ¬ TypeRef.Spells type (Text.trim text)) :
    ∃ fault, readType text = .error (.malformedLine (.type fault) (Text.trim text) none) := by
  rw [readType]
  cases parsed : TypeRef.parse text with
  | ok type => exact absurd (TypeRef.parse_eq_ok_iff.1 parsed) (unspelled type)
  | error fault => exact ⟨fault, rfl⟩

/-- **Which texts are types.**  A text is read as a type exactly if, without the blanks around it,
it spells that type.  No text spells two types, every type with a type name is read back from its
printed text, and a text that spells none is refused, with the text shown without its blanks. -/
theorem readType_spellings :
    (∀ text type, readType text = .ok type ↔ TypeRef.Spells type (Text.trim text)) ∧
      (∀ text type other, TypeRef.Spells type text → TypeRef.Spells other text → type = other) ∧
      (∀ type : TypeRef, TypeRef.IsTypeName type.name →
        TypeRef.Spells type type.text ∧ readType type.text = .ok type) ∧
      ∀ text, (∀ type, ¬ TypeRef.Spells type (Text.trim text)) →
        ∃ fault, readType text = .error (.malformedLine (.type fault) (Text.trim text) none) := by
  refine ⟨fun _ _ => readType_eq_ok_iff, fun _ _ _ => TypeRef.Spells.unique, fun type named => ?_,
    fun _ => readType_of_unspelled⟩
  have spelled := TypeRef.spells_text named
  refine ⟨spelled, readType_eq_ok_iff.2 ?_⟩
  rwa [Text.trim_of_solidEnds spelled.solidEnds]

/-- A list of optional types with blanks between all its tokens is read, and a second question mark
behind a type is refused. -/
theorem spaced_type_read :
    TypeRef.Spells (.optional (.sequence (.optional (.named "E.B")))) "Sequence < E.B ? > ?" ∧
      ∃ fault, readType " A?? " = .error (.malformedLine (.type fault) "A??" none) := by
  obtain ⟨read, -, -, refused⟩ := readType_spellings
  refine ⟨(read "\tSequence < E.B ? > ?\n" _).1 (by decide +kernel), refused " A?? " ?_⟩
  intro type spelled
  have twice : readType " A?? " = .error (.malformedLine (.type (.trailing ['?'])) "A??" none) := by
    decide +kernel
  exact absurd (twice.symm.trans ((read _ _).2 spelled)) (by simp)

end Grammar

open Grammar

variable {source : Text} {number : LineNumber}

theorem Field.parse_eq_ok_iff {variant : Text} {before : List Field} {entry : Text}
    {field : Field} :
    Field.parse variant before source number entry = .ok field ↔
      ∃ type, Text.cutLastWord? entry = some (type, field.name) ∧ IsName field.name ∧
        field.name ∉ reservedFields ∧ field.name ∉ before.map Field.name ∧
        TypeRef.parse type = .ok field.type := by
  unfold Field.parse
  cases Text.cutLastWord? entry with
  | none => simp
  | some parts =>
      obtain ⟨type, name⟩ := parts
      simp only [check_eq_ok_iff, refuse_eq_ok_iff, checkName_eq_ok_iff]
      constructor
      · rintro ⟨named, free, new, parsed⟩
        split at parsed
        · exact absurd parsed (by simp)
        · next found read =>
          obtain rfl := Except.ok.inj parsed
          exact ⟨type, rfl, named, free, new, read⟩
      · rintro ⟨spelled, same, named, free, new, read⟩
        obtain ⟨rfl, rfl⟩ := Prod.mk.inj (Option.some.inj same)
        rw [read]
        exact ⟨named, free, new, rfl⟩

/-- The entries for the fields of a variant line, behind its colon. -/
def Variant.entries (after : Text) : List Text :=
  if Text.trim after = [] then [] else Text.split ',' (Text.trim after)

theorem Variant.parse_eq_ok_iff {line : Text} {variant : Variant} :
    Variant.parse line number source = .ok variant ↔
      ∃ before after, Text.cut ':' line = (before, some after) ∧ Text.trim before = variant.name ∧
        IsName variant.name ∧
        Field.parseAll variant.name source number [] (Variant.entries after) =
          .ok variant.fields := by
  unfold Variant.parse
  rcases Text.cut ':' line with ⟨before, _ | after⟩
  · simp
  · simp only [refuse_eq_ok_iff, check_eq_ok_iff, checkName_eq_ok_iff]
    simp only [bind_eq_ok_iff]
    constructor
    · rintro ⟨-, named, fields, parsed, same⟩
      obtain rfl := Except.ok.inj same
      exact ⟨before, after, rfl, rfl, named, parsed⟩
    · rintro ⟨front, back, same, trimmed, named, parsed⟩
      obtain ⟨rfl, rfl⟩ : before = front ∧ after = back := by simpa using same
      rw [trimmed]
      exact ⟨named.ne_nil, named, variant.fields, parsed, rfl⟩

/-- The names behind the colon of a use line. -/
def Use.entries (after : Text) : List Text :=
  ((Text.split ',' after).map Text.trim).filter (· ≠ [])

theorem Use.parse_eq_ok_iff {line : Text} {use : Use} :
    Use.parse line number = .ok use ↔
      ∃ before after,
        Text.cut ':' (Text.trim (Text.dropStart "use" (Text.trim line))) = (before, some after) ∧
        Text.trim before = use.path ∧ Use.entries after = use.names ∧
        (Text.split '.' use.path).all Text.isIdentifier = true ∧ use.names ≠ [] ∧
        ∀ name ∈ use.names, IsName name := by
  unfold Use.parse
  rcases Text.cut ':' (Text.trim (Text.dropStart "use" (Text.trim line))) with ⟨before, after⟩
  simp only [refuse_eq_ok_iff, check_eq_ok_iff, checkNames_eq_ok_iff, not_or]
  constructor
  · rintro ⟨⟨present, -, inhabited⟩, parts, named, same⟩
    obtain ⟨behind, rfl⟩ := Option.ne_none_iff_exists'.1 present
    obtain rfl := Except.ok.inj same
    exact ⟨before, behind, rfl, rfl, rfl, by simpa using parts, inhabited, named⟩
  · rintro ⟨front, behind, same, trimmed, listed, parts, inhabited, named⟩
    obtain ⟨rfl, rfl⟩ := Prod.mk.inj same
    rcases use with ⟨path, names⟩
    obtain rfl : Text.trim before = path := trimmed
    obtain rfl : Use.entries behind = names := listed
    -- the only part of an empty path is empty, which is no identifier
    have path : Text.trim before ≠ [] := by
      intro empty
      simp [empty, Text.split, Text.isIdentifier] at parts
    exact ⟨⟨(by simp), path, inhabited⟩, by simpa using parts, named, rfl⟩

end TreeGrammar
