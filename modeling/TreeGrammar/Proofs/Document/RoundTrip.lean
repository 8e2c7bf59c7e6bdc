/-
# TreeGrammar.Proofs.Document.RoundTrip -- printed grammars are read back

A grammar that is printed as JSON, in whatever layout, is read back as the same grammar
(`parse_print_ofGrammar`).  Its names may be any texts, and its types may be nested to any depth.

Each kind of object is read back from its JSON with the members in any order, since members are
asked for by their keys; the theorem about JSON text does the rest.
-/
import TreeGrammar.Document.Codec
import TreeGrammar.Proofs.Json.RoundTrip

set_option autoImplicit false

namespace TreeGrammar.Document

open Json (IsTextual arranged)

/-! ## Values made of texts -/

theorem isTextual_pair {first second : Text} {value other : Json} (apart : first ≠ second)
    (textual : value.IsTextual) (textualToo : other.IsTextual) :
    (Json.object [(first, value), (second, other)]).IsTextual :=
  .object (by simpa using apart)
    (List.forall_mem_cons.2 ⟨textual, List.forall_mem_singleton.2 textualToo⟩)

theorem isTextual_list {α : Type} {form : α → Json} (textual : ∀ item, (form item).IsTextual)
    (items : List α) : (Json.array (items.map form)).IsTextual :=
  .array fun value member => by
    obtain ⟨item, -, rfl⟩ := List.mem_map.1 member
    exact textual item

theorem TypeForm.isTextual (type : TypeRef) : (ofType type).json.IsTextual := by
  induction type with
  | named name => exact isTextual_pair (by decide) (.text _) (.text _)
  | sequence element ih => exact isTextual_pair (by decide) (.text _) ih
  | optional inner ih => exact isTextual_pair (by decide) (.text _) ih

theorem Field.isTextual (field : TreeGrammar.Field) : (ofField field).json.IsTextual :=
  isTextual_pair (by decide) (.text _) (TypeForm.isTextual field.type)

theorem Variant.isTextual (variant : TreeGrammar.Variant) :
    (ofVariant variant).json.IsTextual := by
  refine isTextual_pair (by decide) (.text _) ?_
  rw [ofVariant, List.map_map]
  exact isTextual_list Field.isTextual _

theorem Family.isTextual (family : TreeGrammar.Family) : (ofFamily family).json.IsTextual := by
  refine isTextual_pair (by decide) (.text _) ?_
  rw [ofFamily, List.map_map]
  exact isTextual_list Variant.isTextual _

theorem Use.isTextual (use : TreeGrammar.Use) : (ofUse use).json.IsTextual :=
  isTextual_pair (by decide) (.text _) (isTextual_list .text _)

theorem isTextual_json (grammar : Grammar) : (ofGrammar grammar).json.IsTextual := by
  rw [json, ofGrammar, List.map_map, List.map_map]
  exact isTextual_pair (by decide) (isTextual_list Use.isTextual _)
    (isTextual_list Family.isTextual _)

/-! ## Members in any order -/

section Pair

variable (layout : Json.Layout) {first second : Text} {value other : Json}

/-- Where an object of two members has them, in whatever order they are printed. -/
theorem get?_arranged (value other : Json) (apart : first ≠ second) :
    ∃ members, arranged layout (.object [(first, value), (second, other)]) = .object members ∧
      Keyed.get? first members = some (arranged layout value) ∧
      Keyed.get? second members = some (arranged layout other) := by
  have perm := layout.arrange_perm [(first, value), (second, other)]
  have distinct : ((layout.arrange [(first, value), (second, other)]).map Prod.fst).Nodup :=
    (perm.map Prod.fst).nodup_iff.2 (by simpa using apart)
  refine ⟨_, Json.arranged_object layout _, ?_, ?_⟩ <;>
    simp [Keyed.get?_map, Keyed.get?_perm perm distinct, Keyed.get?, apart]

theorem member_first (apart : first ≠ second) :
    member first (arranged layout (.object [(first, value), (second, other)])) =
      .ok (arranged layout value) := by
  obtain ⟨members, same, there, -⟩ := get?_arranged layout value other apart
  simp [same, member, there]

theorem member_second (apart : first ≠ second) :
    member second (arranged layout (.object [(first, value), (second, other)])) =
      .ok (arranged layout other) := by
  obtain ⟨members, same, -, there⟩ := get?_arranged layout value other apart
  simp [same, member, there]

theorem member?_first (apart : first ≠ second) :
    member? first (arranged layout (.object [(first, value), (second, other)])) =
      .ok (some (arranged layout value)) := by
  obtain ⟨members, same, there, -⟩ := get?_arranged layout value other apart
  simp [same, member?, there]

theorem member?_second (apart : first ≠ second) :
    member? second (arranged layout (.object [(first, value), (second, other)])) =
      .ok (some (arranged layout other)) := by
  obtain ⟨members, same, -, there⟩ := get?_arranged layout value other apart
  simp [same, member?, there]

end Pair

/-! ## Types -/

/-- The form that a value in the place of a type's member is read as. -/
def formOf : Json → Except Fault TypeForm
  | .object members => typeForm (.object members)
  | content => .ok (.value content)

theorem memberForm_cons (key other : Text) (content : Json) (rest : List (Text × Json)) :
    memberForm key ((other, content) :: rest) =
      if other = key then formOf content else memberForm key rest := by
  cases content <;> simp [memberForm, formOf]

theorem memberForm_of_get? {members : List (Text × Json)} {key : Text} {value : Json}
    (there : Keyed.get? key members = some value) : memberForm key members = formOf value := by
  induction members with
  | nil => cases there
  | cons entry rest ih =>
      rw [Keyed.get?] at there
      rw [memberForm_cons]
      split at there
      · next same => rw [if_pos same, Option.some.inj there]
      · next other => rw [if_neg other, ih there]

theorem kindOf_tag (kind : TypeRef.Kind) : kindOf (.text kind.tag) = .ok kind := by
  rw [kindOf, TypeRef.Kind.ofTag?_tag]

/-- An object with a tag and the member of its kind is read as a form of this kind. -/
theorem formOf_tagged (kind : TypeRef.Kind) {members : List (Text × Json)} {value : Json}
    {inner : TypeForm} (tagged : Keyed.get? "tag".toList members = some (.text kind.tag))
    (inside : Keyed.get? kind.member members = some value) (reads : formOf value = .ok inner) :
    formOf (.object members) = .ok (.ofKind kind inner) := by
  rw [← memberForm_of_get? inside] at reads
  simp only [formOf, typeForm, member, tagged, kindOf_tag, reads, bind, Except.bind, pure,
    Except.pure]

section Read

variable (layout : Json.Layout)

theorem formOf_ofKind (kind : TypeRef.Kind) {inner : TypeForm}
    (reads : formOf (arranged layout inner.json) = .ok inner) :
    formOf (arranged layout (.object [("tag", .text kind.tag), (kind.member, inner.json)])) =
      .ok (.ofKind kind inner) := by
  have apart : "tag".toList ≠ kind.member := by cases kind <;> decide
  obtain ⟨members, same, tagged, inside⟩ :=
    get?_arranged layout (.text kind.tag) inner.json apart
  rw [Json.arranged_text] at tagged
  rw [same]
  exact formOf_tagged kind tagged inside reads

theorem formOf_ofType (type : TypeRef) :
    formOf (arranged layout (TypeForm.ofType type).json) = .ok (.ofType type) := by
  induction type with
  | named name =>
      have content : formOf (arranged layout (TypeForm.value (.text name)).json) =
          .ok (.value (.text name)) := by
        simp [TypeForm.json, Json.arranged_text, formOf]
      exact formOf_ofKind layout .named content
  | sequence element ih => exact formOf_ofKind layout .sequence ih
  | optional inner ih => exact formOf_ofKind layout .optional ih

theorem typeForm_ofType (type : TypeRef) :
    typeForm (arranged layout (TypeForm.ofType type).json) = .ok (.ofType type) := by
  have reads := formOf_ofType layout type
  cases type <;>
    (rw [TypeForm.ofType, TypeForm.json, Json.arranged_object] at reads ⊢; rwa [formOf] at reads)

/-! ## Grammars -/

/-- Items that are each read back are read back together. -/
theorem mapM_arranged {α β : Type} {declared : α → β} {form : β → Json}
    {reader : Json → Except Fault β}
    (reads : ∀ item, reader (arranged layout (form (declared item))) = .ok (declared item))
    (list : List α) :
    (((list.map declared).map form).map (arranged layout)).mapM reader =
      .ok (list.map declared) := by
  rw [List.mapM_map, List.mapM_map, List.mapM_map,
    show ((reader ∘ arranged layout) ∘ form) ∘ declared = _ from funext reads]
  exact List.mapM_pure

theorem Field.read_json (field : TreeGrammar.Field) :
    read (arranged layout (ofField field).json) = .ok (ofField field) := by
  rw [read, json, member_first layout (by decide), member_second layout (by decide)]
  simp only [ofField, Json.arranged_text, typeForm_ofType, bind, Except.bind, pure, Except.pure]

theorem Variant.read_json (variant : TreeGrammar.Variant) :
    read (arranged layout (ofVariant variant).json) = .ok (ofVariant variant) := by
  rw [read, json, member_first layout (by decide), member?_second layout (by decide)]
  simp only [ofVariant, Json.arranged_text, Json.arranged_array, itemsOrNone, items,
    mapM_arranged layout (Field.read_json layout), bind, Except.bind, pure, Except.pure]

theorem Family.read_json (family : TreeGrammar.Family) :
    read (arranged layout (ofFamily family).json) = .ok (ofFamily family) := by
  rw [read, json, member_first layout (by decide), member_second layout (by decide)]
  simp only [ofFamily, Json.arranged_text, Json.arranged_array, items,
    mapM_arranged layout (Variant.read_json layout), bind, Except.bind, pure, Except.pure]

theorem Use.read_json (use : TreeGrammar.Use) :
    read (arranged layout (ofUse use).json) = .ok (ofUse use) := by
  rw [read, json, member_first layout (by decide), member_second layout (by decide)]
  simp only [ofUse, Json.arranged_text, Json.arranged_array, items, List.map_map,
    Function.comp_def, bind, Except.bind, pure, Except.pure]

theorem read_json (grammar : Grammar) :
    read (arranged layout (ofGrammar grammar).json) = .ok (ofGrammar grammar) := by
  rw [read, json, member?_first layout (by decide), member_second layout (by decide)]
  simp only [ofGrammar, Json.arranged_array, itemsOrNone, items,
    mapM_arranged layout (Use.read_json layout), mapM_arranged layout (Family.read_json layout),
    bind, Except.bind, pure, Except.pure]

end Read

/-! ## Documents that declare a grammar -/

theorem mapM_declared {α β : Type} {declared : α → β} {declares? : β → Option α}
    (declares : ∀ item, declares? (declared item) = some item) (list : List α) :
    (list.map declared).mapM declares? = some list := by
  rw [List.mapM_map, show declares? ∘ declared = _ from funext declares]
  simpa using List.mapM_pure (m := Option) (f := id) (l := list)

theorem Field.field?_ofField (field : TreeGrammar.Field) : (ofField field).field? = some field := by
  simp [field?, ofField, Json.text?, TypeForm.type?_ofType]

theorem Variant.variant?_ofVariant (variant : TreeGrammar.Variant) :
    (ofVariant variant).variant? = some variant := by
  simp [variant?, ofVariant, Json.text?, mapM_declared Field.field?_ofField]

theorem Family.family?_ofFamily (family : TreeGrammar.Family) :
    (ofFamily family).family? = some family := by
  simp [family?, ofFamily, Json.text?, mapM_declared Variant.variant?_ofVariant]

theorem Use.use?_ofUse (use : TreeGrammar.Use) : (ofUse use).use? = some use := by
  have names : ∀ name : Text, (Json.text name).text? = some name := fun _ => rfl
  simp [use?, ofUse, Json.text?, mapM_declared names]

/-- A grammar's document declares this grammar and no other. -/
theorem grammar?_ofGrammar (grammar : Grammar) : (ofGrammar grammar).grammar? = some grammar := by
  simp [grammar?, ofGrammar, mapM_declared Family.family?_ofFamily, mapM_declared Use.use?_ofUse]

/-! ## Through JSON text -/

/-- **The round trip of grammars through JSON.**  In whatever layout a grammar is printed, with its
members in whatever order and its characters escaped or not, it is read back. -/
theorem parse_print_ofGrammar {layout : Json.Layout} (readable : layout.Readable)
    (grammar : Grammar) :
    parse (print layout (ofGrammar grammar)) = .ok (ofGrammar grammar) ∧
      (ofGrammar grammar).grammar? = some grammar := by
  refine ⟨?_, grammar?_ofGrammar grammar⟩
  rw [parse, print, Json.parse_print readable (isTextual_json grammar)]
  exact read_json layout grammar

/-- Quotes, backslashes, control characters and characters beyond the first 65536 in names, and
types inside types. -/
def escapedGrammar : Grammar where
  families :=
    [⟨['"', '\\', '😀'], [⟨['\x00'], [⟨['\n'], .sequence (.optional (.named ['\x7f', 'é']))⟩]⟩]⟩]
  uses := [⟨"a/b", [[], ['\uFFFF']]⟩]

/-- Sorted members, everything on lines of its own, blanks of all sorts. -/
def scatteredLayout : Json.Layout :=
  ⟨some ['\t', ' '], [' ', ',', '\n'], ['\r', ':', ' '], true, true⟩

theorem escapedGrammar_read_back :
    scatteredLayout.Readable ∧
      parse (print scatteredLayout (ofGrammar escapedGrammar)) = .ok (ofGrammar escapedGrammar) ∧
      (ofGrammar escapedGrammar).grammar? = some escapedGrammar := by
  have readable : scatteredLayout.Readable := by
    refine ⟨fun text same => ?_, ⟨[' '], ['\n'], rfl, rfl, rfl⟩, ⟨['\r'], [' '], rfl, rfl, rfl⟩⟩
    cases same
    rfl
  exact ⟨readable, parse_print_ofGrammar readable escapedGrammar⟩

end TreeGrammar.Document
