/-
# TreeGrammar.Proofs.Document.Stability -- what has been read is read again

Reading a document takes what it finds: any value in the place of a name, the characters of a
text or the keys of an object in the place of a list, and nothing for a member that may be left
out.  Writing has one form for each document.  From what is written of a document that has been
read the same document is read again (`read_json_of_read`), whatever the value was like from which
it was read first.

An object inside a type always declares a type, and anything else is kept as it is.  So the
documents that are read are those with a type in each place of a type and no object left inside of
any (`exists_read_iff`).
-/
import TreeGrammar.Proofs.Document.RoundTrip
import TreeGrammar.Proofs.Grammar.Validity

set_option autoImplicit false

namespace TreeGrammar.Document

/-! ## Types -/

namespace TypeForm

/-- No object stands in the place of a name or a type. -/
def Plain : TypeForm → Prop
  | .value content => ∀ members, content ≠ .object members
  | .named name => name.Plain
  | .sequence element => element.Plain
  | .optional inner => inner.Plain

/-- The form is that of a type, though a value may stand inside where a name or a type should. -/
structure IsType (form : TypeForm) : Prop where
  declared : ∀ content, form ≠ .value content
  plain : form.Plain

theorem isType_ofKind (kind : TypeRef.Kind) {inner : TypeForm} (plain : inner.Plain) :
    (ofKind kind inner).IsType := by
  cases kind <;> exact ⟨nofun, plain⟩

end TypeForm

mutual

theorem isType_of_typeForm {value : Json} {form : TypeForm} (found : typeForm value = .ok form) :
    form.IsType := by
  cases value with
  | object members =>
      rw [typeForm, bind_eq_ok_iff] at found
      obtain ⟨tag, -, found⟩ := found
      obtain ⟨kind, -, found⟩ := bind_eq_ok_iff.1 found
      obtain ⟨inner, inside, same⟩ := bind_eq_ok_iff.1 found
      obtain rfl := Except.ok.inj same
      exact TypeForm.isType_ofKind kind (plain_of_memberForm inside)
  | _ => cases found

theorem plain_of_memberForm {key : Text} {members : List (Text × Json)} {form : TypeForm}
    (found : memberForm key members = .ok form) : form.Plain := by
  cases members with
  | nil => cases found
  | cons entry rest =>
      obtain ⟨other, value⟩ := entry
      rw [memberForm_cons] at found
      split at found
      · cases value with
        | object members => exact (isType_of_typeForm found).plain
        | _ =>
            obtain rfl := Except.ok.inj found
            exact nofun
      · exact plain_of_memberForm found

end

theorem formOf_json {form : TypeForm} (plain : form.Plain) : formOf form.json = .ok form := by
  induction form with
  | value content =>
      cases content with
      | object members => exact absurd rfl (plain members)
      | _ => rfl
  | named name ih => exact formOf_tagged .named rfl rfl (ih plain)
  | sequence element ih => exact formOf_tagged .sequence rfl rfl (ih plain)
  | optional inner ih => exact formOf_tagged .optional rfl rfl (ih plain)

theorem typeForm_json {form : TypeForm} (isType : form.IsType) : typeForm form.json = .ok form := by
  have reads := formOf_json isType.plain
  cases form with
  | value content => exact absurd rfl (isType.declared content)
  | _ => exact reads

/-! ## Documents -/

def Variant.Typed (variant : Variant) : Prop :=
  ∀ field ∈ variant.fields, field.type.IsType

def Family.Typed (family : Family) : Prop :=
  ∀ variant ∈ family.variants, variant.Typed

/-- Types stand in all places of types. -/
def Typed (document : Document) : Prop :=
  ∀ family ∈ document.families, family.Typed

/-- What is read one by one has in each item what every single reading ensures. -/
theorem forall_of_mapM {α : Type} {reader : Json → Except Fault α} {Holds : α → Prop}
    {values : List Json} {list : List α}
    (each : ∀ value item, reader value = .ok item → Holds item)
    (found : values.mapM reader = .ok list) : ∀ item ∈ list, Holds item := by
  intro item member
  obtain ⟨value, -, first⟩ := exists_of_forall₂ (mapM_eq_ok_iff.1 found) member
  exact each value item first

/-- Items that are each read from what is written of them are read together. -/
theorem mapM_json {α : Type} {reader : Json → Except Fault α} {form : α → Json} {list : List α}
    (each : ∀ item ∈ list, reader (form item) = .ok item) :
    (list.map form).mapM reader = .ok list :=
  mapM_eq_ok_iff.2 (List.forall₂_map_left_iff.2 (List.forall₂_same.2 each))

variable {value : Json} {document : Document}

theorem Field.isType_of_read {field : Field} (found : Field.read value = .ok field) :
    field.type.IsType := by
  simp only [Field.read, bind_eq_ok_iff] at found
  obtain ⟨name, -, content, -, type, declared, same⟩ := found
  obtain rfl := Except.ok.inj same
  exact isType_of_typeForm declared

theorem Variant.typed_of_read {variant : Variant} (found : Variant.read value = .ok variant) :
    variant.Typed := by
  simp only [Variant.read, bind_eq_ok_iff] at found
  obtain ⟨name, -, listed, -, values, -, fields, each, same⟩ := found
  obtain rfl := Except.ok.inj same
  exact forall_of_mapM (fun _ _ => Field.isType_of_read) each

theorem Family.typed_of_read {family : Family} (found : Family.read value = .ok family) :
    family.Typed := by
  simp only [Family.read, bind_eq_ok_iff] at found
  obtain ⟨name, -, listed, -, values, -, variants, each, same⟩ := found
  obtain rfl := Except.ok.inj same
  exact forall_of_mapM (fun _ _ => Variant.typed_of_read) each

theorem typed_of_read (found : read value = .ok document) : document.Typed := by
  simp only [read, bind_eq_ok_iff] at found
  obtain ⟨-, -, -, -, uses, -, listed, -, values, -, families, each, same⟩ := found
  obtain rfl := Except.ok.inj same
  exact forall_of_mapM (fun _ _ => Family.typed_of_read) each

theorem Field.read_of_isType {field : Field} (isType : field.type.IsType) :
    Field.read field.json = .ok field := by
  change (typeForm field.type.json >>= fun type => pure (Field.mk field.name type)) = _
  rw [typeForm_json isType]
  rfl

theorem Variant.read_of_typed {variant : Variant} (typed : variant.Typed) :
    Variant.read variant.json = .ok variant := by
  change ((variant.fields.map Field.json).mapM Field.read >>= fun fields =>
    pure (Variant.mk variant.name fields)) = _
  rw [mapM_json fun field member => Field.read_of_isType (typed field member)]
  rfl

theorem Family.read_of_typed {family : Family} (typed : family.Typed) :
    Family.read family.json = .ok family := by
  change ((family.variants.map Variant.json).mapM Variant.read >>= fun variants =>
    pure (Family.mk family.name variants)) = _
  rw [mapM_json fun variant member => Variant.read_of_typed (typed variant member)]
  rfl

theorem Use.read_own (use : Use) : Use.read use.json = .ok use :=
  rfl

theorem read_of_typed (typed : document.Typed) : read document.json = .ok document := by
  change ((document.uses.map Use.json).mapM Use.read >>= fun uses =>
    (document.families.map Family.json).mapM Family.read >>= fun families =>
      pure (Document.mk families uses)) = _
  rw [mapM_json fun use _ => Use.read_own use,
    mapM_json fun family member => Family.read_of_typed (typed family member)]
  rfl

/-- **Which documents are read.**  Some value is read as the document just if types stand in all
its places of types. -/
theorem exists_read_iff : (∃ value, read value = .ok document) ↔ document.Typed :=
  ⟨fun ⟨_, found⟩ => typed_of_read found, fun typed => ⟨document.json, read_of_typed typed⟩⟩

/-! ## Grammars -/

theorem TypeForm.isType_ofType (type : TypeRef) : (ofType type).IsType := by
  induction type with
  | named name => exact ⟨nofun, nofun⟩
  | sequence element ih => exact ⟨nofun, ih.plain⟩
  | optional inner ih => exact ⟨nofun, ih.plain⟩

theorem typed_ofGrammar (grammar : Grammar) : (ofGrammar grammar).Typed := by
  refine List.forall_mem_map.2 fun family _ => List.forall_mem_map.2 fun variant _ => ?_
  exact List.forall_mem_map.2 fun field _ => TypeForm.isType_ofType field.type

/-- **What has been read is read again.**  If any value is read as a document, then types stand in
all its places of types, so that it can be written, and what is written of it is read as the same
document.  So is what is written of a grammar, and the document declares this grammar. -/
theorem read_json_of_read :
    (∀ value document, read value = .ok document →
      document.Typed ∧ read document.json = .ok document) ∧
      ∀ grammar : Grammar, read (ofGrammar grammar).json = .ok (ofGrammar grammar) ∧
        (ofGrammar grammar).grammar? = some grammar :=
  ⟨fun _ _ found => ⟨typed_of_read found, read_of_typed (typed_of_read found)⟩,
    fun grammar => ⟨read_of_typed (typed_ofGrammar grammar), grammar?_ofGrammar grammar⟩⟩

/-- The characters of a text and the keys of an object for used names, an empty text and nothing at
all for fields, an empty object for variants, and an object that declares a type for the name inside
a type, which is optional and has an array inside. -/
def crookedValue : Json :=
  .object [
    ("uses", .array [.object [("names", .text "ab"), ("module", .object [("tag", .null)])],
      .object [("module", .null), ("names", .object [("c", .number 2)])]]),
    ("extra", .number 1),
    ("families", .array [.object [("name", .object []),
      ("variants", .array [.object [("name", .boolean true), ("fields", .text [])],
        .object [("name", .number 3)],
        .object [("name", .null), ("fields", .array [.object [("name", .array [.null]),
          ("type", .object [("name", .object [("tag", .text "optional"),
              ("inner", .array [.object [("tag", .text "named")]])]),
            ("tag", .text "named")])]])]])],
      .object [("variants", .object []), ("name", .text [])]])]

/-- The document that is read from `crookedValue`. -/
def crookedDocument : Document where
  families :=
    [⟨.object [], [⟨.boolean true, []⟩, ⟨.number 3, []⟩, ⟨.null, [⟨.array [.null],
      .named (.optional (.value (.array [.object [("tag", .text "named")]])))⟩]⟩]⟩, ⟨.text [], []⟩]
  uses := [⟨.object [("tag", .null)], [.text ['a'], .text ['b']]⟩, ⟨.null, [.text ['c']]⟩]

theorem crookedDocument_read_again :
    read crookedValue = .ok crookedDocument ∧ crookedDocument.Typed ∧
      read crookedDocument.json = .ok crookedDocument := by
  have found : read crookedValue = .ok crookedDocument := by rfl
  exact ⟨found, read_json_of_read.1 _ _ found⟩

end TreeGrammar.Document
