/-
# TreeGrammar.Proofs.NodeModule.Rendering -- a file for each family

Rendering a grammar shall give each of its families a file of its own, in the order of the
families.  Files are named by the snake case of a family's name, and what is put under a name
that is there already replaces the text before it.  Checking a grammar refuses a second family
with the same file, but not behind a family without a name.  So each family has its file
exactly where at most one family has no name (`ownFiles_iff`).

Where the name of a family is an identifier, its file name is one name of a path
(`isComponent_fileName`) and begins with no point.

A document may declare types that are none.  They are found when the imports of their families
are collected, so where all names are texts and something is rendered, the document declares a
grammar, and what is rendered are the files of this grammar.
-/
import TreeGrammar.Document.Generation
import TreeGrammar.Proofs.Directory.Following
import TreeGrammar.Proofs.Grammar.Soundness
import TreeGrammar.Proofs.Text.WordBreak

set_option autoImplicit false

namespace TreeGrammar

/-! ## The names of the files -/

section Names

variable {family : Family} (named : Grammar.IsName family.name)

include named

theorem moduleName_ne_nil : family.moduleName ≠ [] :=
  fun none => named.ne_nil (Text.snakeCase_eq_nil_iff.1 none)

theorem moduleName_plain : '.' ∉ family.moduleName ∧ '/' ∉ family.moduleName := by
  constructor
  · exact fun member => Text.not_mem_of_isIdentifier named.1 (by decide +kernel)
      (by decide +kernel) (Text.mem_of_mem_snakeCase (by decide) member)
  · exact fun member => Text.not_mem_of_isIdentifier named.1 (by decide +kernel)
      (by decide +kernel) (Text.mem_of_mem_snakeCase (by decide) member)

theorem isComponent_fileName : Path.IsComponent family.fileName := by
  have noSlash := (moduleName_plain named).2
  rw [Path.isComponent_iff, Family.fileName]
  refine ⟨by simp, fun same => ?_, by simpa using noSlash⟩
  simpa using congrArg List.length same

/-- No file name begins with a point, as the names of temporary files and backups do. -/
theorem fileName_ne_pointed (rest : Text) : family.fileName ≠ '.' :: rest := by
  intro same
  obtain ⟨first, more, split⟩ := List.exists_cons_of_ne_nil (moduleName_ne_nil named)
  rw [Family.fileName, split, List.cons_append, List.cons.injEq] at same
  exact (moduleName_plain named).1 (split ▸ same.1 ▸ List.mem_cons_self)

end Names

/-! ## The files of a grammar -/

namespace Grammar

variable {grammar : Grammar} {strict : Bool} {files : List (Text × Text)}

/-- The file of a family, by its name and its text. -/
def ownFile (grammar : Grammar) (family : Family) : Text × Text :=
  (family.fileName, grammar.emit family)

/-- The files are those of the families, one for each and in their order, and no two families have
one file name. -/
structure OwnFiles (grammar : Grammar) (files : List (Text × Text)) : Prop where
  each : files = grammar.families.map grammar.ownFile
  distinct : (grammar.families.map Family.fileName).Nodup

theorem render_eq_ok_iff :
    grammar.render strict = .ok files ↔
      grammar.validate = .ok () ∧ (strict = true → grammar.unresolved = []) ∧
        files = grammar.files := by
  rw [render, check_eq_ok_iff, checkFor, check_eq_ok_iff, and_assoc]
  refine and_congr_right fun _ => and_congr ?_ ?_
  · cases strict with
    | false => exact ⟨fun _ => nofun, fun _ => rfl⟩
    | true =>
        cases grammar.unresolved with
        | nil => exact ⟨fun _ _ => rfl, fun _ => rfl⟩
        | cons reference rest => exact ⟨nofun, fun none => absurd (none rfl) (by simp)⟩
  · exact ⟨fun same => (Except.ok.inj same).symm, fun same => congrArg _ same.symm⟩

theorem ownFiles_iff_nodup :
    grammar.OwnFiles grammar.files ↔ (grammar.families.map Family.fileName).Nodup := by
  have keys : (grammar.families.map grammar.ownFile).map Prod.fst =
      grammar.families.map Family.fileName := by
    rw [List.map_map]
    rfl
  constructor
  · exact fun own => own.distinct
  · exact fun distinct => ⟨Keyed.ofList_eq_self_iff.2 (keys ▸ distinct), distinct⟩

theorem fileName_inj {family other : Family} :
    family.fileName = other.fileName ↔ family.moduleName = other.moduleName := by
  unfold Family.fileName
  rw [List.append_left_inj]

theorem nodup_fileNames {families : List Family} :
    (families.map Family.fileName).Nodup ↔ (families.map Family.moduleName).Nodup := by
  simp only [List.Nodup, List.pairwise_map, ne_eq, fileName_inj]

/-- Of two families one has a name, if at most one name of them all is empty. -/
theorem pairwise_named (atMost : grammar.familyNames.count [] ≤ 1) :
    grammar.families.Pairwise fun first second => first.name = [] → second.name ≠ [] := by
  have named : grammar.familyNames.Pairwise fun first second => first = [] → second ≠ [] := by
    rw [List.pairwise_iff_forall_sublist]
    rintro first second both rfl rfl
    exact absurd (both.count_le []) (Nat.not_le.2 (Nat.lt_succ_of_le atMost))
  exact List.pairwise_map.1 named

/-- Two families of a valid grammar have one file only if neither has a name. -/
theorem nodup_fileNames_iff (valid : grammar.validate = .ok ()) :
    (grammar.families.map Family.fileName).Nodup ↔ grammar.familyNames.count [] ≤ 1 := by
  rw [nodup_fileNames]
  constructor
  · exact fun modules => List.nodup_iff_count_le_one.1 (familyNames_nodup modules) []
  · intro atMost
    refine List.pairwise_map.2 (((apart_of_validate valid).and (pairwise_named atMost)).imp ?_)
    rintro first second ⟨apart, named⟩ same
    -- only the name of a nameless family has no snake case
    have nameless : first.name = [] := of_not_not fun isNamed => apart isNamed same
    refine named nameless (Text.snakeCase_eq_nil_iff.1 ?_)
    rw [← Family.moduleName, ← same, Family.moduleName, Text.snakeCase_eq_nil_iff, nameless]

end Grammar

/-! ## Documents -/

theorem mapM_isSome {α β : Type} {find? : α → Option β} {list : List α}
    (each : ∀ item ∈ list, (find? item).isSome) : (list.mapM find?).isSome := by
  induction list with
  | nil => rfl
  | cons item rest ih =>
      rw [List.forall_mem_cons] at each
      obtain ⟨found, first⟩ := Option.isSome_iff_exists.1 each.1
      obtain ⟨others, behind⟩ := Option.isSome_iff_exists.1 (ih each.2)
      rw [List.mapM_cons, first, behind]
      rfl

theorem isSome_pair {α β γ : Type} {first : Option α} {second : Option β} {make : α → β → γ}
    (isFirst : first.isSome) (isSecond : second.isSome) :
    (first.bind fun left => second.bind fun right => some (make left right)).isSome := by
  obtain ⟨left, rfl⟩ := Option.isSome_iff_exists.1 isFirst
  obtain ⟨right, rfl⟩ := Option.isSome_iff_exists.1 isSecond
  rfl

namespace Document

variable {document : Document} {strict : Bool} {files : List (Text × Text)}

/-- Texts stand in all places of names, but anything may stand in those of types. -/
structure Textual (document : Document) : Prop where
  families : ∀ family ∈ document.families, family.name.text?.isSome
  variants : ∀ family ∈ document.families, ∀ variant ∈ family.variants, variant.name.text?.isSome
  fields : ∀ family ∈ document.families, ∀ variant ∈ family.variants, ∀ field ∈ variant.fields,
    field.name.text?.isSome
  uses : ∀ use ∈ document.uses, use.path.text?.isSome ∧ ∀ name ∈ use.names, name.text?.isSome

/-- A form that has a name inside is a type. -/
theorem TypeForm.type?_isSome {form : TypeForm} {name : Text} (named : form.name = .ok name) :
    form.type?.isSome := by
  induction form with
  | value content => cases named
  | named inner =>
      cases inner with
      | value content =>
          cases content with
          | text content => rfl
          | _ => cases named
      | _ => cases named
  | sequence element ih => rw [type?, Option.isSome_map]; exact ih named
  | optional inner ih => rw [type?, Option.isSome_map]; exact ih named

/-- Collecting the imports of a family asks each of its types for the name inside. -/
theorem types_of_familyImports {family : Family} {imports : List (TreeGrammar.Family × List Text)}
    (found : document.familyImports family = .ok imports) :
    ∀ form ∈ family.types, form.type?.isSome := by
  rw [familyImports, check_eq_ok_iff] at found
  intro form member
  have asked := forM_eq_ok_iff.1 found.1 form member
  cases named : form.name with
  | ok name => exact TypeForm.type?_isSome named
  | error fault => rw [named] at asked; cases asked

theorem types_of_checkFamilies {modules : List (Text × Text)} {families : List Family}
    (passed : document.checkFamilies modules families = .ok ()) :
    ∀ family ∈ families, ∀ form ∈ family.types, form.type?.isSome := by
  induction families generalizing modules with
  | nil => exact nofun
  | cons family rest ih =>
      rw [checkFamilies, check_eq_ok_iff] at passed
      obtain ⟨first, others⟩ := passed
      simp only [checkFamily, bind_eq_ok_iff, mapError_eq_ok_iff] at first
      obtain ⟨-, -, -, -, -, -, -, -, -, -, imports, found, -⟩ := first
      exact List.forall_mem_cons.2 ⟨types_of_familyImports found, ih others⟩

/-- Where texts stand for names and types for types, a grammar is declared. -/
theorem Textual.grammar?_isSome (textual : document.Textual)
    (typed : ∀ family ∈ document.families, ∀ form ∈ family.types, form.type?.isSome) :
    document.grammar?.isSome := by
  have families : (document.families.mapM Family.family?).isSome := by
    refine mapM_isSome fun family isFamily => ?_
    have variants : (family.variants.mapM Variant.variant?).isSome := by
      refine mapM_isSome fun variant isVariant => ?_
      have fields : (variant.fields.mapM Field.field?).isSome := by
        refine mapM_isSome fun field isField => ?_
        have type := typed family isFamily field.type
          (List.mem_flatMap.2 ⟨variant, isVariant, List.mem_map_of_mem isField⟩)
        exact isSome_pair (textual.fields family isFamily variant isVariant field isField) type
      exact isSome_pair (textual.variants family isFamily variant isVariant) fields
    exact isSome_pair (textual.families family isFamily) variants
  have uses : (document.uses.mapM Use.use?).isSome :=
    mapM_isSome fun use isUse =>
      isSome_pair (textual.uses use isUse).1 (mapM_isSome (textual.uses use isUse).2)
  exact isSome_pair families uses

/-- A document that declares a grammar is valid like the grammar. -/
theorem validate_declared_iff {grammar : Grammar} (declared : document.grammar? = some grammar) :
    document.validate = .ok () ↔ grammar.validate = .ok () := by
  rw [validate, declared]
  exact mapError_eq_ok_iff

/-- From a document that declares a grammar is rendered what is rendered from the grammar. -/
theorem render_declared_iff {grammar : Grammar} (declared : document.grammar? = some grammar) :
    document.render strict = .ok files ↔ grammar.render strict = .ok files := by
  rw [render, declared]
  exact mapError_eq_ok_iff

/-- A document of textual names that is valid declares a valid grammar. -/
theorem grammar_of_validate (textual : document.Textual) (valid : document.validate = .ok ()) :
    ∃ grammar, document.grammar? = some grammar ∧ grammar.validate = .ok () := by
  cases declared : document.grammar? with
  | some grammar => exact ⟨grammar, rfl, (validate_declared_iff declared).1 valid⟩
  | none =>
      rw [validate, declared] at valid
      have typed := types_of_checkFamilies (check_eq_ok_iff.1 valid).2
      have found := textual.grammar?_isSome typed
      rw [declared] at found
      cases found

/-- What is rendered from a document of textual names is rendered from a grammar. -/
theorem grammar_of_render (textual : document.Textual)
    (rendered : document.render strict = .ok files) :
    ∃ grammar, document.grammar? = some grammar ∧ grammar.render strict = .ok files := by
  cases declared : document.grammar? with
  | some grammar => exact ⟨grammar, rfl, (render_declared_iff declared).1 rendered⟩
  | none =>
      rw [render, declared] at rendered
      have valid := (check_eq_ok_iff.1 rendered).1
      obtain ⟨grammar, found, -⟩ := grammar_of_validate textual valid
      rw [declared] at found
      cases found

end Document

/-! ## When each family has a file of its own -/

namespace Grammar

/-- **Which grammars are rendered into a file for each family.**  Where files are rendered from a
grammar, they are those of its families if and only if at most one family has no name; and where
they are rendered from a document of textual names, they are rendered from the grammar that it
declares. -/
theorem ownFiles_iff (strict : Bool) (files : List (Text × Text)) :
    (∀ grammar : Grammar, grammar.render strict = .ok files →
      (grammar.OwnFiles files ↔ grammar.familyNames.count [] ≤ 1)) ∧
    ∀ document : Document, document.Textual → document.render strict = .ok files →
      ∃ grammar, document.grammar? = some grammar ∧
        (grammar.OwnFiles files ↔ grammar.familyNames.count [] ≤ 1) := by
  have rendered_iff : ∀ grammar : Grammar, grammar.render strict = .ok files →
      (grammar.OwnFiles files ↔ grammar.familyNames.count [] ≤ 1) := by
    intro grammar rendered
    obtain ⟨valid, -, rfl⟩ := render_eq_ok_iff.1 rendered
    rw [ownFiles_iff_nodup, nodup_fileNames_iff valid]
  refine ⟨rendered_iff, fun document textual rendered => ?_⟩
  obtain ⟨grammar, declared, fromGrammar⟩ := Document.grammar_of_render textual rendered
  exact ⟨grammar, declared, rendered_iff grammar fromGrammar⟩

/-- Two families without a name. -/
def twiceNameless : Grammar :=
  ⟨[⟨[], [⟨['A'], []⟩]⟩, ⟨[], [⟨['B'], []⟩]⟩], []⟩

/-- The second family's text stands in the only file. -/
theorem nameless_families_merged :
    twiceNameless.render true = .ok [(".py", twiceNameless.emit ⟨[], [⟨['B'], []⟩]⟩)] ∧
      ¬ twiceNameless.OwnFiles [(".py", twiceNameless.emit ⟨[], [⟨['B'], []⟩]⟩)] :=
  ⟨render_eq_ok_iff.2 ⟨by decide +kernel, fun _ => rfl, rfl⟩,
    fun own => absurd own.distinct (by decide)⟩

/-- A family without a name in front of one with a name. -/
def onceNameless : Grammar :=
  ⟨[⟨[], [⟨['A'], []⟩]⟩, ⟨['E'], [⟨['B'], []⟩]⟩], []⟩

theorem onceNameless_ownFiles :
    onceNameless.OwnFiles onceNameless.files ∧
      ∃ grammar, (Document.ofGrammar onceNameless).grammar? = some grammar ∧
        grammar.OwnFiles onceNameless.files := by
  have atMost : onceNameless.familyNames.count [] ≤ 1 := by decide
  have rendered : onceNameless.render true = .ok onceNameless.files :=
    render_eq_ok_iff.2 ⟨by decide +kernel, fun _ => rfl, rfl⟩
  have declared : (Document.ofGrammar onceNameless).grammar? = some onceNameless := rfl
  have textual : (Document.ofGrammar onceNameless).Textual :=
    ⟨by decide, by decide, by decide, by decide⟩
  have documented : (Document.ofGrammar onceNameless).render true = .ok onceNameless.files := by
    rw [Document.render, declared]
    exact mapError_eq_ok_iff.2 rendered
  obtain ⟨grammar, found, own⟩ := (ownFiles_iff true _).2 _ textual documented
  rw [declared] at found
  cases found
  exact ⟨((ownFiles_iff true _).1 _ rendered).2 atMost, onceNameless, declared, own.2 atMost⟩

end Grammar

end TreeGrammar
