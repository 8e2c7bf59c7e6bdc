/-
# TreeGrammar.Proofs.Document.Containment -- when the names of a rendered grammar keep to their places

The loader looks at every name, field and type where it stands in a text.  A grammar that was
not loaded is only checked for clashes between its names before it is rendered; whether they
are names at all, and could be declared in a text, nothing asks.  So its names may lead a file
out of the directory, or bring lines of their own into a module.  All that loading ensures is
ensured for a rendered grammar just if it could have been loaded (`contained_iff`), and then
each file has its place in the directory and each name its place in a module.
-/
import TreeGrammar.Proofs.Grammar.Loadable
import TreeGrammar.Proofs.NodeModule.Outline
import TreeGrammar.Proofs.NodeModule.Rendering

set_option autoImplicit false

namespace TreeGrammar

namespace Grammar

variable {grammar : Grammar} {strict : Bool} {files : List (Text × Text)}

/-- What is promised of a grammar and the files that are rendered from it. -/
structure Contained (grammar : Grammar) (files : List (Text × Text)) : Prop where
  /-- All names, fields and types are such as a text can declare. -/
  wellFormed : grammar.WellFormed
  own : grammar.OwnFiles files
  /-- Each file is put into whatever directory under one name. -/
  inside : ∀ file ∈ files, file.1 ≠ Path.back ∧ ∀ directory : Path,
    directory.join file.1 = { directory with parts := directory.parts ++ [file.1] }
  /-- The text of a module falls into the sections of the module, and what is found in them is what
  the family declares. -/
  legible : ∀ family ∈ grammar.families,
    readSections (grammar.emit family) = (grammar.nodeModule family).sections ∧
      Outline.ofSections (readSections (grammar.emit family)) =
        some (family.outline grammar.familyNames)

/-- The names in a loaded grammar keep to their places. -/
theorem contained_of_load {text : Text} (loaded : load text = .ok grammar) :
    grammar.Contained grammar.files := by
  have wellFormed := wellFormed_of_load loaded
  have sound := sound_of_validate wellFormed (load_eq_ok_iff.1 loaded).2
  have own := ownFiles_iff_nodup.2 (nodup_fileNames.2 sound.modules)
  refine ⟨wellFormed, own, fun file listed => ?_, fun family member => ?_⟩
  · rw [own.each] at listed
    obtain ⟨family, member, rfl⟩ := List.mem_map.1 listed
    have named := (wellFormed.families family member).name
    exact ⟨fileName_ne_pointed named _, fun directory =>
      directory.join_of_isComponent (isComponent_fileName named)⟩
  · have legible := legible_of_load loaded member
    have read : readSections (grammar.emit family) = (grammar.nodeModule family).sections :=
      NodeModule.readSections_text legible.separable_sections
    exact ⟨read, by rw [read, NodeModule.ofSections_sections legible, outline_nodeModule]⟩

theorem contained_iff_loadable (rendered : grammar.render strict = .ok files) :
    grammar.Contained files ↔ ∃ text, load text = .ok grammar := by
  obtain ⟨valid, -, rfl⟩ := render_eq_ok_iff.1 rendered
  constructor
  · exact fun contained => loadable_iff.2 ⟨contained.wellFormed, valid⟩
  · rintro ⟨text, loaded⟩
    exact contained_of_load loaded

/-- **When the names of a rendered grammar keep to their places.**  Where files are rendered from a
grammar, its parts are well-formed, its files are put into the directory and its modules declare
what its families do, if and only if some text is loaded as the grammar; and where they are
rendered from a document of textual names, this is so of the grammar that it declares. -/
theorem contained_iff (strict : Bool) (files : List (Text × Text)) :
    (∀ grammar : Grammar, grammar.render strict = .ok files →
      (grammar.Contained files ↔ ∃ text, load text = .ok grammar)) ∧
    ∀ document : Document, document.Textual → document.render strict = .ok files →
      ∃ grammar, document.grammar? = some grammar ∧
        (grammar.Contained files ↔ ∃ text, load text = .ok grammar) := by
  refine ⟨fun grammar rendered => contained_iff_loadable rendered,
    fun document textual rendered => ?_⟩
  obtain ⟨grammar, declared, fromGrammar⟩ := Document.grammar_of_render textual rendered
  exact ⟨grammar, declared, contained_iff_loadable fromGrammar⟩

theorem linkedGrammar_contained :
    linkedGrammar.Contained linkedGrammar.files ∧
      ∃ grammar, (Document.ofGrammar linkedGrammar).grammar? = some grammar ∧
        grammar.Contained linkedGrammar.files := by
  have loaded : load linkedText = .ok linkedGrammar := by decide +kernel
  have rendered : linkedGrammar.render true = .ok linkedGrammar.files :=
    render_eq_ok_iff.2 ⟨(load_eq_ok_iff.1 loaded).2, fun _ => by decide +kernel, rfl⟩
  have declared : (Document.ofGrammar linkedGrammar).grammar? = some linkedGrammar := rfl
  have textual : (Document.ofGrammar linkedGrammar).Textual :=
    ⟨by decide, by decide, by decide, by decide⟩
  have documented := (Document.render_declared_iff declared).2 rendered
  obtain ⟨grammar, found, contained⟩ := (contained_iff true _).2 _ textual documented
  rw [declared] at found
  cases found
  exact ⟨((contained_iff true _).1 _ rendered).2 ⟨_, loaded⟩, linkedGrammar, declared,
    contained.2 ⟨_, loaded⟩⟩

/-- A family with a single field, whose name has a line of its own for another field. -/
def smugglingFamily : Family :=
  ⟨['E'], [⟨['B'], [⟨"y: int\n    z", .named "Object"⟩]⟩]⟩

/-- The family behind one whose name leads out of the directory. -/
def leakingGrammar : Grammar :=
  ⟨[⟨"../x", [⟨['A'], []⟩]⟩, smugglingFamily], []⟩

theorem leakingGrammar_not_contained :
    leakingGrammar.render true = .ok leakingGrammar.files ∧
      leakingGrammar.files.map Prod.fst = ["../x.py", "e.py"] ∧
      (Outline.ofSections (readSections (leakingGrammar.emit smugglingFamily))).map Outline.classes =
        some [⟨[['B']], [(['y'], "int"), (['z'], "object")], ["visit_b_e"]⟩] ∧
      ¬ leakingGrammar.Contained leakingGrammar.files := by
  refine ⟨render_eq_ok_iff.2 ⟨by decide +kernel, fun _ => by decide +kernel, rfl⟩,
    by decide +kernel, by decide +kernel, fun contained => ?_⟩
  have named := (contained.wellFormed.families _ List.mem_cons_self).name.1
  exact absurd named (by decide +kernel)

end Grammar

end TreeGrammar
