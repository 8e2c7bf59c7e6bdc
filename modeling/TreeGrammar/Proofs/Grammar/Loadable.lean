/-
# TreeGrammar.Proofs.Grammar.Loadable -- which grammars can be loaded

A printed grammar is not always loaded again: a blank stands behind the name in a header, and
with it the header of a family with the name `use` is taken for a use.  Without that blank no
header is.  So every well-formed grammar that is valid is loaded from some text, and a grammar
that is loaded is both (`loadable_iff`).
-/
import TreeGrammar.Proofs.Grammar.RoundTrip

set_option autoImplicit false

namespace TreeGrammar

open Text (Unbroken)

/-- The lines of a family, with the brace that opens it right behind its name. -/
def Family.denseLines (family : Family) : List Text :=
  (family.name ++ ['{']) :: family.blockLines

namespace Grammar

/-- The uses and behind them the families, line by line. -/
def denseLines (grammar : Grammar) : List Text :=
  grammar.uses.map Use.text ++ grammar.families.flatMap Family.denseLines

/-- The dense lines of a grammar, each with a line feed behind it. -/
def denseText (grammar : Grammar) : Text :=
  grammar.denseLines.flatMap (· ++ ['\n'])

/-- No blank stands in front of the brace. -/
theorem dense_header_unused {name : Text} (named : IsName name) :
    ¬ "use ".toList <+: name ++ [] ++ ['{'] := by
  intro begins
  have spaced : ' ' ∈ name ++ [] ++ ['{'] := begins.subset (by decide)
  rw [List.append_nil, List.mem_append] at spaced
  rcases spaced with inside | brace
  · exact absurd (named.quiet.solid _ inside) (by decide)
  · exact absurd brace (by decide)

theorem written_dense_families {families : List Family}
    (wellFormed : ∀ family ∈ families, family.WellFormed) :
    Written [] families (families.flatMap Family.denseLines) := by
  induction families with
  | nil => exact .nil
  | cons family rest ih =>
      rw [List.forall_mem_cons] at wellFormed
      have written := written_family wellFormed.1 Text.allBlank_nil
        (dense_header_unused wellFormed.1.name) (ih wellFormed.2)
      rwa [List.append_nil] at written

section Dense

variable {grammar : Grammar}

theorem written_denseLines (wellFormed : grammar.WellFormed) :
    Written grammar.uses grammar.families grammar.denseLines := by
  obtain ⟨families, uses⟩ := grammar
  obtain ⟨usesWellFormed, familiesWellFormed⟩ := wellFormed
  dsimp only [denseLines] at *
  induction uses with
  | nil => exact written_dense_families familiesWellFormed
  | cons use rest ih =>
      rw [List.forall_mem_cons] at usesWellFormed
      exact .use (Use.written_text usesWellFormed.1) (ih usesWellFormed.2)

theorem unbroken_denseLines (wellFormed : grammar.WellFormed) :
    ∀ line ∈ grammar.denseLines, Unbroken line := by
  have brace : Unbroken ['{'] := by decide
  rw [denseLines, List.forall_mem_append, List.forall_mem_map, List.forall_mem_flatMap]
  refine ⟨fun use isUse => (wellFormed.uses use isUse).unbroken, fun family isFamily => ?_⟩
  have familyWellFormed := wellFormed.families family isFamily
  exact List.forall_mem_cons.2
    ⟨familyWellFormed.name.quiet.unbroken.append brace, unbroken_blockLines familyWellFormed⟩

theorem readText_denseText (wellFormed : grammar.WellFormed) :
    readText grammar.denseText = (⟨grammar.uses, grammar.families, none⟩, none) := by
  rw [readText, denseText, Text.lines_ended (unbroken_denseLines wellFormed)]
  exact reads_of_written (written_denseLines wellFormed) (carries_plain _) wellFormed.uses
    wellFormed.families rfl 1

/-- **Which grammars can be loaded.**  A grammar is loaded from some text just if its parts are
well-formed and it is valid. -/
theorem loadable_iff :
    (∃ text, load text = .ok grammar) ↔ grammar.WellFormed ∧ grammar.validate = .ok () := by
  constructor
  · rintro ⟨text, loaded⟩
    exact ⟨wellFormed_of_load loaded, (load_eq_ok_iff.1 loaded).2⟩
  · rintro ⟨wellFormed, valid⟩
    exact ⟨grammar.denseText, load_eq_ok_iff.2 ⟨readText_denseText wellFormed, valid⟩⟩

end Dense

end Grammar

end TreeGrammar
