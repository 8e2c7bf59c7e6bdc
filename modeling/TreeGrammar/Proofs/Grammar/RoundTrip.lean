/-
# TreeGrammar.Proofs.Grammar.RoundTrip -- when a printed grammar is loaded again

A printed grammar is a layout of itself, with one exception: the header of a family with the
name `use` is taken for a use line.  So a loaded grammar is loaded again from its text just
if no family has that name (`load_text_iff`).
-/
import TreeGrammar.Proofs.Grammar.Printer

set_option autoImplicit false

namespace TreeGrammar

open Text (AllBlank Unbroken)

/-- The lines that are printed of a family. -/
def Family.lines (family : Family) : List Text :=
  (family.name ++ [' ', '{']) :: family.variants.map (fun variant => "    " ++ variant.text)
    ++ [['}']]

/-- The lines behind the header. -/
def Family.blockLines (family : Family) : List Text :=
  family.variants.map (fun variant => "    ".toList ++ variant.text) ++ [['}']]

namespace Grammar

/-- The lines of each block. -/
def lineBlocks (grammar : Grammar) : List (List Text) :=
  (if grammar.uses.isEmpty then [] else [grammar.uses.map Use.text])
    ++ grammar.families.map Family.lines

theorem blocks_eq (grammar : Grammar) : grammar.blocks = grammar.lineBlocks.map Text.ofLines := by
  rw [blocks, lineBlocks, List.map_append, List.map_map]
  congr 1
  split <;> rfl

/-! ## Printed lines as a layout -/

section Written

variable {uses : List Use} {families : List Family} {rest : List Text}

/-- The lines of a family behind its header. -/
theorem written_block {variants : List Variant}
    (wellFormed : ∀ variant ∈ variants, variant.WellFormed) :
    BlockWritten variants
      (variants.map (fun variant => "    ".toList ++ variant.text) ++ [['}']]) := by
  have indent : AllBlank "    ".toList := by decide
  induction variants with
  | nil => exact .last ⟨[], .nil, rfl⟩ Text.allBlank_nil
  | cons variant others ih =>
      rw [List.forall_mem_cons] at wellFormed
      have line : BodyWritten [variant] ("    " ++ variant.text) :=
        ⟨[_], .variant (Variant.written_text wellFormed.1 indent) .nil, rfl⟩
      exact .line line (ih wellFormed.2)

/-- Only the header of a family with the name `use` begins like a use line. -/
theorem header_unused {name : Text} (named : IsName name) (other : name ≠ ['u', 's', 'e']) :
    ¬ "use ".toList <+: name ++ [' '] ++ ['{'] := by
  rintro ⟨behind, same⟩
  -- both sides are cut at their first blank
  have unspaced : ' ' ∉ name := fun member => absurd (named.quiet.solid _ member) (by decide)
  have nameCut : Text.cut ' ' (name ++ [' '] ++ ['{']) = (name, some ['{']) := by
    rw [List.append_assoc]
    exact Text.cut_append unspaced ['{']
  have unspacedWord : ' ' ∉ ['u', 's', 'e'] := by decide
  have wordCut : Text.cut ' ' ("use ".toList ++ behind) = (['u', 's', 'e'], some behind) :=
    Text.cut_append unspacedWord behind
  rw [same, nameCut] at wordCut
  exact other (Prod.mk.inj wordCut).1

/-- A family with blanks or none between its name and the brace. -/
theorem written_family {family : Family} {gap : Text} (wellFormed : family.WellFormed)
    (spaced : AllBlank gap) (noUse : ¬ "use ".toList <+: family.name ++ gap ++ ['{'])
    (others : Written uses families rest) :
    Written uses (family :: families)
      ((family.name ++ gap ++ ['{']) :: (family.blockLines ++ rest)) := by
  have opened : BodyWritten [] [] := ⟨[], .nil, rfl⟩
  exact .family Text.allBlank_nil spaced noUse (.line opened (written_block wellFormed.variants))
    others

/-- The lines of families with an empty line in front of each. -/
def familyLines (families : List Family) : List Text :=
  families.flatMap fun family => [] :: family.lines

theorem written_families (wellFormed : ∀ family ∈ families, family.WellFormed)
    (other : ['u', 's', 'e'] ∉ families.map Family.name) :
    Written [] families (familyLines families) := by
  induction families with
  | nil => exact .nil
  | cons family rest ih =>
      rw [List.forall_mem_cons] at wellFormed
      rw [List.map_cons, List.mem_cons, not_or] at other
      have written := written_family wellFormed.1 Text.allBlank_space
        (header_unused wellFormed.1.name (Ne.symm other.1)) (ih wellFormed.2 other.2)
      rw [List.append_assoc] at written
      exact .empty Text.allBlank_nil written

theorem written_uses (wellFormed : ∀ use ∈ uses, use.WellFormed) :
    Written uses [] (uses.map Use.text) := by
  induction uses with
  | nil => exact .nil
  | cons use rest ih =>
      rw [List.forall_mem_cons] at wellFormed
      exact .use (Use.written_text wellFormed.1) (ih wellFormed.2)

end Written

/-! ## Reading printed lines -/

section Blocks

variable {progress : Progress}

theorem carries_plain (lines : List Text) : List.Forall₂ Carries lines lines :=
  List.forall₂_same.2 fun line _ => .plain line

/-- The header of a family with the name `use` is read as a use line, which it is not. -/
theorem readLine_header_use {number : Nat} (closed : progress.current = none) (next : Progress) :
    readLine progress ['u', 's', 'e', ' ', '{'] number ≠ .ok next := by
  intro read
  rcases readLine_eq_ok_iff.1 read with silent | ⟨-, opened, -⟩ | ⟨-, -, -, parsed⟩ |
    ⟨-, -, isHeader, -⟩
  · exact absurd silent (by decide)
  · exact absurd (closed.symm.trans opened) (by simp)
  · cases parsed
  · exact absurd isHeader (by decide)

theorem stops_family {family : Family} (named : family.name = ['u', 's', 'e'])
    (closed : progress.current = none) : Stops progress family.lines := by
  intro number next read
  rw [Family.lines, List.cons_append, readLines_cons_iff] at read
  obtain ⟨middle, step, -⟩ := read
  rw [← readLine_eq_ok_iff, named] at step
  exact readLine_header_use closed middle step

theorem reads_families {families : List Family}
    (wellFormed : ∀ family ∈ families, family.WellFormed)
    (other : ['u', 's', 'e'] ∉ families.map Family.name) (closed : progress.current = none) :
    Reads progress (familyLines families)
      ⟨progress.uses, progress.families ++ families, none⟩ := by
  have reads := reads_of_written (written_families wellFormed other) (carries_plain _)
    (List.forall_mem_nil _) wellFormed closed
  rwa [List.append_nil] at reads

theorem stops_families {families : List Family}
    (wellFormed : ∀ family ∈ families, family.WellFormed)
    (named : ['u', 's', 'e'] ∈ families.map Family.name) (closed : progress.current = none) :
    Stops progress (familyLines families) := by
  induction families generalizing progress with
  | nil => exact absurd named List.not_mem_nil
  | cons family rest ih =>
      rw [List.forall_mem_cons] at wellFormed
      by_cases first : family.name = ['u', 's', 'e']
      · exact (stops_family first closed).cons_empty.append
      · rw [List.map_cons, List.mem_cons] at named
        have later := named.resolve_left (Ne.symm first)
        have single := reads_families (List.forall_mem_singleton.2 wellFormed.1)
          (by simpa using Ne.symm first) closed
        rw [familyLines, List.flatMap_singleton] at single
        exact single.stops (ih wellFormed.2 later rfl)

end Blocks

/-! ## Whole grammars -/

section Whole

variable {grammar : Grammar}

/-- The lines of a grammar with an empty line in front of each block. -/
def printedLines (grammar : Grammar) : List Text :=
  grammar.lineBlocks.flatMap ([] :: ·)

theorem unbroken_blockLines {family : Family} (wellFormed : family.WellFormed) :
    ∀ line ∈ family.blockLines, Unbroken line := by
  have indent : Unbroken "    ".toList := by decide
  have closing : Unbroken ['}'] := by decide
  rw [Family.blockLines, List.forall_mem_append, List.forall_mem_map, List.forall_mem_singleton]
  exact ⟨fun variant member => indent.append (wellFormed.variants variant member).unbroken, closing⟩

theorem unbroken_lines {family : Family} (wellFormed : family.WellFormed) :
    ∀ line ∈ family.lines, Unbroken line := by
  have opened : Unbroken [' ', '{'] := by decide
  exact List.forall_mem_cons.2
    ⟨wellFormed.name.quiet.unbroken.append opened, unbroken_blockLines wellFormed⟩

theorem mem_lineBlocks {block : List Text} (member : block ∈ grammar.lineBlocks) :
    (block = grammar.uses.map Use.text ∧ grammar.uses ≠ []) ∨
      ∃ family ∈ grammar.families, block = family.lines := by
  rw [lineBlocks, List.mem_append, List.mem_map] at member
  rcases member with isUses | ⟨family, isFamily, rfl⟩
  · split at isUses
    · exact absurd isUses List.not_mem_nil
    · next there => exact .inl ⟨List.mem_singleton.1 isUses, by simpa using there⟩
  · exact .inr ⟨family, isFamily, rfl⟩

theorem unbroken_of_mem_lineBlocks (wellFormed : grammar.WellFormed) :
    ∀ block ∈ grammar.lineBlocks, ∀ line ∈ block, Unbroken line := by
  intro block member line inside
  rcases mem_lineBlocks member with ⟨rfl, -⟩ | ⟨family, isFamily, rfl⟩
  · obtain ⟨use, isUse, rfl⟩ := List.mem_map.1 inside
    exact (wellFormed.uses use isUse).unbroken
  · exact unbroken_lines (wellFormed.families family isFamily) line inside

theorem ne_nil_of_mem_lineBlocks : ∀ block ∈ grammar.lineBlocks, block ≠ [] := by
  intro block member
  rcases mem_lineBlocks member with ⟨rfl, inhabited⟩ | ⟨family, -, rfl⟩
  · simpa using inhabited
  · simp [Family.lines]

/-- The text of a grammar is read like its lines. -/
theorem readText_text (wellFormed : grammar.WellFormed) :
    readText grammar.text = readLines .start 0 grammar.printedLines := by
  have unbroken := unbroken_of_mem_lineBlocks wellFormed
  have nonempty : ∀ block ∈ grammar.lineBlocks, block ≠ [] := ne_nil_of_mem_lineBlocks
  have spelled : grammar.text =
      Text.join ['\n', '\n'] (grammar.lineBlocks.map Text.ofLines) ++ ['\n'] := by
    rw [← blocks_eq]
    rfl
  rw [readText, spelled, printedLines]
  cases blocks : grammar.lineBlocks with
  | nil => rfl
  | cons block rest =>
      rw [blocks] at unbroken nonempty
      rw [Text.lines_blocks nonempty unbroken, List.flatMap_cons, List.cons_append,
        readLines_cons_empty]

/-- The lines of the uses with an empty line in front, if there are any. -/
def useLines (uses : List Use) : List Text :=
  if uses.isEmpty then [] else [] :: uses.map Use.text

theorem printedLines_eq (grammar : Grammar) :
    grammar.printedLines = useLines grammar.uses ++ familyLines grammar.families := by
  rw [printedLines, lineBlocks, List.flatMap_append, List.flatMap_map, familyLines, useLines]
  split <;> simp

theorem reads_useLines {uses : List Use} (wellFormed : ∀ use ∈ uses, use.WellFormed) :
    Reads .start (useLines uses) ⟨uses, [], none⟩ := by
  have reads : Reads .start (uses.map Use.text) ⟨uses, [], none⟩ :=
    reads_of_written (written_uses wellFormed) (carries_plain _) wellFormed (List.forall_mem_nil _)
      rfl
  unfold useLines
  split
  · next none =>
    obtain rfl := List.isEmpty_iff.1 none
    exact reads
  · exact reads.cons_empty

theorem reads_printedLines (wellFormed : grammar.WellFormed)
    (other : ['u', 's', 'e'] ∉ grammar.familyNames) :
    Reads .start grammar.printedLines ⟨grammar.uses, grammar.families, none⟩ := by
  rw [printedLines_eq]
  exact (reads_useLines wellFormed.uses).append (reads_families wellFormed.families other rfl)

theorem stops_printedLines (wellFormed : grammar.WellFormed)
    (named : ['u', 's', 'e'] ∈ grammar.familyNames) : Stops .start grammar.printedLines := by
  rw [printedLines_eq]
  exact (reads_useLines wellFormed.uses).stops (stops_families wellFormed.families named rfl)

/-- **When a grammar is loaded again from its text.**  A grammar that has been loaded is loaded
again from the text printed for it just if none of its families has the name `use`. -/
theorem load_text_iff {text : Text} (loaded : load text = .ok grammar) :
    load grammar.text = .ok grammar ↔ "use".toList ∉ grammar.familyNames := by
  have wellFormed := wellFormed_of_load loaded
  rw [load_eq_ok_iff, readText_text wellFormed, and_iff_left (load_eq_ok_iff.1 loaded).2]
  constructor
  · intro read named
    exact stops_printedLines wellFormed named 0 _ read
  · exact fun other => reads_printedLines wellFormed other 0

/-- A grammar with a family that is named like the word in front of a use. -/
def useFamily : Grammar :=
  ⟨[⟨['u', 's', 'e'], [⟨['A'], []⟩]⟩], []⟩

theorem useFamily_not_loaded_again :
    load "use\x7b A: \x7d" = .ok useFamily ∧
      load useFamily.text = .error (.malformedLine .notUse ['u', 's', 'e', ' ', '{'] (some 1)) := by
  decide +kernel

/-- A grammar with a use and an optional field. -/
def plainGrammar : Grammar :=
  ⟨[⟨['E'], [⟨['A'], [⟨['x'], .optional (.named ['T'])⟩]⟩]⟩], [⟨['m'], [['T']]⟩]⟩

theorem plainGrammar_loaded_again : load plainGrammar.text = .ok plainGrammar := by
  have loaded : load "use m: T\nE \x7b A: T? x \x7d" = .ok plainGrammar := by decide +kernel
  exact (load_text_iff loaded).2 (by decide)

end Whole

end Grammar

end TreeGrammar
