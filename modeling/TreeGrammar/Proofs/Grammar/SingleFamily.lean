/-
# TreeGrammar.Proofs.Grammar.SingleFamily -- one family from its lines and from a text

The lines of a family can be read on their own, beside its name, or in a text, as a block
behind a header with the name.  Either way each line is read as the same variant
(`Variant.parse_trim_iff`), and the family must be valid.  But only a header is checked to
hold a name, and only a block to hold a variant.  So the two readers agree unless the first
answers with a family that cannot be declared: one without variants, with a name that is no
name, or with the name `use`, which is lost in a header (`loadFamily_agrees_iff`).
-/
import TreeGrammar.Proofs.Grammar.RoundTrip
import TreeGrammar.Proofs.Grammar.Soundness
import TreeGrammar.Proofs.Text.Identifier

set_option autoImplicit false

namespace TreeGrammar

open Grammar
open Text (SolidEnds Unbroken)

/-! ## One variant -/

section Variants

variable {source other : Text} {number line : LineNumber} {variant : Variant}

/-- Only errors show the source of a line and its number. -/
theorem Field.parseAll_source_iff {owner : Text} {before fields : List Field}
    {entries : List Text} :
    Field.parseAll owner source number before entries = .ok fields ↔
      Field.parseAll owner other line before entries = .ok fields := by
  induction entries generalizing before with
  | nil => rfl
  | cons entry rest ih =>
      rw [Field.parseAll, Field.parseAll, bind_eq_ok_iff, bind_eq_ok_iff]
      exact exists_congr fun field =>
        and_congr (Field.parse_eq_ok_iff.trans Field.parse_eq_ok_iff.symm) ih

theorem Variant.parse_marked_iff {before after : Text} (absent : ':' ∉ before) :
    Variant.parse (before ++ ':' :: after) number source = .ok variant ↔
      Text.trim before = variant.name ∧ IsName variant.name ∧
        Field.parseAll variant.name source number [] (Variant.entries after) =
          .ok variant.fields := by
  rw [Variant.parse_eq_ok_iff, Text.cut_append absent]
  constructor
  · rintro ⟨_, _, ⟨⟩, parsed⟩
    exact parsed
  · exact fun parsed => ⟨before, after, rfl, parsed⟩

theorem Variant.parse_unmarked {text : Text} (absent : ':' ∉ text) :
    Variant.parse text number source ≠ .ok variant := by
  intro parsed
  obtain ⟨before, after, cut, -⟩ := Variant.parse_eq_ok_iff.1 parsed
  rw [Text.cut_of_not_mem absent] at cut
  cases cut

/-- **A line is read as the same variant with and without the blanks around it**, whatever its
number and its source. -/
theorem Variant.parse_trim_iff {text : Text} :
    Variant.parse (Text.trim text) number source = .ok variant ↔
      Variant.parse text line other = .ok variant := by
  by_cases marked : ':' ∈ text
  · obtain ⟨before, after, rfl, absent⟩ := List.eq_append_cons_of_mem marked
    have trimmed : ':' ∉ Text.trimStart before := fun inside =>
      absent (Text.trimStart_subset before inside)
    have entries : Variant.entries (Text.trimEnd after) = Variant.entries after := by
      rw [Variant.entries, Variant.entries, Text.trim_trimEnd]
    rw [Text.trim_append_cons (by decide), Variant.parse_marked_iff trimmed,
      Variant.parse_marked_iff absent, Text.trim_trimStart, entries,
      Field.parseAll_source_iff]
  · have trimmed : ':' ∉ Text.trim text := fun inside => marked (Text.trim_subset text inside)
    exact iff_of_false (Variant.parse_unmarked trimmed) (Variant.parse_unmarked marked)

end Variants

namespace Grammar

/-! ## Lines of a block -/

/-- A text that can stand on a line and does not end it, or part it, or begin a comment. -/
structure Bare (text : Text) : Prop where
  unbroken : Unbroken text
  uncommented : '#' ∉ text
  whole : ';' ∉ text
  unopened : '{' ∉ text
  unclosed : '}' ∉ text

/-- The variants are those that the lines are read as, one for each line. -/
def Declares (lines : List Text) (variants : List Variant) : Prop :=
  List.Forall₂ (fun line variant => Variant.parse line none line = .ok variant) lines variants

theorem Declares.wellFormed {lines : List Text} {variants : List Variant}
    (declares : Declares lines variants) : ∀ variant ∈ variants, variant.WellFormed := by
  intro variant member
  obtain ⟨line, -, parsed⟩ := exists_of_forall₂ declares member
  exact Variant.wellFormed_of_parse parsed

theorem Declares.ne_nil_iff {lines : List Text} {variants : List Variant}
    (declares : Declares lines variants) : variants ≠ [] ↔ lines ≠ [] := by
  cases declares <;> simp

section Block

variable {progress next : Progress} {family : OpenFamily} {line : Text} {lines : List Text}
  {number : Nat}

theorem lineStep_within_iff (opened : progress.current = some family)
    (spoken : statement line ≠ []) :
    LineStep progress line number next ↔
      readBody progress family line number (statement line) = .ok next := by
  constructor
  · rintro (silent | ⟨-, same, read⟩ | ⟨-, closed⟩ | ⟨-, closed⟩)
    · exact absurd silent spoken
    · obtain rfl := Option.some.inj (opened.symm.trans same)
      exact read
    all_goals exact absurd (opened.symm.trans closed) (by simp)
  · exact .body spoken opened

/-- A line that is the only part of its body is read as one variant. -/
theorem parseVariants_line_iff {variants : List Variant} (spoken : Text.trim line ≠ []) :
    parseVariants line number [Text.trim line] = .ok variants ↔
      ∃ variant, Variant.parse line none line = .ok variant ∧ variants = [variant] := by
  have filtered : [Text.trim line].filter (Text.trim · ≠ []) = [Text.trim line] := by
    simpa using spoken
  have parsed : ∀ variant, Variant.parse (Text.trim (Text.trim line)) (some number) line =
      .ok variant ↔ Variant.parse line none line = .ok variant := by
    intro variant
    rw [Text.trim_trim, Variant.parse_trim_iff]
  rw [parseVariants_eq_ok_iff, filtered, List.forall₂_cons_left_iff]
  simp only [parsed, List.forall₂_nil_left_iff, exists_and_left, exists_eq_left]

/-- **One line of a block** adds the variant that it is read as. -/
theorem lineStep_bare_iff (opened : progress.current = some family) (bare : Bare line)
    (spoken : Text.trim line ≠ []) :
    LineStep progress line number next ↔
      ∃ variant, Variant.parse line none line = .ok variant ∧ next =
        { progress with
          current := some { family with variants := family.variants ++ [variant] } } := by
  have said := (Carries.plain line).statement_eq bare.uncommented
  have kept : ∀ {mark}, mark ∉ line → mark ∉ Text.trim line := fun absent inside =>
    absent (Text.trim_subset line inside)
  have unended : (Text.trim line).getLast? ≠ some '}' := fun last =>
    kept bare.unclosed (List.mem_of_getLast? last)
  have body : bodyText (Text.trim line) = Text.trim line := if_neg unended
  rw [lineStep_within_iff opened (said ▸ spoken), said, readBody_eq_ok_iff, body,
    and_iff_right ⟨kept bare.unopened, kept bare.unclosed⟩, Text.split_of_not_mem (kept bare.whole)]
  constructor
  · rintro ⟨variants, parsed, more | ⟨closes, -⟩⟩
    · obtain ⟨variant, read, rfl⟩ := (parseVariants_line_iff spoken).1 parsed
      exact ⟨variant, read, rfl⟩
    · exact absurd closes unended
  · rintro ⟨variant, read, rfl⟩
    exact ⟨[variant], (parseVariants_line_iff spoken).2 ⟨variant, read, rfl⟩, .more unended⟩

/-- The line with the brace closes a family that has a variant. -/
theorem lineStep_brace_iff (opened : progress.current = some family) :
    LineStep progress ['}'] number next ↔ family.variants ≠ [] ∧ next =
      ⟨progress.uses, progress.families ++ [⟨family.name, family.variants⟩], none⟩ := by
  have said : statement ['}'] = ['}'] := by decide
  have silent : ∀ variants, parseVariants ['}'] number (Text.split ';' (bodyText ['}'])) =
      .ok variants ↔ variants = [] := fun variants =>
    ⟨fun same => (Except.ok.inj same).symm, fun none => none ▸ rfl⟩
  rw [lineStep_within_iff opened (by decide), said, readBody_eq_ok_iff,
    and_iff_right (by decide)]
  constructor
  · rintro ⟨variants, parsed, unclosed | ⟨-, inhabited⟩⟩
    · exact absurd rfl unclosed
    · obtain rfl := (silent _).1 parsed
      rw [List.append_nil] at inhabited ⊢
      exact ⟨inhabited, rfl⟩
  · rintro ⟨inhabited, rfl⟩
    refine ⟨[], (silent _).2 rfl, ?_⟩
    have closes : BodyStep progress family ['}'] [] ⟨progress.uses,
        progress.families ++ [⟨family.name, family.variants ++ []⟩], none⟩ :=
      .close rfl (by rwa [List.append_nil])
    rwa [List.append_nil] at closes

/-- **A block is read** if each line is read as a variant and there is one. -/
theorem readLines_block_iff (opened : progress.current = some family)
    (bare : ∀ line ∈ lines, Bare line) (spoken : ∀ line ∈ lines, Text.trim line ≠ []) :
    readLines progress number (lines ++ [['}']]) = (next, none) ↔
      ∃ variants, Declares lines variants ∧ family.variants ++ variants ≠ [] ∧ next =
        ⟨progress.uses, progress.families ++ [⟨family.name, family.variants ++ variants⟩], none⟩
      := by
  induction lines generalizing progress family number with
  | nil =>
      rw [List.nil_append, readLines_cons_iff]
      simp only [lineStep_brace_iff opened, Declares, List.forall₂_nil_left_iff, exists_eq_left,
        List.append_nil]
      constructor
      · rintro ⟨_, ⟨inhabited, rfl⟩, ⟨⟩⟩
        exact ⟨inhabited, rfl⟩
      · rintro ⟨inhabited, rfl⟩
        exact ⟨_, ⟨inhabited, rfl⟩, rfl⟩
  | cons line rest ih =>
      rw [List.forall_mem_cons] at bare spoken
      rw [List.cons_append, readLines_cons_iff]
      simp only [lineStep_bare_iff opened bare.1 spoken.1, Declares, List.forall₂_cons_left_iff]
      constructor
      · rintro ⟨_, ⟨variant, first, rfl⟩, others⟩
        obtain ⟨variants, declares, inhabited, rfl⟩ := (ih rfl bare.2 spoken.2).1 others
        rw [List.append_assoc] at inhabited ⊢
        exact ⟨_, ⟨variant, variants, first, declares, rfl⟩, inhabited, rfl⟩
      · rintro ⟨_, ⟨variant, variants, first, declares, rfl⟩, inhabited, rfl⟩
        refine ⟨_, ⟨variant, first, rfl⟩, (ih rfl bare.2 spoken.2).2 ⟨variants, declares, ?_, ?_⟩⟩
        · rwa [List.append_assoc]
        · rw [List.append_assoc]
          rfl

/-- A line never takes a use back. -/
theorem uses_of_lineStep (step : LineStep progress line number next) :
    progress.uses <+: next.uses := by
  have within : ∀ {family : OpenFamily} {body : Text},
      readBody progress family line number body = .ok next → progress.uses <+: next.uses := by
    intro family body read
    obtain ⟨-, variants, -, step⟩ := readBody_eq_ok_iff.1 read
    cases step <;> exact List.prefix_rfl
  rcases step with silent | ⟨-, -, read⟩ | _ | ⟨-, -, -, -, read⟩
  · exact List.prefix_rfl
  · exact within read
  · exact List.prefix_append ..
  · exact within read

theorem uses_of_readLines (read : readLines progress number lines = (next, none)) :
    progress.uses <+: next.uses := by
  have kept : ∀ {middle : Progress} {raw : Text} {number : Nat} {next : Progress},
      progress.uses <+: middle.uses → LineStep middle raw number next →
        progress.uses <+: next.uses := fun begun step => begun.trans (uses_of_lineStep step)
  exact readLines_preserves kept List.prefix_rfl read

theorem statement_header {name : Text} (bare : Bare name) :
    statement (name ++ [' ', '{']) = Text.trim (name ++ [' ', '{']) :=
  (Carries.plain _).statement_eq (by simpa using bare.uncommented)

/-- What a header is cut into, and the name that is found there. -/
theorem cut_header {name : Text} (bare : Bare name) :
    ∃ front, statement (name ++ [' ', '{']) = front ++ ['{'] ∧
      Text.cut '{' (statement (name ++ [' ', '{'])) = (front, some []) ∧
      Text.trim front = Text.trim name := by
  have trimmed : Text.trim (name ++ [' ', '{']) = Text.trimStart (name ++ [' ']) ++ ['{'] := by
    rw [List.append_cons]
    exact Text.trim_append_cons (by decide) _ []
  have unopened : '{' ∉ Text.trimStart (name ++ [' ']) := by
    intro inside
    have before := Text.trimStart_subset _ inside
    simp [bare.unopened] at before
  refine ⟨Text.trimStart (name ++ [' ']), (statement_header bare).trans trimmed, ?_, ?_⟩
  · rw [statement_header bare, trimmed]
    exact Text.cut_append unopened []
  · rw [Text.trim_trimStart, ← Text.trim_trimEnd, Text.trimEnd_append Text.allBlank_space,
      Text.trim_trimEnd]

/-- **A header** opens a family with the name in it.  Taken for a use, it would add that use. -/
theorem lineStep_header_iff {name : Text} (closed : progress.current = none) (bare : Bare name)
    (unused : next.uses = progress.uses) :
    LineStep progress (name ++ [' ', '{']) number next ↔
      isUseLine (statement (name ++ [' ', '{'])) = false ∧ IsName (Text.trim name) ∧
        next = { progress with
          current := some ⟨Text.trim name, name ++ [' ', '{'], number, []⟩ } := by
  obtain ⟨front, spelled, cut, named⟩ := cut_header bare
  have spoken : statement (name ++ [' ', '{']) ≠ [] := by simp [spelled]
  constructor
  · rintro (silent | ⟨-, opened, -⟩ | _ | ⟨-, -, isHeader, opens, read⟩)
    · exact absurd silent spoken
    · exact absurd (closed.symm.trans opened) (by simp)
    · exact absurd unused (by simp)
    · obtain ⟨before, after, same, isName, rfl, rfl⟩ := readHeader_eq_ok_iff.1 opens
      obtain ⟨rfl, rfl⟩ : _ = before ∧ [] = after := by simpa [cut] using same
      rw [named] at isName read
      exact ⟨isHeader, isName, (Except.ok.inj read).symm⟩
  · rintro ⟨isHeader, isName, rfl⟩
    have opens : readHeader (name ++ [' ', '{']) number (statement (name ++ [' ', '{'])) =
        .ok (⟨Text.trim name, name ++ [' ', '{'], number, []⟩, []) :=
      readHeader_eq_ok_iff.2 ⟨_, _, cut, named ▸ isName, by rw [named], rfl⟩
    exact .header spoken closed isHeader opens rfl

end Block

/-! ## The text of a family -/

/-- A text with the name in a header, the lines behind it and a line with the closing brace. -/
def familyText (name : Text) (lines : List Text) : Text :=
  Text.ofLines ((name ++ [' ', '{']) :: lines ++ [['}']])

section Whole

variable {name : Text} {lines : List Text} {family : Family}

theorem lines_familyText (bare : Bare name) (bareLines : ∀ line ∈ lines, Bare line) :
    Text.lines (familyText name lines) = (name ++ [' ', '{']) :: (lines ++ [['}']]) := by
  have opens : Unbroken [' ', '{'] := by decide
  have unbroken : ∀ line ∈ (name ++ [' ', '{']) :: lines, Unbroken line :=
    List.forall_mem_cons.2 ⟨bare.unbroken.append opens, fun line member =>
      (bareLines line member).unbroken⟩
  exact Text.lines_ofLines_concat unbroken (by decide) (by decide)

/-- **Which families a text declares**: the header holds a name, each line is read as a variant, and
there is a line. -/
theorem load_familyText_iff (bare : Bare name) (bareLines : ∀ line ∈ lines, Bare line)
    (spoken : ∀ line ∈ lines, Text.trim line ≠ []) :
    load (familyText name lines) = .ok ⟨[family], []⟩ ↔
      isUseLine (statement (name ++ [' ', '{'])) = false ∧ IsName (Text.trim name) ∧
        family.name = Text.trim name ∧ lines ≠ [] ∧ Declares lines family.variants ∧
        validate ⟨[family], []⟩ = .ok () := by
  rw [load_eq_ok_iff, readText, lines_familyText bare bareLines, readLines_cons_iff]
  constructor
  · rintro ⟨⟨middle, header, block⟩, valid⟩
    have unused : middle.uses = [] := List.prefix_nil.1 (uses_of_readLines block)
    obtain ⟨isHeader, named, rfl⟩ := (lineStep_header_iff rfl bare unused).1 header
    obtain ⟨variants, declares, inhabited, same⟩ :=
      (readLines_block_iff rfl bareLines spoken).1 block
    obtain rfl : family = ⟨Text.trim name, variants⟩ := by simpa [Progress.start] using same
    exact ⟨isHeader, named, rfl, declares.ne_nil_iff.1 inhabited, declares, valid⟩
  · rintro ⟨isHeader, named, same, there, declares, valid⟩
    let opened : OpenFamily := ⟨Text.trim name, name ++ [' ', '{'], 1, []⟩
    let within : Progress := ⟨[], [], some opened⟩
    have unused : within.uses = Progress.start.uses := rfl
    have header : LineStep .start (name ++ [' ', '{']) 1 within :=
      (lineStep_header_iff rfl bare unused).2 ⟨isHeader, named, rfl⟩
    refine ⟨⟨_, header, ?_⟩, valid⟩
    have inhabited : opened.variants ++ family.variants ≠ [] := declares.ne_nil_iff.2 there
    have whole : family = ⟨opened.name, opened.variants ++ family.variants⟩ :=
      congrArg (Family.mk · family.variants) same
    exact (readLines_block_iff rfl bareLines spoken).2
      ⟨_, declares, inhabited, congrArg (Progress.mk [] [·] none) whole⟩

/-- A family is read from its lines with the name that stands beside them. -/
theorem loadFamily_eq_ok_iff :
    loadFamily name lines = .ok family ↔
      family.name = name ∧ Declares lines family.variants ∧
        validate ⟨[family], []⟩ = .ok () := by
  rw [loadFamily, bind_eq_ok_iff]
  simp only [mapM_eq_ok_iff, check_eq_ok_iff]
  constructor
  · rintro ⟨variants, declares, valid, same⟩
    obtain rfl := Except.ok.inj same
    exact ⟨rfl, declares, valid⟩
  · rintro ⟨rfl, declares, valid⟩
    exact ⟨family.variants, declares, valid, rfl⟩

/-! ## Names with blanks -/

/-- What a family that is alone in its grammar is checked for. -/
theorem validate_single_iff :
    validate ⟨[family], []⟩ = .ok () ↔
      family.moduleName ∉ keywords ∧ family.name ∉ generatedNames ∧
        family.visitorName ∉ generatedNames ∧ family.variantNames.Nodup ∧
        ∀ variant ∈ family.variants, variant.name ∉ generatedNames ∧
          variant.name ≠ family.visitorName ∧ variant.name ≠ family.name := by
  have alone : familyImports ⟨[family], []⟩ family = [] := by
    refine List.eq_nil_iff_forall_not_mem.2 fun entry imported => ?_
    obtain ⟨member, other⟩ := imported_other imported
    exact other (congrArg Family.name (List.mem_singleton.1 member))
  have reserved : reservedNames ⟨[family], []⟩ = generatedNames := List.append_nil _
  have taken : ∀ name, name ∉ takenNames ⟨[family], []⟩ family ↔
      name ∉ generatedNames ∧ name ≠ family.visitorName ∧ name ≠ family.name := by
    intro name
    rw [takenNames, alone, reserved]
    simp [familyNames]
  have visitor : family.visitorName ∉ generatedNames ++ [family.name] ↔
      family.visitorName ∉ generatedNames := by
    simp [(name_ne_visitorName family).symm]
  rw [validate_eq_ok_iff, and_iff_right (List.pairwise_singleton _ _), List.forall_mem_singleton]
  constructor
  · rintro ⟨module, named, visits, distinct, free⟩
    rw [reserved] at named visits
    exact ⟨module, named, visitor.1 visits, distinct, fun variant member =>
      (taken _).1 (free variant member)⟩
  · rintro ⟨module, named, visits, distinct, free⟩
    refine ⟨module, reserved.symm ▸ named, ?_, distinct, fun variant member =>
      (taken _).2 (free variant member)⟩
    rw [reserved]
    exact visitor.2 visits

/-- No text with a blank is one of these words. -/
theorem not_mem_of_blank {words : List Text}
    (solid : words.all (fun word => word.all (!Text.isBlank ·)) = true) {text : Text} {c : Char}
    (blank : Text.isBlank c = true) (inside : c ∈ text) : text ∉ words := by
  intro listed
  have each := List.all_eq_true.1 (List.all_eq_true.1 solid text listed) c inside
  simp [blank] at each

/-- A name with a blank stands for nothing else, so it may take the place of any name. -/
theorem validate_renamed {c : Char} (blank : Text.isBlank c = true) (inside : c ∈ name)
    (named : ∀ variant ∈ family.variants, IsName variant.name)
    (valid : validate ⟨[family], []⟩ = .ok ()) :
    validate ⟨[⟨name, family.variants⟩], []⟩ = .ok () := by
  obtain ⟨-, -, -, distinct, free⟩ := validate_single_iff.1 valid
  have generated : generatedNames.all (fun word => word.all (!Text.isBlank ·)) = true := by decide
  have words : keywords.all (fun word => word.all (!Text.isBlank ·)) = true := by decide
  have visits : c ∈ Family.visitorName ⟨name, family.variants⟩ := List.mem_append_left _ inside
  have other : ∀ variant ∈ family.variants, ∀ text, c ∈ text → variant.name ≠ text := by
    rintro variant member text within rfl
    exact absurd blank (Bool.eq_false_iff.1 ((named variant member).quiet.solid c within))
  refine validate_single_iff.2 ⟨?_, ?_, ?_, distinct, fun variant member => ⟨?_, ?_, ?_⟩⟩
  · exact not_mem_of_blank words blank (Text.mem_snakeCase_of_isBlank blank inside)
  · exact not_mem_of_blank generated blank inside
  · exact not_mem_of_blank generated blank visits
  · exact (free variant member).1
  · exact other variant member _ visits
  · exact other variant member _ inside

/-- A name may be valid with the blanks around it wherever it is without them. -/
theorem validate_untrimmed (named : ∀ variant ∈ family.variants, IsName variant.name)
    (trimmed : family.name = Text.trim name) (valid : validate ⟨[family], []⟩ = .ok ()) :
    validate ⟨[⟨name, family.variants⟩], []⟩ = .ok () := by
  obtain ⟨⟨before, after, allBefore, allAfter, whole⟩, -⟩ := Text.padded_trim name
  cases around : before ++ after with
  | nil =>
      obtain ⟨rfl, rfl⟩ := List.append_eq_nil_iff.1 around
      have same : name = family.name := by simpa [trimmed] using whole
      rwa [same]
  | cons c rest =>
      have member : c ∈ before ++ after := around ▸ List.mem_cons_self
      have blank : Text.isBlank c = true := (allBefore.append allAfter) c member
      have inside : c ∈ name := by
        rw [whole]
        rcases List.mem_append.1 member with front | back
        · simp [front]
        · simp [back]
      exact validate_renamed blank inside named valid

/-! ## The two readers -/

/-- The header of a family with another name is not taken for a use. -/
theorem header_not_use (bare : Bare name) (named : IsName name) (other : name ≠ ['u', 's', 'e']) :
    isUseLine (statement (name ++ [' ', '{'])) = false := by
  have brace : SolidEnds ['{'] := by
    constructor <;> rintro _ ⟨⟩ <;> rfl
  have solid : SolidEnds (name ++ [' '] ++ ['{']) :=
    named.solidEnds.around [' '] brace named.ne_nil (List.cons_ne_nil _ _)
  rw [statement_header bare, List.append_cons, Text.trim_of_solidEnds solid]
  exact isUseLine_header (header_unused named other)

/-- **When the two readers of a family agree.**  A family is read from its lines and the name beside
them just if it is the one family of the text with that name and those lines, if and only if the
lines are refused or there is a line and the name is one that a header can hold. -/
theorem loadFamily_agrees_iff (bare : Bare name) (bareLines : ∀ line ∈ lines, Bare line)
    (spoken : ∀ line ∈ lines, Text.trim line ≠ []) :
    (∀ family, loadFamily name lines = .ok family ↔
        load (familyText name lines) = .ok ⟨[family], []⟩) ↔
      ((∃ family, loadFamily name lines = .ok family) →
        IsName name ∧ name ≠ "use" ∧ lines ≠ []) := by
  simp only [load_familyText_iff bare bareLines spoken]
  constructor
  · rintro agrees ⟨family, read⟩
    obtain ⟨isHeader, named, trimmed, there, -⟩ := (agrees family).1 read
    obtain ⟨kept, -⟩ := loadFamily_eq_ok_iff.1 read
    rw [← trimmed, kept] at named
    refine ⟨named, ?_, there⟩
    rintro rfl
    exact absurd isHeader (by decide)
  · intro holds family
    constructor
    · intro read
      obtain ⟨named, other, there⟩ := holds ⟨family, read⟩
      obtain ⟨rfl, declares, valid⟩ := loadFamily_eq_ok_iff.1 read
      have trimmed := Text.trim_of_solidEnds named.solidEnds
      exact ⟨header_not_use bare named other, trimmed.symm ▸ named, trimmed.symm, there, declares,
        valid⟩
    · rintro ⟨-, -, trimmed, -, declares, valid⟩
      have isName : ∀ variant ∈ family.variants, IsName variant.name := fun variant member =>
        (declares.wellFormed variant member).name
      -- read beside the name as it stands, the family is refused by neither check
      have read : loadFamily name lines = .ok ⟨name, family.variants⟩ :=
        loadFamily_eq_ok_iff.2 ⟨rfl, declares, validate_untrimmed isName trimmed valid⟩
      have whole := Text.trim_of_solidEnds (holds ⟨_, read⟩).1.solidEnds
      exact loadFamily_eq_ok_iff.2 ⟨trimmed.trans whole, declares, valid⟩

/-- A variant with a field and one without, behind a blank. -/
def plainLines : List Text :=
  ["A: T? x", " B:"]

theorem plainLines_agree :
    ∃ family, loadFamily ['E'] plainLines = .ok family ∧
      load (familyText ['E'] plainLines) = .ok ⟨[family], []⟩ := by
  have bare : Bare ['E'] := by constructor <;> decide
  have bareLines : ∀ line ∈ plainLines, Bare line := by
    refine List.forall_mem_cons.2 ⟨?_, List.forall_mem_singleton.2 ?_⟩ <;> constructor <;> decide
  have named : IsName ['E'] := ⟨by decide +kernel, by decide⟩
  have agrees := (loadFamily_agrees_iff bare bareLines (by decide)).2 fun _ =>
    ⟨named, by decide, by decide⟩
  let family : Family := ⟨['E'], [⟨['A'], [⟨['x'], .optional (.named ['T'])⟩]⟩, ⟨['B'], []⟩]⟩
  have read : loadFamily ['E'] plainLines = .ok family := by decide +kernel
  exact ⟨family, read, (agrees family).1 read⟩

/-- Beside lines a name is not looked at, and there need be no lines. -/
theorem stray_families_read :
    (loadFamily ['9', 'x'] [['A', ':']] = .ok ⟨['9', 'x'], [⟨['A'], []⟩]⟩ ∧
      load (familyText ['9', 'x'] [['A', ':']]) =
        .error (.invalidName (.notIdentifier .family ['9', 'x']) (some 1))) ∧
    (loadFamily "use" [['A', ':']] = .ok ⟨"use", [⟨['A'], []⟩]⟩ ∧
      load (familyText "use" [['A', ':']]) =
        .error (.malformedLine .notUse ['u', 's', 'e', ' ', '{'] (some 1))) ∧
    loadFamily ['E'] [] = .ok ⟨['E'], []⟩ ∧
      load (familyText ['E'] []) =
        .error (.malformedLine .noVariants ['E', ' ', '{'] (some 1)) := by
  decide +kernel

end Whole

end Grammar

end TreeGrammar
