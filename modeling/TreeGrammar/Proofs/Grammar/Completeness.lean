/-
# TreeGrammar.Proofs.Grammar.Completeness -- every layout of a grammar is loaded

Each piece of a layout is read as what it was written for.  The loader trims a line before
it cuts it, and a part before it reads it, so the parts that it reads are the written ones
but for the blanks around them; what counts is that they are the same when trimmed.  A text
that lays out a well-formed grammar is therefore read to its end, and loaded unless the
grammar is not valid (`load_of_layout`).
-/
import TreeGrammar.Proofs.Grammar.Layout

set_option autoImplicit false

namespace TreeGrammar

open Grammar
open Text (AllBlank SolidEnds Quiet MarkedBy Padded)

theorem Grammar.IsName.quiet {name : Text} (named : IsName name) : Quiet name :=
  Text.quiet_of_isIdentifier named.1

theorem Grammar.IsName.solidEnds {name : Text} (named : IsName name) : SolidEnds name :=
  named.quiet.solidEnds

/-! ## Fields -/

section Fields

variable {field : Field} {text source : Text} {number : LineNumber}

theorem Field.Written.markedBy (written : field.Written text) (wellFormed : field.WellFormed) :
    MarkedBy [] text := by
  obtain ⟨type, gap, spelled, blank, -, padded⟩ := written
  exact padded.markedBy ((spelled.markedBy.append blank.markedBy).append
    wellFormed.name.quiet.markedBy)

/-- A written field is solid at its ends when it is trimmed. -/
theorem Field.Written.trim_eq (written : field.Written text) (wellFormed : field.WellFormed) :
    ∃ type gap, TypeRef.Spells field.type type ∧ AllBlank gap ∧ gap ≠ [] ∧
      Text.trim text = type ++ gap ++ field.name := by
  obtain ⟨type, gap, spelled, blank, there, padded⟩ := written
  have solid : SolidEnds (type ++ gap ++ field.name) :=
    spelled.solidEnds.around gap wellFormed.name.solidEnds spelled.ne_nil wellFormed.name.ne_nil
  exact ⟨type, gap, spelled, blank, there, padded.trim_eq solid⟩

theorem Field.Written.trim_ne_nil (written : field.Written text) (wellFormed : field.WellFormed) :
    Text.trim text ≠ [] := by
  obtain ⟨type, gap, -, -, -, trimmed⟩ := written.trim_eq wellFormed
  rw [trimmed]
  exact List.append_ne_nil_of_right_ne_nil _ wellFormed.name.ne_nil

/-- What is a written field when it is trimmed is read as that field. -/
theorem Field.parse_of_written (written : field.Written text) (wellFormed : field.WellFormed)
    {entry : Text} (same : Text.trim entry = Text.trim text) {variant : Text} {before : List Field}
    (new : field.name ∉ before.map Field.name) :
    Field.parse variant before source number entry = .ok field := by
  obtain ⟨type, gap, spelled, blank, there, trimmed⟩ := written.trim_eq wellFormed
  obtain ⟨⟨front, after, allFront, allAfter, whole⟩, -⟩ := Text.padded_trim entry
  have back : Text.trimEnd (front ++ type) = front ++ type := by
    refine Text.trimEnd_of_back fun c last => spelled.solidEnds.back c ?_
    rw [List.getLast?_append, List.getLast?_eq_some_getLast spelled.ne_nil] at last
    rwa [List.getLast?_eq_some_getLast spelled.ne_nil]
  have begins : Text.trimEnd (front ++ type) ≠ [] := by
    rw [back]
    exact List.append_ne_nil_of_right_ne_nil front spelled.ne_nil
  have cut : Text.cutLastWord? entry = some (front ++ type, field.name) := by
    have spelling : entry = front ++ type ++ gap ++ field.name ++ after := by
      rw [whole, same, trimmed]
      simp
    rw [spelling, Text.cutLastWord?_append blank there wellFormed.name.ne_nil
      wellFormed.name.quiet.solid allAfter begins, back]
  have padded : Padded type (front ++ type) := ⟨front, [], allFront, Text.allBlank_nil, by simp⟩
  exact Field.parse_eq_ok_iff.2 ⟨_, cut, wellFormed.name, wellFormed.free, new,
    TypeRef.parse_of_spells spelled padded⟩

theorem Field.parseAll_of_written {parts : List Text} {fields : List Field}
    (written : List.Forall₂ (fun part field => Field.Written field part) parts fields)
    (wellFormed : ∀ field ∈ fields, field.WellFormed) {entries : List Text}
    (same : entries.map Text.trim = parts.map Text.trim) {before : List Field}
    (distinct : ((before ++ fields).map Field.name).Nodup) {variant : Text} :
    Field.parseAll variant source number before entries = .ok (before ++ fields) := by
  induction written generalizing before entries with
  | nil =>
      obtain rfl : entries = [] := by simpa using same
      rw [Field.parseAll, List.append_nil]
  | @cons part field parts fields spelling rest ih =>
      cases entries with
      | nil => simp at same
      | cons entry entries =>
          obtain ⟨first, others⟩ := List.cons.inj same
          rw [List.forall_mem_cons] at wellFormed
          have new : field.name ∉ before.map Field.name := by
            rw [List.map_append, List.nodup_append] at distinct
            exact fun old => distinct.2.2 _ old _ (by simp) rfl
          rw [List.append_cons] at distinct ⊢
          rw [Field.parseAll, Field.parse_of_written spelling wellFormed.1 first new]
          exact ih wellFormed.2 others distinct

end Fields

/-! ## Items with commas -/

section Listed

variable {α : Type} {Written : α → Text → Prop} {items : List α} {parts : List Text} {text : Text}

theorem markedBy_of_written
    (written : List.Forall₂ (fun part item => Written item part) parts items)
    (each : ∀ item ∈ items, ∀ part, Written item part → MarkedBy [] part) :
    ∀ part ∈ parts, MarkedBy [] part := by
  induction written with
  | nil => exact List.forall_mem_nil _
  | cons writes rest ih =>
      rw [List.forall_mem_cons] at each ⊢
      exact ⟨each.1 _ writes, ih each.2⟩

theorem Listed.markedBy (listed : Listed Written items text)
    (each : ∀ item ∈ items, ∀ part, Written item part → MarkedBy [] part) :
    MarkedBy [','] text := by
  obtain ⟨part, parts, written, rfl⟩ := listed
  have comma : MarkedBy [','] [','] := fun c member _ => member
  refine Text.markedBy_join comma fun other member => ?_
  exact (markedBy_of_written written each other member).mono (List.nil_subset _)

/-- A list is cut into the parts that were written. -/
theorem Listed.split (listed : Listed Written items text)
    (each : ∀ item ∈ items, ∀ part, Written item part → MarkedBy [] part) :
    List.Forall₂ (fun part item => Written item part) (Text.split ',' text) items := by
  obtain ⟨part, parts, written, rfl⟩ := listed
  have absent : ∀ other ∈ part :: parts, ',' ∉ other := fun other member =>
    (markedBy_of_written written each other member).absent (by decide) (by decide)
  rwa [Text.split_join absent]

end Listed

/-! ## Variants -/

section Variants

variable {variant : Variant} {fields : List Field} {text source : Text} {number : LineNumber}

theorem FieldsWritten.markedBy (written : FieldsWritten fields text)
    (wellFormed : ∀ field ∈ fields, field.WellFormed) : MarkedBy [','] text := by
  cases written with
  | empty allBlank => exact allBlank.markedBy
  | listed listed =>
      exact listed.markedBy fun field member _ spelled => spelled.markedBy (wellFormed field member)

theorem FieldsWritten.entries (written : FieldsWritten fields text)
    (wellFormed : ∀ field ∈ fields, field.WellFormed) :
    ∃ parts, List.Forall₂ (fun part field => Field.Written field part) parts fields ∧
      (Variant.entries text).map Text.trim = parts.map Text.trim := by
  unfold Variant.entries
  cases written with
  | empty allBlank => exact ⟨[], .nil, by rw [if_pos (Text.trim_of_allBlank allBlank)]⟩
  | listed listed =>
      have spelled := listed.split fun field member _ spelling =>
        spelling.markedBy (wellFormed field member)
      have same : (Text.split ',' (Text.trim text)).map Text.trim =
          (Text.split ',' text).map Text.trim := Text.map_trim_split_trim (by decide) text
      have there : Text.trim text ≠ [] := by
        -- the only part of an empty text is empty, but no trimmed field is
        intro empty
        rw [empty] at same
        cases parts : Text.split ',' text with
        | nil => exact Text.split_ne_nil _ _ parts
        | cons part rest =>
            rw [parts] at spelled same
            obtain ⟨field, others, writes, -, rfl⟩ := List.forall₂_cons_left_iff.1 spelled
            have trimmed : Text.trim part = [] := (List.cons.inj same).1.symm
            exact writes.trim_ne_nil (wellFormed field (by simp)) trimmed
      exact ⟨_, spelled, by rw [if_neg there, same]⟩

theorem Variant.Written.markedBy (written : variant.Written text)
    (wellFormed : variant.WellFormed) : MarkedBy [':', ','] text := by
  obtain ⟨name, fields, padded, listed, rfl⟩ := written
  have named : MarkedBy [':', ','] name := padded.markedBy wellFormed.name.quiet.markedBy
  exact named.append
    (((listed.markedBy wellFormed.fields).mono (by simp)).cons fun _ => by simp)

theorem Variant.Written.trim_ne_nil (written : variant.Written text) : Text.trim text ≠ [] := by
  obtain ⟨name, fields, -, -, rfl⟩ := written
  rw [Text.trim_append_cons (by decide)]
  simp

/-- **A written variant is read as that variant.** -/
theorem Variant.parse_of_written (written : variant.Written text)
    (wellFormed : variant.WellFormed) :
    Variant.parse (Text.trim text) number source = .ok variant := by
  obtain ⟨name, fields, padded, listed, rfl⟩ := written
  have named : MarkedBy [] name := padded.markedBy wellFormed.name.quiet.markedBy
  have absent : ':' ∉ Text.trimStart name :=
    (named.subset (Text.trimStart_subset name)).absent (by decide) (by simp)
  have cut : Text.cut ':' (Text.trim (name ++ ':' :: fields)) =
      (Text.trimStart name, some (Text.trimEnd fields)) := by
    rw [Text.trim_append_cons (by decide)]
    exact Text.cut_append absent _
  obtain ⟨parts, spelled, same⟩ := listed.entries wellFormed.fields
  have entries : Variant.entries (Text.trimEnd fields) = Variant.entries fields := by
    rw [Variant.entries, Variant.entries, Text.trim_trimEnd]
  refine Variant.parse_eq_ok_iff.2 ⟨_, _, cut, ?_, wellFormed.name, ?_⟩
  · rw [Text.trim_trimStart, padded.trim_eq wellFormed.name.solidEnds]
  · rw [entries]
    have distinct : (([] ++ variant.fields).map Field.name).Nodup := wellFormed.distinct
    exact Field.parseAll_of_written spelled wellFormed.fields same distinct

end Variants

/-! ## Uses -/

section Uses

variable {use : Use} {text : Text} {number : LineNumber}

theorem Use.WellFormed.quiet_path (wellFormed : use.WellFormed) : Quiet use.path := by
  intro c member
  rw [← Text.join_split '.' use.path] at member
  rcases Text.mem_join member with point | ⟨part, isPart, inside⟩
  · rw [List.mem_singleton.1 point]
    decide
  · exact Text.quiet_of_isIdentifier (wellFormed.path part isPart) c inside

/-- A written use begins with the word `use` and a space when it is trimmed. -/
theorem Use.Written.trim_eq (written : use.Written text) :
    ∃ path names, Padded use.path path ∧ Listed Padded use.names names ∧
      Text.trim text = "use".toList ++ ' ' :: (path ++ ':' :: Text.trimEnd names) := by
  obtain ⟨indent, path, names, blank, padded, listed, rfl⟩ := written
  have spelled : indent ++ "use ".toList ++ path ++ ':' :: names =
      indent ++ ("use".toList ++ ' ' :: path) ++ ':' :: names := by simp
  have word : Text.trimStart ("use".toList ++ ' ' :: path) = "use".toList ++ ' ' :: path :=
    Text.trimStart_eq_self (by decide)
  refine ⟨path, names, padded, listed, ?_⟩
  rw [spelled, Text.trim_append_cons (by decide), Text.trimStart_append blank, word]
  simp

theorem Use.Written.isUseLine (written : use.Written text) : isUseLine (Text.trim text) = true := by
  obtain ⟨path, names, -, -, trimmed⟩ := written.trim_eq
  exact isUseLine_iff.2 (.inr ⟨_, by rw [trimmed]; rfl⟩)

theorem Use.Written.markedBy (written : use.Written text) (wellFormed : use.WellFormed) :
    MarkedBy [':', ','] text := by
  obtain ⟨indent, path, names, blank, padded, listed, rfl⟩ := written
  have word : MarkedBy [':', ','] "use ".toList := by decide
  have named : MarkedBy [':', ','] path := padded.markedBy wellFormed.quiet_path.markedBy
  have spelled : MarkedBy [','] names := listed.markedBy fun name member _ around =>
    around.markedBy (wellFormed.names name member).quiet.markedBy
  exact ((blank.markedBy.append word).append named).append
    ((spelled.mono (by simp)).cons fun _ => by simp)

theorem Use.entries_of_listed {names behind : Text} (listed : Listed Padded use.names names)
    (wellFormed : use.WellFormed)
    (same : (Text.split ',' behind).map Text.trim = (Text.split ',' names).map Text.trim) :
    Use.entries behind = use.names := by
  have padded := listed.split fun name member _ around =>
    around.markedBy (wellFormed.names name member).quiet.markedBy
  have trimmed : (Text.split ',' names).map Text.trim = use.names :=
    Text.map_trim_of_padded padded fun name member => (wellFormed.names name member).solidEnds
  rw [Use.entries, same, trimmed, List.filter_eq_self]
  exact fun name member => by simpa using (wellFormed.names name member).ne_nil

/-- **A written use is read as that use.** -/
theorem Use.parse_of_written (written : use.Written text) (wellFormed : use.WellFormed) :
    Use.parse (Text.trim text) number = .ok use := by
  obtain ⟨path, names, padded, listed, trimmed⟩ := written.trim_eq
  have spaced : Padded use.path (' ' :: path) := padded.behind Text.allBlank_space
  have named : MarkedBy [] (' ' :: path) := spaced.markedBy wellFormed.quiet_path.markedBy
  have absent : ':' ∉ Text.trimStart (' ' :: path) :=
    (named.subset (Text.trimStart_subset _)).absent (by decide) (by simp)
  have cut : Text.cut ':' (Text.trim (Text.dropStart "use" (Text.trim (Text.trim text)))) =
      (Text.trimStart (' ' :: path), some (Text.trimEnd (Text.trimEnd names))) := by
    rw [Text.trim_trim, trimmed, Text.dropStart_append, ← List.cons_append,
      Text.trim_append_cons (by decide)]
    exact Text.cut_append absent _
  refine Use.parse_eq_ok_iff.2 ⟨_, _, cut, ?_, Use.entries_of_listed listed wellFormed ?_,
    List.all_eq_true.2 wellFormed.path, wellFormed.inhabited, wellFormed.names⟩
  · rw [Text.trim_trimStart, spaced.trim_eq wellFormed.quiet_path.solidEnds]
  · rw [Text.map_trim_split_trimEnd (by decide), Text.map_trim_split_trimEnd (by decide)]

end Uses

/-! ## Variants on one line -/

section Bodies

variable {variants : List Variant} {parts : List Text} {body raw : Text} {number : Nat}

theorem VariantsWritten.markedBy (written : VariantsWritten variants parts)
    (wellFormed : ∀ variant ∈ variants, variant.WellFormed) :
    ∀ part ∈ parts, MarkedBy [':', ','] part := by
  induction written with
  | nil => exact List.forall_mem_nil _
  | blank allBlank _ ih => exact List.forall_mem_cons.2 ⟨allBlank.markedBy, ih wellFormed⟩
  | variant written _ ih =>
      rw [List.forall_mem_cons] at wellFormed
      exact List.forall_mem_cons.2 ⟨written.markedBy wellFormed.1, ih wellFormed.2⟩

theorem parseVariants_of_written (written : VariantsWritten variants parts)
    (wellFormed : ∀ variant ∈ variants, variant.WellFormed) {entries : List Text}
    (same : entries.map Text.trim = parts.map Text.trim) :
    parseVariants raw number entries = .ok variants := by
  induction written generalizing entries with
  | nil =>
      obtain rfl : entries = [] := by simpa using same
      rfl
  | blank allBlank _ ih =>
      cases entries with
      | nil => simp at same
      | cons entry entries =>
          obtain ⟨first, others⟩ := List.cons.inj same
          rw [parseVariants, if_pos (first.trans (Text.trim_of_allBlank allBlank))]
          exact ih wellFormed others
  | variant written _ ih =>
      cases entries with
      | nil => simp at same
      | cons entry entries =>
          obtain ⟨first, others⟩ := List.cons.inj same
          rw [List.forall_mem_cons] at wellFormed
          rw [parseVariants, first, if_neg written.trim_ne_nil,
            Variant.parse_of_written written wellFormed.1, ih wellFormed.2 others]
          rfl

/-- A line has at least one part, which may be blank. -/
theorem BodyWritten.exists_parts (written : BodyWritten variants body) :
    ∃ part parts, VariantsWritten variants (part :: parts) ∧
      body = Text.join [';'] (part :: parts) := by
  obtain ⟨parts, listed, rfl⟩ := written
  cases parts with
  | nil => exact ⟨[], [], .blank Text.allBlank_nil listed, rfl⟩
  | cons part parts => exact ⟨part, parts, listed, rfl⟩

theorem BodyWritten.markedBy (written : BodyWritten variants body)
    (wellFormed : ∀ variant ∈ variants, variant.WellFormed) : MarkedBy [':', ',', ';'] body := by
  obtain ⟨parts, listed, rfl⟩ := written
  have semicolon : MarkedBy [':', ',', ';'] [';'] := by decide
  exact Text.markedBy_join semicolon fun part member =>
    (listed.markedBy wellFormed part member).mono (by simp)

theorem BodyWritten.parse (written : BodyWritten variants body)
    (wellFormed : ∀ variant ∈ variants, variant.WellFormed) {line : Text}
    (same : (Text.split ';' line).map Text.trim = (Text.split ';' body).map Text.trim) :
    parseVariants raw number (Text.split ';' line) = .ok variants := by
  obtain ⟨part, parts, listed, rfl⟩ := written.exists_parts
  have absent : ∀ other ∈ part :: parts, ';' ∉ other := fun other member =>
    (listed.markedBy wellFormed other member).absent (by decide) (by decide)
  rw [Text.split_join absent] at same
  exact parseVariants_of_written listed wellFormed same

variable {progress : Progress} {family : OpenFamily}

/-- A line of variants leaves the family open. -/
theorem readBody_line (written : BodyWritten variants body)
    (wellFormed : ∀ variant ∈ variants, variant.WellFormed) :
    readBody progress family raw number (Text.trim body) = .ok
      { progress with
        current := some { family with variants := family.variants ++ variants } } := by
  have marked := (written.markedBy wellFormed).subset (Text.trim_subset body)
  have unbraced : '{' ∉ Text.trim body ∧ '}' ∉ Text.trim body :=
    ⟨marked.absent (by decide) (by decide), marked.absent (by decide) (by decide)⟩
  have unclosed : (Text.trim body).getLast? ≠ some '}' := fun last =>
    unbraced.2 (List.mem_of_getLast? last)
  have whole : bodyText (Text.trim body) = Text.trim body := if_neg unclosed
  refine readBody_eq_ok_iff.2 ⟨?_, variants, ?_, .more unclosed⟩ <;> rw [whole]
  · exact unbraced
  · exact written.parse wellFormed (Text.map_trim_split_trim (by decide) body)

/-- The line with the closing brace closes the family. -/
theorem readBody_last (written : BodyWritten variants body)
    (wellFormed : ∀ variant ∈ variants, variant.WellFormed)
    (inhabited : family.variants ++ variants ≠ []) {after : Text} (blank : AllBlank after) :
    readBody progress family raw number (Text.trim (body ++ '}' :: after)) = .ok
      ⟨progress.uses, progress.families ++ [⟨family.name, family.variants ++ variants⟩], none⟩ := by
  have marked := (written.markedBy wellFormed).subset (Text.trimStart_subset body)
  have ended : Text.trimEnd after = [] := by
    rw [← List.nil_append after, Text.trimEnd_append blank]
    rfl
  have line : Text.trim (body ++ '}' :: after) = Text.trimStart body ++ ['}'] := by
    rw [Text.trim_append_cons (by decide), ended]
  have closing : (Text.trimStart body ++ ['}']).getLast? = some '}' := List.getLast?_concat
  have whole : bodyText (Text.trimStart body ++ ['}']) = Text.trimStart body := by
    rw [bodyText, if_pos closing, List.dropLast_concat]
  rw [line]
  refine readBody_eq_ok_iff.2 ⟨?_, variants, ?_, .close closing inhabited⟩ <;> rw [whole]
  · exact ⟨marked.absent (by decide) (by decide), marked.absent (by decide) (by decide)⟩
  · exact written.parse wellFormed (Text.map_trim_split_trimStart (by decide) body)

end Bodies

namespace Grammar

/-! ## Blocks -/

section Blocks

variable {progress next : Progress} {raw content : Text} {number : Nat}

/-- A line says what stands before its comment. -/
theorem Carries.statement_eq (carries : Carries raw content) (uncommented : '#' ∉ content) :
    statement raw = Text.trim content := by
  cases carries with
  | plain => rw [statement, Text.cut_of_not_mem uncommented]
  | commented comment => rw [statement, Text.cut_append uncommented]

theorem markedBy_of_block {variants : List Variant} {contents : List Text}
    (block : BlockWritten variants contents)
    (wellFormed : ∀ variant ∈ variants, variant.WellFormed) :
    ∀ line ∈ contents, MarkedBy [':', ',', ';', '}'] line := by
  induction block with
  | last written blank =>
      refine List.forall_mem_singleton.2 ?_
      exact ((written.markedBy wellFormed).mono (by simp)).append
        (blank.markedBy.cons fun _ => by simp)
  | line written _ ih =>
      rw [List.forall_mem_append] at wellFormed
      exact List.forall_mem_cons.2
        ⟨(written.markedBy wellFormed.1).mono (by simp), ih wellFormed.2⟩

/-- Inside a family a line is read as its body, which changes nothing if it is blank. -/
theorem readLine_within {family : OpenFamily} (opened : progress.current = some family)
    (read : readBody progress family raw number (statement raw) = .ok next) :
    readLine progress raw number = .ok next := by
  refine readLine_eq_ok_iff.2 ?_
  by_cases empty : statement raw = []
  · have silent : readBody progress family raw number [] = .ok
        { progress with
          current := some { family with variants := family.variants ++ [] } } :=
      readBody_line ⟨[], .nil, rfl⟩ (List.forall_mem_nil _)
    rw [empty, silent, List.append_nil, ← opened] at read
    obtain rfl := Except.ok.inj read
    exact .silent empty
  · exact .body empty opened read

theorem exists_of_block {variants : List Variant} {contents : List Text}
    (block : BlockWritten variants contents) : ∃ line rest, contents = line :: rest := by
  cases block with
  | last => exact ⟨_, _, rfl⟩
  | line => exact ⟨_, _, rfl⟩

/-- **The lines of a family close it with the variants that they hold.** -/
theorem readBody_of_block {variants : List Variant} {line : Text} {contents raws : List Text}
    (block : BlockWritten variants (line :: contents)) (carry : List.Forall₂ Carries raws contents)
    (wellFormed : ∀ variant ∈ variants, variant.WellFormed) {family : OpenFamily}
    (inhabited : family.variants ++ variants ≠ []) :
    ∃ next, readBody progress family raw number (Text.trim line) = .ok next ∧
      Reads next raws ⟨progress.uses,
        progress.families ++ [⟨family.name, family.variants ++ variants⟩], none⟩ := by
  generalize whole : line :: contents = lines at block
  induction block generalizing line contents raws progress family raw number with
  | last written blank =>
      obtain ⟨rfl, rfl⟩ := List.cons.inj whole
      cases carry
      exact ⟨_, readBody_last written wellFormed inhabited blank, fun _ => rfl⟩
  | @line variants more body rest written block ih =>
      obtain ⟨rfl, rfl⟩ := List.cons.inj whole
      rw [List.forall_mem_append] at wellFormed
      refine ⟨_, readBody_line written wellFormed.1, fun number => ?_⟩
      obtain ⟨second, behind, rfl⟩ := exists_of_block block
      obtain ⟨raw, raws, carries, others, rfl⟩ := List.forall₂_cons_right_iff.1 carry
      have spoken : statement raw = Text.trim second :=
        carries.statement_eq ((markedBy_of_block block wellFormed.2 second (by simp)).absent
          (by decide) (by decide))
      let grown : OpenFamily := { family with variants := family.variants ++ variants }
      have whole : grown.variants ++ more = family.variants ++ (variants ++ more) :=
        List.append_assoc _ _ _
      obtain ⟨next, read, closes⟩ := ih others wellFormed.2 (whole ▸ inhabited) rfl
      rw [← spoken] at read
      rw [whole] at closes
      rw [readLines, readLine_within rfl read]
      exact closes _

/-- Whether a header is taken for a use does not hang on what stands behind its brace. -/
theorem isUseLine_header {front body rest : Text}
    (noUse : ¬ "use ".toList <+: front ++ '{' :: body) :
    isUseLine (front ++ '{' :: rest) = false := by
  rw [Bool.eq_false_iff]
  intro isUse
  have brace : '{' ∉ ['u', 's', 'e', ' '] := by decide
  cases isUseLine_iff.1 isUse with
  | inl same =>
      have inside : '{' ∈ front ++ '{' :: rest := by simp
      rw [same] at inside
      exact absurd inside (by decide)
  | inr begins =>
      have header : front ++ ['{'] <+: front ++ '{' :: rest := ⟨rest, by simp⟩
      cases List.prefix_or_prefix_of_prefix begins header with
      | inl shorter => exact noUse (shorter.trans ⟨body, by simp⟩)
      | inr longer => exact brace (longer.subset (by simp))

/-- A line that is not read as a use opens the family and is read on behind the brace. -/
theorem readLine_header {name indent gap body : Text} (named : IsName name)
    (indented : AllBlank indent) (spaced : AllBlank gap)
    (noUse : ¬ "use ".toList <+: name ++ gap ++ '{' :: body)
    (said : statement raw = Text.trim (indent ++ name ++ gap ++ '{' :: body))
    (closed : progress.current = none)
    (read : readBody progress ⟨name, raw, number, []⟩ raw number (Text.trim body) = .ok next) :
    readLine progress raw number = .ok next := by
  have spelled : statement raw = name ++ gap ++ '{' :: Text.trimEnd body := by
    have front : Text.trimStart (name ++ gap) = name ++ gap := by
      obtain ⟨c, rest, rfl⟩ := List.exists_cons_of_ne_nil named.ne_nil
      exact Text.trimStart_eq_self (named.solidEnds.front c rfl)
    rw [said, Text.trim_append_cons (by decide), List.append_assoc indent,
      Text.trimStart_append indented, front]
  have unopened : '{' ∉ name ++ gap := by
    have marked : MarkedBy [] (name ++ gap) := named.quiet.markedBy.append spaced.markedBy
    exact marked.absent (by decide) (by simp)
  have isHeader : isUseLine (statement raw) = false := spelled ▸ isUseLine_header noUse
  have opens : readHeader raw number (statement raw) =
      .ok (⟨name, raw, number, []⟩, Text.trim body) := by
    have trimmed : Text.trim (name ++ gap) = name := Text.trim_ahead named.solidEnds spaced
    have cut := Text.cut_append unopened (Text.trimEnd body)
    rw [← spelled] at cut
    exact readHeader_eq_ok_iff.2 ⟨_, _, cut, trimmed.symm ▸ named, by rw [trimmed],
      (Text.trim_trimEnd body).symm⟩
  exact readLine_eq_ok_iff.2 (.header (by simp [spelled]) closed isHeader opens read)

theorem reads_family {family : Family} {indent gap body : Text} {block raws : List Text}
    (indented : AllBlank indent) (spaced : AllBlank gap)
    (noUse : ¬ "use ".toList <+: family.name ++ gap ++ '{' :: body)
    (written : BlockWritten family.variants (body :: block)) (wellFormed : family.WellFormed)
    (carries : Carries raw (indent ++ family.name ++ gap ++ '{' :: body))
    (carry : List.Forall₂ Carries raws block) (closed : progress.current = none) :
    Reads progress (raw :: raws) ⟨progress.uses, progress.families ++ [family], none⟩ := by
  have marked : MarkedBy [':', ',', ';', '}', '{']
      (indent ++ family.name ++ gap ++ '{' :: body) := by
    have front : MarkedBy [':', ',', ';', '}', '{'] (indent ++ family.name ++ gap) :=
      (indented.markedBy.append wellFormed.name.quiet.markedBy).append spaced.markedBy
    have first := markedBy_of_block written wellFormed.variants body (by simp)
    exact front.append ((first.mono (by simp)).cons fun _ => by simp)
  have said := carries.statement_eq (marked.absent (by decide) (by decide))
  intro number
  let header : OpenFamily := ⟨family.name, raw, number, []⟩
  obtain ⟨next, read, closes⟩ := readBody_of_block written carry wellFormed.variants
    (show header.variants ++ family.variants ≠ [] from wellFormed.inhabited)
  rw [readLines, readLine_header wellFormed.name indented spaced noUse said closed read]
  exact closes _

end Blocks

/-! ## Lines between families -/

section Lines

variable {progress : Progress} {raw content : Text}

theorem reads_blank (blank : AllBlank content) (carries : Carries raw content) :
    Reads progress [raw] progress := by
  have marked : MarkedBy [] content := blank.markedBy
  have silent : statement raw = [] := by
    rw [carries.statement_eq (marked.absent (by decide) (by simp)), Text.trim_of_allBlank blank]
  exact reads_singleton fun _ => readLine_eq_ok_iff.2 (.silent silent)

theorem reads_use {use : Use} (written : use.Written content) (wellFormed : use.WellFormed)
    (carries : Carries raw content) (closed : progress.current = none) :
    Reads progress [raw] ⟨progress.uses ++ [use], progress.families, none⟩ := by
  have spoken : statement raw = Text.trim content :=
    carries.statement_eq ((written.markedBy wellFormed).absent (by decide) (by decide))
  obtain ⟨path, names, -, -, there⟩ := written.trim_eq
  refine reads_singleton fun number => readLine_eq_ok_iff.2 (.use ?_ closed ?_ ?_) <;> rw [spoken]
  · simp [there]
  · exact written.isUseLine
  · exact Use.parse_of_written written wellFormed

end Lines

/-! ## Whole texts -/

section Whole

variable {progress : Progress} {grammar : Grammar} {text : Text}

/-- **The lines of a layout are read as the uses and families that they hold.** -/
theorem reads_of_written {uses : List Use} {families : List Family} {contents raws : List Text}
    (written : Written uses families contents) (carry : List.Forall₂ Carries raws contents)
    (usesWellFormed : ∀ use ∈ uses, use.WellFormed)
    (familiesWellFormed : ∀ family ∈ families, family.WellFormed)
    (closed : progress.current = none) :
    Reads progress raws ⟨progress.uses ++ uses, progress.families ++ families, none⟩ := by
  induction written generalizing progress raws with
  | nil =>
      cases carry
      intro number
      rw [List.append_nil, List.append_nil, ← closed]
      rfl
  | empty allBlank _ ih =>
      obtain ⟨raw, raws, carries, others, rfl⟩ := List.forall₂_cons_right_iff.1 carry
      have first : Reads progress [raw] progress := reads_blank allBlank carries
      exact first.append (ih others usesWellFormed familiesWellFormed closed)
  | use written _ ih =>
      obtain ⟨raw, raws, carries, others, rfl⟩ := List.forall₂_cons_right_iff.1 carry
      rw [List.forall_mem_cons] at usesWellFormed
      have first := reads_use written usesWellFormed.1 carries closed
      have all := first.append (ih others usesWellFormed.2 familiesWellFormed rfl)
      rwa [List.append_assoc] at all
  | @family _ _ _ _ _ _ block rest indented spaced noUse written _ ih =>
      obtain ⟨raw, raws, carries, others, rfl⟩ := List.forall₂_cons_right_iff.1 carry
      rw [List.forall_mem_cons] at familiesWellFormed
      have inside := List.forall₂_take_append raws block rest others
      have behind := List.forall₂_drop_append raws block rest others
      have first := reads_family indented spaced noUse written familiesWellFormed.1 carries inside
        closed
      have all := first.append (ih behind usesWellFormed familiesWellFormed.2 rfl)
      rwa [List.append_assoc, List.cons_append, List.take_append_drop] at all

/-- **Every layout of a grammar is loaded.**  The loader answers with the grammar that was laid out
unless it is not valid, and then with the fault that the validation finds. -/
theorem load_of_layout (wellFormed : grammar.WellFormed) (layout : Layout grammar text) :
    load text = grammar.validate.map fun _ => grammar := by
  obtain ⟨lines, contents, broken, carry, written⟩ := layout
  have read : readText text = (⟨grammar.uses, grammar.families, none⟩, none) := by
    rw [readText, Text.lines_of_broken broken]
    exact reads_of_written written carry wellFormed.uses wellFormed.families rfl 1
  rw [load, read]
  change (grammar.validate >>= fun _ => pure grammar) = _
  cases grammar.validate with
  | error fault => rfl
  | ok _ => rfl

/-- A variant with fields of two kinds. -/
def looseVariant : Variant :=
  ⟨['A'], [⟨['x'], .optional (.named ['T'])⟩, ⟨['y'], .sequence (.named ['E'])⟩]⟩

/-- A grammar with a use and a variant without fields besides. -/
def looseGrammar : Grammar :=
  ⟨[⟨['E'], [looseVariant, ⟨['B'], []⟩]⟩], [⟨['m'], [['T']]⟩]⟩

/-- A layout of `looseGrammar` with the use behind the family. -/
def looseText : Text :=
  "# nodes\r\nE \x7bA: T ? x ,Sequence< E>\ty; ;\n B : \x0b\x7d # closed\n use m :T"

theorem looseGrammar_load_of_layout :
    looseGrammar.WellFormed ∧ Layout looseGrammar looseText ∧
      load looseText = .ok looseGrammar := by
  have wellFormed : looseGrammar.WellFormed := by
    have loaded : load "use m: T\nE \x7b A: T? x, List<E> y; B: \x7d" = .ok looseGrammar := by
      decide +kernel
    exact wellFormed_of_load loaded
  have isT : TypeRef.IsTypeName ['T'] := TypeRef.isTypeName_of_parts (by decide) rfl
  have isE : TypeRef.IsTypeName ['E'] := TypeRef.isTypeName_of_parts (by decide) rfl
  have marked : TypeRef.Spells (.optional (.named ['T'])) (['T'] ++ [' '] ++ ['?']) :=
    .marked (.named isT) (by decide) (by decide)
  have bracketed : TypeRef.Spells (.sequence (.named ['E'])) "Sequence< E>" :=
    .sequence (.inr rfl) (.named isE)
      ⟨[], [' '], [], by decide, by decide, by decide, by decide +kernel⟩
  have fields : Listed Field.Written looseVariant.fields
      (Text.join [','] [" T ? x ", "Sequence< E>\ty"]) := by
    refine ⟨_, _, .cons ⟨_, [' '], marked, by decide, by decide, ?_⟩
      (.cons ⟨_, ['\t'], bracketed, by decide, by decide, ?_⟩ .nil), rfl⟩
    · exact ⟨[' '], [' '], by decide, by decide, by decide +kernel⟩
    · exact ⟨[], [], by decide, by decide, by decide +kernel⟩
  have variants : BodyWritten [looseVariant] (Text.join [';']
      ["A: T ? x ,Sequence< E>\ty", [' '], []]) := by
    refine ⟨_, .variant ⟨['A'], _, Text.padded_self _, .listed fields, by decide +kernel⟩
      (.blank (by decide) (.blank (by decide) .nil)), rfl⟩
  have last : BodyWritten [⟨['B'], []⟩] " B : " := by
    refine ⟨[" B : "], .variant ⟨" B ", [' '], ⟨[' '], [' '], by decide, by decide, by decide⟩,
      .empty (by decide), by decide⟩ .nil, rfl⟩
  have block := BlockWritten.line variants (.line last (.last ⟨[], .nil, rfl⟩ Text.allBlank_space))
  have use : Use.Written ⟨['m'], [['T']]⟩ " use m :T" := by
    refine ⟨[' '], ['m', ' '], ['T'], by decide, ⟨[], [' '], by decide, by decide, rfl⟩,
      ⟨['T'], [], .cons (Text.padded_self _) .nil, rfl⟩, by decide⟩
  have written : Written looseGrammar.uses looseGrammar.families _ :=
    .empty Text.allBlank_nil (.family Text.allBlank_nil Text.allBlank_space (by decide +kernel)
      block (.use use .nil))
  have layout : Layout looseGrammar looseText := by
    refine ⟨_, _, ?_, .cons (.commented _ " nodes") (.cons (.plain _) (.cons (.plain _)
      (.cons (.commented _ " closed") (.cons (.plain _) .nil)))), written⟩
    exact Text.broken_iff.2 (by decide +kernel)
  exact ⟨wellFormed, layout, (load_of_layout wellFormed layout).trans (by decide +kernel)⟩

end Whole

end Grammar

end TreeGrammar
