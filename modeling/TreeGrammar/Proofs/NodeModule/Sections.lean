/-
# TreeGrammar.Proofs.NodeModule.Sections -- the sections of a text, found again

A text falls into sections where two empty lines follow each other.  Sections that are
written one behind the other are found again, if no line of theirs holds a line feed and
none of them has two empty lines together or one at its ends (`readSections_text`).
-/
import TreeGrammar.NodeModule.Printer
import TreeGrammar.Proofs.Text.Parts

set_option autoImplicit false

namespace TreeGrammar

open Text (split)

/-! ## Reading sections -/

/-- The sections, the first of them with one more line at its front. -/
def attach (line : Text) : List Section → List Section
  | [] => [[line]]
  | first :: others => (line :: first) :: others

/-- The sections between any two empty lines that follow each other. -/
def sectionsOf : List Text → List Section
  | [] => [[]]
  | [] :: [] :: rest => [] :: sectionsOf rest
  | line :: rest => attach line (sectionsOf rest)

/-- The sections of a text that ends with a line feed. -/
def readSections (text : Text) : List Section :=
  sectionsOf (split '\n' (Text.dropEnd "\n" text))

theorem sectionsOf_cons {line : Text} (there : line ≠ []) (rest : List Text) :
    sectionsOf (line :: rest) = attach line (sectionsOf rest) := by
  rw [sectionsOf]
  exact fun _ empty => absurd empty there

theorem sectionsOf_empty_cons {line : Text} (there : line ≠ []) (rest : List Text) :
    sectionsOf ([] :: line :: rest) = attach [] (sectionsOf (line :: rest)) := by
  rw [sectionsOf]
  exact fun _ _ same => there (List.cons.inj same).1

theorem mem_of_mem_attach {line other : Text} {sections : List Section} {lines : Section}
    (isSection : lines ∈ attach line sections) (member : other ∈ lines) :
    other = line ∨ ∃ later ∈ sections, other ∈ later := by
  cases sections with
  | nil =>
      obtain rfl := List.mem_singleton.1 isSection
      exact .inl (List.mem_singleton.1 member)
  | cons first others =>
      rcases List.mem_cons.1 isSection with rfl | isOther
      · exact (List.mem_cons.1 member).imp_right fun inFirst => ⟨first, List.mem_cons_self, inFirst⟩
      · exact .inr ⟨lines, List.mem_cons_of_mem _ isOther, member⟩

theorem mem_of_mem_sectionsOf {all : List Text} {lines : Section} {line : Text}
    (isSection : lines ∈ sectionsOf all) (member : line ∈ lines) : line ∈ all := by
  induction all using sectionsOf.induct generalizing lines with
  | case1 =>
      obtain rfl := List.mem_singleton.1 isSection
      exact member
  | case2 rest ih =>
      rw [sectionsOf, List.mem_cons] at isSection
      rcases isSection with rfl | isLater
      · exact absurd member List.not_mem_nil
      · exact List.mem_cons_of_mem _ (List.mem_cons_of_mem _ (ih isLater member))
  | case3 first rest single ih =>
      have whole : sectionsOf (first :: rest) = attach first (sectionsOf rest) := by
        rw [sectionsOf]
        exact single
      rw [whole] at isSection
      rcases mem_of_mem_attach isSection member with rfl | ⟨later, isLater, inside⟩
      · exact List.mem_cons_self
      · exact List.mem_cons_of_mem _ (ih isLater inside)

/-- The lines of its sections are lines of the text. -/
theorem mem_split_of_mem_readSections {text : Text} {lines : Section} {line : Text}
    (isSection : lines ∈ readSections text) (member : line ∈ lines) :
    line ∈ split '\n' text := by
  have inFront := mem_of_mem_sectionsOf isSection member
  rw [Text.dropEnd] at inFront
  cases ended : List.isSuffixOf? "\n" text with
  | none => rwa [ended] at inFront
  | some front =>
      rw [ended] at inFront
      rw [← List.isSuffixOf?_eq_some_iff_append_eq.1 ended]
      exact (Text.split_append_mark '\n' front []).symm ▸ List.mem_append_left _ inFront

/-! ## Dense sections -/

/-- Whether no two empty lines follow each other and none stands at the end; nor at the front, if
there is a gap in front of the lines. -/
def dense : Bool → Section → Bool
  | gap, [] => !gap
  | gap, [] :: rest => !gap && dense true rest
  | _, (_ :: _) :: rest => dense false rest

section Dense

variable {gap : Bool} {first rest lines : Section}

theorem dense_append (firstDense : dense gap first = true) (restDense : dense false rest = true) :
    dense gap (first ++ rest) = true := by
  induction gap, first using dense.induct with
  | case1 gap =>
      obtain rfl : gap = false := by simpa [dense] using firstDense
      exact restDense
  | case2 gap more ih =>
      rw [dense, Bool.and_eq_true] at firstDense
      rw [List.cons_append, dense, firstDense.1, ih firstDense.2]
      rfl
  | case3 gap c line more ih => exact ih firstDense

theorem dense_of_forall (there : ∀ line ∈ lines, line ≠ []) : dense false lines = true := by
  induction lines with
  | nil => rfl
  | cons line rest ih =>
      rw [List.forall_mem_cons] at there
      obtain ⟨c, more, rfl⟩ := List.exists_cons_of_ne_nil there.1
      exact ih there.2

theorem dense_flatMap {α : Type} {list : List α} {lines : α → Section}
    (each : ∀ entry ∈ list, dense false (lines entry) = true) :
    dense false (list.flatMap lines) = true := by
  induction list with
  | nil => rfl
  | cons entry rest ih =>
      rw [List.forall_mem_cons] at each
      exact dense_append each.1 (ih each.2)

theorem exists_line_of_dense (isDense : dense true lines = true) :
    ∃ line rest, lines = line :: rest ∧ line ≠ [] := by
  match lines, isDense with
  | (c :: line) :: rest, _ => exact ⟨c :: line, rest, rfl, List.cons_ne_nil c line⟩

theorem sectionsOf_dense (isDense : dense gap lines = true) : sectionsOf lines = [lines] := by
  induction gap, lines using dense.induct with
  | case1 gap => rfl
  | case2 gap rest ih =>
      rw [dense, Bool.and_eq_true] at isDense
      obtain ⟨line, more, rfl, there⟩ := exists_line_of_dense isDense.2
      rw [sectionsOf_empty_cons there, ih isDense.2]
      rfl
  | case3 gap c line rest ih =>
      rw [sectionsOf_cons (List.cons_ne_nil c line), ih isDense]
      rfl

/-- **A section ends at two empty lines**, and no sooner. -/
theorem sectionsOf_append (isDense : dense gap lines = true) (rest : List Text) :
    sectionsOf (lines ++ [] :: [] :: rest) = lines :: sectionsOf rest := by
  induction gap, lines using dense.induct with
  | case1 gap => rfl
  | case2 gap more ih =>
      rw [dense, Bool.and_eq_true] at isDense
      have later := ih isDense.2
      obtain ⟨line, others, rfl, there⟩ := exists_line_of_dense isDense.2
      rw [List.cons_append] at later
      rw [List.cons_append, List.cons_append, sectionsOf_empty_cons there, later]
      rfl
  | case3 gap c line more ih =>
      rw [List.cons_append, sectionsOf_cons (List.cons_ne_nil c line), ih isDense]
      rfl

end Dense

/-! ## Sections as text -/

theorem split_ofLines {lines : Section} (nonempty : lines ≠ [])
    (unbroken : ∀ line ∈ lines, '\n' ∉ line) : split '\n' (Text.ofLines lines) = lines := by
  obtain ⟨line, rest, rfl⟩ := List.exists_cons_of_ne_nil nonempty
  exact Text.split_join unbroken

theorem split_ofLines_append {lines : Section} (nonempty : lines ≠ [])
    (unbroken : ∀ line ∈ lines, '\n' ∉ line) (rest : Text) :
    split '\n' (Text.ofLines lines ++ '\n' :: rest) = lines ++ split '\n' rest := by
  induction lines with
  | nil => exact absurd rfl nonempty
  | cons line more ih =>
      rw [List.forall_mem_cons] at unbroken
      cases more with
      | nil => exact Text.split_append unbroken.1 rest
      | cons next others =>
          have later := ih (List.cons_ne_nil next others) unbroken.2
          rw [Text.ofLines, Text.join, List.append_assoc, List.append_assoc, List.singleton_append,
            Text.split_append unbroken.1]
          exact congrArg (line :: ·) later

/-- The section can be told from others around it. -/
structure Separable (lines : Section) : Prop where
  dense : dense true lines = true
  unbroken : ∀ line ∈ lines, '\n' ∉ line

theorem Separable.nonempty {lines : Section} (separable : Separable lines) : lines ≠ [] := by
  obtain ⟨line, rest, rfl, -⟩ := exists_line_of_dense separable.dense
  exact List.cons_ne_nil line rest

/-- **Sections are found again** in the text that they make. -/
theorem sectionsOf_join {first : Section} {others : List Section}
    (separable : ∀ lines ∈ first :: others, Separable lines) :
    sectionsOf (split '\n' (Text.join "\n\n\n" ((first :: others).map Text.ofLines))) =
      first :: others := by
  induction others generalizing first with
  | nil =>
      have single := separable first List.mem_cons_self
      rw [List.map_singleton, Text.join, split_ofLines single.nonempty single.unbroken,
        sectionsOf_dense single.dense]
  | cons next rest ih =>
      rw [List.forall_mem_cons] at separable
      obtain ⟨here, later⟩ := separable
      have feeds : ∀ text : Text, Text.ofLines first ++ "\n\n\n".toList ++ text =
          Text.ofLines first ++ '\n' :: '\n' :: '\n' :: text := fun text => List.append_assoc ..
      have empty : ∀ text : Text, split '\n' ('\n' :: text) = [] :: split '\n' text :=
        fun text => Text.split_append List.not_mem_nil text
      rw [List.map_cons, List.map_cons, Text.join, feeds,
        split_ofLines_append here.nonempty here.unbroken, empty, empty,
        sectionsOf_append here.dense, ← List.map_cons, ih later]

theorem NodeModule.readSections_text {module : NodeModule}
    (separable : ∀ lines ∈ module.sections, Separable lines) :
    readSections module.text = module.sections := by
  have ended : Text.dropEnd "\n" module.text =
      Text.join "\n\n\n" (module.sections.map Text.ofLines) :=
    Text.dropEnd_append _ _
  rw [readSections, ended]
  exact sectionsOf_join separable

end TreeGrammar
