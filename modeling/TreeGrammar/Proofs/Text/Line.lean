/-
# TreeGrammar.Proofs.Text.Line -- texts made of lines

A text holds lines with breaks behind them in one way only (`broken_iff`), and a line feed
between two texts parts the lines of the one from those of the other (`exists_lines_joined`).
-/
import TreeGrammar.Proofs.Text.Parts

set_option autoImplicit false

namespace TreeGrammar.Text

/-! ## Lines -/

/-- No line break stands in the text. -/
def Unbroken (text : Text) : Prop :=
  ∀ c ∈ text, isLineBreak c = false

instance (text : Text) : Decidable (Unbroken text) :=
  List.decidableBAll (isLineBreak · = false) text

theorem Quiet.unbroken {text : Text} (quiet : Quiet text) : Unbroken text := by
  intro c member
  rw [Bool.eq_false_iff]
  intro ends
  exact absurd ((quiet.solid c member).symm.trans (isBlank_of_isLineBreak ends)) (by simp)

theorem Unbroken.append {first second : Text} (unbroken : Unbroken first)
    (others : Unbroken second) : Unbroken (first ++ second) := by
  intro c member
  cases List.mem_append.1 member with
  | inl inFirst => exact unbroken c inFirst
  | inr inSecond => exact others c inSecond

theorem unbroken_join {separator : Text} {parts : List Text} (between : Unbroken separator)
    (each : ∀ part ∈ parts, Unbroken part) : Unbroken (join separator parts) := by
  intro c member
  cases mem_join member with
  | inl inSeparator => exact between c inSeparator
  | inr inside =>
      obtain ⟨part, listed, inPart⟩ := inside
      exact each part listed c inPart

/-- What ends a line: one character, or a carriage return with its line feed. -/
inductive IsBreak : Text → Prop
  | pair : IsBreak ['\r', '\n']
  | single {c : Char} (ends : isLineBreak c = true) : IsBreak [c]

/-- The text holds the lines, each with a break behind it; the last line may go without one.  A
carriage return in front of a line feed is no break of its own. -/
inductive Broken : List Text → Text → Prop
  | nil : Broken [] []
  | last {line : Text} (unbroken : Unbroken line) (nonempty : line ≠ []) : Broken [line] line
  | cons {line ending rest : Text} {lines : List Text} (unbroken : Unbroken line)
      (ends : IsBreak ending) (whole : ending = ['\r'] → rest.head? ≠ some '\n')
      (others : Broken lines rest) : Broken (line :: lines) (line ++ ending ++ rest)

theorem lines_cons {c : Char} (rest : Text) (whole : c = '\r' → rest.head? ≠ some '\n') :
    lines (c :: rest) =
      if isLineBreak c then [] :: lines rest else consFirst c (lines rest) := by
  refine lines.eq_3 c rest fun tail same behind => ?_
  exact whole same (by rw [behind]; rfl)

theorem lines_break {ending rest : Text} (ends : IsBreak ending)
    (whole : ending = ['\r'] → rest.head? ≠ some '\n') :
    lines (ending ++ rest) = [] :: lines rest := by
  cases ends with
  | pair => rfl
  | @single c ends =>
      rw [List.singleton_append, lines_cons rest fun same => whole (by rw [same]), if_pos ends]

theorem lines_append_break {line ending rest : Text} (unbroken : Unbroken line)
    (ends : IsBreak ending) (whole : ending = ['\r'] → rest.head? ≠ some '\n') :
    lines (line ++ ending ++ rest) = line :: lines rest := by
  induction line with
  | nil => exact lines_break ends whole
  | cons c more ih =>
      rw [Unbroken, List.forall_mem_cons] at unbroken
      have notReturn : c ≠ '\r' := by
        rintro rfl
        exact absurd unbroken.1 (by decide)
      rw [List.cons_append, List.cons_append, lines_cons _ fun same => absurd same notReturn,
        ih unbroken.2, if_neg (by simp [unbroken.1])]
      rfl

theorem lines_append {line : Text} (unbroken : Unbroken line) (rest : Text) :
    lines (line ++ '\n' :: rest) = line :: lines rest := by
  rw [← lines_append_break unbroken (.single (c := '\n') (by decide)) (by simp)]
  simp

/-- **A text is cut into the lines that it holds.** -/
theorem lines_of_broken {list : List Text} {text : Text} (broken : Broken list text) :
    lines text = list := by
  induction broken with
  | nil => rfl
  | last unbroken nonempty => exact lines_eq_singleton unbroken nonempty
  | cons unbroken ends whole _ ih => rw [lines_append_break unbroken ends whole, ih]

theorem Broken.consFirst {c : Char} {list : List Text} {text : Text} (broken : Broken list text)
    (solid : isLineBreak c = false) : Broken (consFirst c list) (c :: text) := by
  have longer : ∀ {line : Text}, Unbroken line → Unbroken (c :: line) := fun unbroken =>
    List.forall_mem_cons.2 ⟨solid, unbroken⟩
  cases broken with
  | nil => exact .last (longer (List.forall_mem_nil _)) (List.cons_ne_nil c [])
  | last unbroken _ => exact .last (longer unbroken) (List.cons_ne_nil c _)
  | cons unbroken ends whole others => exact .cons (longer unbroken) ends whole others

/-- Induction on a text in the steps in which it is cut into lines: a carriage return and its line
feed are one step. -/
@[elab_as_elim]
theorem stepInduction {motive : Text → Prop} (nil : motive [])
    (pair : ∀ rest, motive rest → motive ('\r' :: '\n' :: rest))
    (single : ∀ c rest, (c = '\r' → rest.head? ≠ some '\n') → motive rest → motive (c :: rest))
    (text : Text) : motive text := by
  have alone : ∀ {c : Char} {rest : Text}, (∀ tail, c = '\r' → rest = '\n' :: tail → False) →
      c = '\r' → rest.head? ≠ some '\n' := by
    intro c rest whole same head
    obtain ⟨tail, rfl⟩ := List.head?_eq_some_iff.1 head
    exact whole tail same rfl
  induction text using lines.induct with
  | case1 => exact nil
  | case2 rest ih => exact pair rest ih
  | case3 c rest whole _ ih => exact single c rest (alone whole) ih
  | case4 c rest whole _ ih => exact single c rest (alone whole) ih

/-- Every text holds the lines it is cut into. -/
theorem broken_lines (text : Text) : Broken (lines text) text := by
  have empty : Unbroken [] := List.forall_mem_nil _
  induction text using stepInduction with
  | nil => exact .nil
  | pair rest ih => exact .cons empty .pair (by simp) ih
  | single c rest whole ih =>
      rw [lines_cons rest whole]
      by_cases ends : isLineBreak c = true
      · have alone : [c] = ['\r'] → rest.head? ≠ some '\n' := fun same =>
          whole (List.cons.inj same).1
        rw [if_pos ends]
        exact .cons empty (.single ends) alone ih
      · rw [if_neg ends]
        exact ih.consFirst (by simpa using ends)

theorem broken_iff {list : List Text} {text : Text} : Broken list text ↔ lines text = list :=
  ⟨lines_of_broken, fun same => same ▸ broken_lines text⟩

/-- The line feed behind a text ends its last line, or completes the carriage return at its end;
behind any other break, and in front of everything, it stands on an empty line. -/
theorem Broken.exists_joined {list : List Text} {text : Text} (broken : Broken list text) :
    ∃ between, (between = [] ∨ between = [[]]) ∧
      ∀ rest, lines (text ++ '\n' :: rest) = list ++ between ++ lines rest := by
  induction broken with
  | nil => exact ⟨[[]], .inr rfl, lines_append (List.forall_mem_nil _)⟩
  | last unbroken nonempty => exact ⟨[], .inl rfl, lines_append unbroken⟩
  | @cons line ending behind list unbroken ends whole others ih =>
      by_cases completed : ending = ['\r'] ∧ behind = []
      · obtain ⟨rfl, rfl⟩ := completed
        have none : list = [] := (lines_of_broken others).symm
        refine ⟨[], .inl rfl, fun rest => ?_⟩
        have pair : lines (line ++ ['\r', '\n'] ++ rest) = line :: lines rest :=
          lines_append_break unbroken .pair (by simp)
        rw [List.append_nil, List.append_assoc, none]
        rwa [List.append_assoc] at pair
      · obtain ⟨between, isGap, joined⟩ := ih
        refine ⟨between, isGap, fun rest => ?_⟩
        have alone : ending = ['\r'] → (behind ++ '\n' :: rest).head? ≠ some '\n' := by
          intro unfinished
          cases behind with
          | nil => exact absurd ⟨unfinished, rfl⟩ completed
          | cons c more => exact whole unfinished
        rw [List.append_assoc, lines_append_break unbroken ends alone, joined]
        rfl

/-- **Two texts with a line feed between them** hold the lines of the first, then those of the
second, and at most an empty line between them. -/
theorem exists_lines_joined (text : Text) :
    ∃ between, (between = [] ∨ between = [[]]) ∧
      ∀ rest, lines (text ++ '\n' :: rest) = lines text ++ between ++ lines rest :=
  (broken_lines text).exists_joined

theorem lines_ofLines {block : List Text} (nonempty : block ≠ [])
    (unbroken : ∀ line ∈ block, Unbroken line) (rest : Text) :
    lines (ofLines block ++ '\n' :: rest) = block ++ lines rest := by
  induction block with
  | nil => exact absurd rfl nonempty
  | cons line more ih =>
      have first := unbroken line (by simp)
      cases more with
      | nil => exact lines_append first rest
      | cons next others =>
          have rest := ih (by simp) fun each member => unbroken each (List.mem_cons_of_mem _ member)
          rw [ofLines, join, List.append_assoc, List.append_assoc, List.singleton_append,
            lines_append first]
          exact congrArg (line :: ·) rest

/-- Lines that end with the text: the last of them has something on it. -/
theorem lines_ofLines_concat {block : List Text} {last : Text}
    (unbroken : ∀ line ∈ block, Unbroken line) (lastUnbroken : Unbroken last)
    (spoken : last ≠ []) : lines (ofLines (block ++ [last])) = block ++ [last] := by
  induction block with
  | nil => exact lines_eq_singleton lastUnbroken spoken
  | cons line more ih =>
      rw [List.forall_mem_cons] at unbroken
      have begins : ofLines (line :: more ++ [last]) = line ++ '\n' :: ofLines (more ++ [last]) := by
        cases more <;> simp [ofLines, join]
      rw [begins, lines_append unbroken.1, ih unbroken.2]
      rfl

/-- Lines with a line feed behind each. -/
theorem lines_ended {list : List Text} (unbroken : ∀ line ∈ list, Unbroken line) :
    lines (list.flatMap (· ++ ['\n'])) = list := by
  induction list with
  | nil => rfl
  | cons line rest ih =>
      rw [List.forall_mem_cons] at unbroken
      rw [List.flatMap_cons, List.append_assoc, List.singleton_append, lines_append unbroken.1,
        ih unbroken.2]

/-- Blocks of lines with an empty line between each two neighbours. -/
theorem lines_blocks {block : List Text} {blocks : List (List Text)}
    (nonempty : ∀ each ∈ block :: blocks, each ≠ [])
    (unbroken : ∀ each ∈ block :: blocks, ∀ line ∈ each, Unbroken line) :
    lines (join ['\n', '\n'] ((block :: blocks).map ofLines) ++ ['\n']) =
      block ++ blocks.flatMap ([] :: ·) := by
  have first := lines_ofLines (nonempty block (by simp)) (unbroken block (by simp))
  induction blocks generalizing block with
  | nil => exact first []
  | cons next rest ih =>
      have laterNonempty : ∀ each ∈ next :: rest, each ≠ [] := fun each member =>
        nonempty each (List.mem_cons_of_mem _ member)
      have laterUnbroken : ∀ each ∈ next :: rest, ∀ line ∈ each, Unbroken line :=
        fun each member => unbroken each (List.mem_cons_of_mem _ member)
      have others := ih laterNonempty laterUnbroken
        (lines_ofLines (laterNonempty next (by simp)) (laterUnbroken next (by simp)))
      have empty : Unbroken [] := List.forall_mem_nil _
      rw [List.map_cons, List.map_cons, join, ← List.map_cons, List.append_assoc, List.append_assoc,
        List.cons_append, first, List.cons_append, List.nil_append, ← List.nil_append ('\n' :: _),
        lines_append empty, others]
      rfl

/-! ## The place behind a text -/

/-- How many lines have begun where the text ends: the last of them is the line of whatever stands
behind the text and is no line break itself (`exists_lines_around`). -/
def numberBehind (text : Text) : Nat :=
  (lines (text ++ ['x'])).length

/-- How many breaks in the text are neither a line feed nor a carriage return with its line
feed. -/
def strayBreaks : Text → Nat
  | [] => 0
  | '\r' :: '\n' :: rest => strayBreaks rest
  | c :: rest => (if isLineBreak c ∧ c ≠ '\n' then 1 else 0) + strayBreaks rest

/-- Every line break in the text is a line feed, or a carriage return in front of one. -/
def PlainBreaks (text : Text) : Prop :=
  ∀ c rest, c :: rest <:+ text → isLineBreak c = true →
    c = '\n' ∨ c = '\r' ∧ rest.head? = some '\n'

theorem strayBreaks_cons {c : Char} (rest : Text) (whole : c = '\r' → rest.head? ≠ some '\n') :
    strayBreaks (c :: rest) =
      (if isLineBreak c ∧ c ≠ '\n' then 1 else 0) + strayBreaks rest := by
  refine strayBreaks.eq_3 c rest fun tail same behind => ?_
  exact whole same (by rw [behind]; rfl)

theorem plainBreaks_nil : PlainBreaks [] := by
  intro c rest inside
  exact absurd (List.suffix_nil.1 inside) (List.cons_ne_nil c rest)

theorem plainBreaks_cons {c : Char} {rest : Text} :
    PlainBreaks (c :: rest) ↔
      (isLineBreak c = true → c = '\n' ∨ c = '\r' ∧ rest.head? = some '\n') ∧
        PlainBreaks rest := by
  constructor
  · intro plain
    exact ⟨plain c rest List.suffix_rfl,
      fun d more inside => plain d more (inside.trans (List.suffix_cons c rest))⟩
  · rintro ⟨first, others⟩ d more inside
    rcases List.suffix_cons_iff.1 inside with here | inside
    · obtain ⟨rfl, rfl⟩ := List.cons.inj here
      exact first
    · exact others d more inside

theorem strayBreaks_eq_zero_iff {text : Text} : strayBreaks text = 0 ↔ PlainBreaks text := by
  induction text using stepInduction with
  | nil => exact iff_of_true rfl plainBreaks_nil
  | pair rest ih =>
      rw [strayBreaks, ih, plainBreaks_cons, plainBreaks_cons]
      simp
  | single c rest whole ih =>
      have noPair : ¬(c = '\r' ∧ rest.head? = some '\n') := fun pair => whole pair.1 pair.2
      rw [strayBreaks_cons rest whole, plainBreaks_cons, ← ih, Nat.add_eq_zero_iff]
      simp [noPair]

instance (text : Text) : Decidable (PlainBreaks text) :=
  decidable_of_iff _ strayBreaks_eq_zero_iff

/-- One more character in front, no line break, leaves the number of lines above. -/
theorem exists_consFirst_around (d : Char) (above : List Text) (before : Text) :
    ∃ above' before', above'.length = above.length ∧ ∀ behind below,
      consFirst d (above ++ (before ++ behind) :: below) =
        above' ++ (before' ++ behind) :: below := by
  cases above with
  | nil => exact ⟨[], d :: before, rfl, fun _ _ => rfl⟩
  | cons line more => exact ⟨(d :: line) :: more, before, rfl, fun _ _ => rfl⟩

/-- What is added behind a text completes no carriage return, unless it is a line feed. -/
theorem whole_append {c d : Char} {text rest : Text} (whole : d = '\r' → text.head? ≠ some '\n')
    (solid : isLineBreak c = false) : d = '\r' → (text ++ c :: rest).head? ≠ some '\n' := by
  intro same head
  cases text with
  | nil =>
      obtain rfl : c = '\n' := Option.some.inj head
      exact absurd solid (by decide)
  | cons e more => exact whole same head

/-- **What stands behind a text is on one line**, whatever it is: the lines above are as many as
the line feeds and the stray breaks of the text. -/
theorem exists_lines_around (text : Text) :
    ∃ above before, above.length = text.count '\n' + strayBreaks text ∧
      ∀ c rest, isLineBreak c = false → lines (text ++ c :: rest) =
        above ++ (before ++ c :: (lines rest).headD []) :: (lines rest).tail := by
  induction text using stepInduction with
  | nil =>
      refine ⟨[], [], rfl, fun c rest solid => ?_⟩
      have notReturn : c ≠ '\r' := by
        rintro rfl
        exact absurd solid (by decide)
      rw [List.nil_append, lines_cons rest fun same => absurd same notReturn,
        if_neg (by simp [solid])]
      cases lines rest <;> rfl
  | pair text ih =>
      obtain ⟨above, before, number, around⟩ := ih
      refine ⟨[] :: above, before, ?_, fun c rest solid => ?_⟩
      · have feeds : ('\r' :: '\n' :: text).count '\n' = text.count '\n' + 1 := by
          simp
        rw [strayBreaks, List.length_cons, number, feeds]
        omega
      · exact congrArg ([] :: ·) (around c rest solid)
  | single d text whole ih =>
      obtain ⟨above, before, number, around⟩ := ih
      rw [strayBreaks_cons text whole, List.count_cons]
      by_cases ends : isLineBreak d = true
      · refine ⟨[] :: above, before, ?_, fun c rest solid => ?_⟩
        · have once : (if (d == '\n') = true then 1 else 0) +
              (if isLineBreak d = true ∧ d ≠ '\n' then 1 else 0) = 1 := by
            by_cases feed : d = '\n' <;> simp [feed, ends]
          rw [List.length_cons, number]
          omega
        · rw [List.cons_append, lines_cons _ (whole_append whole solid), if_pos ends,
            around c rest solid]
          rfl
      · have notFeed : d ≠ '\n' := by
          rintro rfl
          exact ends (by decide)
        obtain ⟨above', before', sameLength, put⟩ := exists_consFirst_around d above before
        refine ⟨above', before', ?_, fun c rest solid => ?_⟩
        · rw [sameLength, number, if_neg (by simpa using notFeed), if_neg (by simp [ends])]
          omega
        · rw [List.cons_append, lines_cons _ (whole_append whole solid), if_neg ends,
            around c rest solid, put]

/-- **The number of the line behind a text** counts its line feeds and its stray breaks. -/
theorem numberBehind_eq (text : Text) :
    numberBehind text = text.count '\n' + strayBreaks text + 1 := by
  obtain ⟨above, before, number, around⟩ := exists_lines_around text
  have same : lines (text ++ ['x']) = above ++ [before ++ ['x']] := around 'x' [] (by decide)
  rw [numberBehind, same, List.length_append, List.length_singleton, number]

end TreeGrammar.Text
