/-
# TreeGrammar.Proofs.Text.Blank -- texts between blanks

Every text is its trimmed text with blanks around it (`padded_trim`), and blanks around a
text with solid ends are trimmed away (`trim_padded`).  A word behind a blank is the last
word (`cutLastWord?_append`).  Identifiers are quiet: no blank and no mark of the grammar's
layout stands in them.
-/
import TreeGrammar.Text.Blank
import TreeGrammar.Text.Identifier
import TreeGrammar.Text.Line

set_option autoImplicit false

namespace TreeGrammar.Text

/-! ## Trimming -/

def AllBlank (text : Text) : Prop :=
  ∀ c ∈ text, isBlank c = true

instance (text : Text) : Decidable (AllBlank text) :=
  List.decidableBAll (isBlank · = true) text

theorem allBlank_space : AllBlank [' '] := by
  decide

/-- No blank stands at either end. -/
structure SolidEnds (text : Text) : Prop where
  front : ∀ c ∈ text.head?, isBlank c = false
  back : ∀ c ∈ text.getLast?, isBlank c = false

theorem trimStart_append {blank : Text} (allBlank : AllBlank blank) (text : Text) :
    trimStart (blank ++ text) = trimStart text := by
  induction blank with
  | nil => rfl
  | cons c rest ih =>
      rw [AllBlank, List.forall_mem_cons] at allBlank
      rw [List.cons_append, trimStart, List.dropWhile_cons, if_pos allBlank.1]
      exact ih allBlank.2

theorem trimStart_of_front {text : Text} (front : ∀ c ∈ text.head?, isBlank c = false) :
    trimStart text = text := by
  cases text with
  | nil => rfl
  | cons c rest => exact trimStart_eq_self (front c rfl)

theorem trimEnd_eq (text : Text) : trimEnd text = (trimStart text.reverse).reverse :=
  rfl

theorem trimEnd_append {blank : Text} (allBlank : AllBlank blank) (text : Text) :
    trimEnd (text ++ blank) = trimEnd text := by
  rw [trimEnd_eq, List.reverse_append, trimStart_append, trimEnd_eq]
  simpa [AllBlank] using allBlank

theorem trimEnd_of_back {text : Text} (back : ∀ c ∈ text.getLast?, isBlank c = false) :
    trimEnd text = text := by
  rw [trimEnd_eq, trimStart_of_front (by simpa using back), List.reverse_reverse]

/-- **Blanks around a text are trimmed away.** -/
theorem trim_padded {before text after : Text} (allBefore : AllBlank before)
    (solid : SolidEnds text) (allAfter : AllBlank after) :
    trim (before ++ text ++ after) = text := by
  cases text with
  | nil =>
      have whole : trimStart (before ++ ([] ++ after)) = trimStart after := by
        simpa using trimStart_append allBefore after
      have none : trimStart after = [] := by
        rw [← List.append_nil after, trimStart_append allAfter]
        rfl
      rw [trim, List.append_assoc, whole, none]
      rfl
  | cons c rest =>
      have kept : trimStart (c :: rest ++ after) = c :: rest ++ after :=
        trimStart_of_front fun d head => solid.front d head
      rw [trim, List.append_assoc, trimStart_append allBefore, kept, trimEnd_append allAfter,
        trimEnd_of_back solid.back]

/-- Only the two ends of a text matter. -/
theorem SolidEnds.around {front back : Text} (frontSolid : SolidEnds front) (middle : Text)
    (backSolid : SolidEnds back) (frontThere : front ≠ []) (backThere : back ≠ []) :
    SolidEnds (front ++ middle ++ back) := by
  constructor
  · obtain ⟨d, rest, rfl⟩ := List.exists_cons_of_ne_nil frontThere
    exact frontSolid.front
  · intro c last
    rw [List.getLast?_append, List.getLast?_eq_some_getLast backThere] at last
    exact backSolid.back c (by rwa [List.getLast?_eq_some_getLast backThere])

theorem allBlank_nil : AllBlank [] :=
  List.forall_mem_nil _

theorem trim_behind {before text : Text} (allBefore : AllBlank before) (solid : SolidEnds text) :
    trim (before ++ text) = text := by
  simpa using trim_padded allBefore solid allBlank_nil

theorem trim_ahead {text after : Text} (solid : SolidEnds text) (allAfter : AllBlank after) :
    trim (text ++ after) = text :=
  trim_padded allBlank_nil solid allAfter

theorem trim_of_solidEnds {text : Text} (solid : SolidEnds text) : trim text = text :=
  trim_behind allBlank_nil solid

theorem AllBlank.append {first second : Text} (blank : AllBlank first) (others : AllBlank second) :
    AllBlank (first ++ second) := by
  intro c member
  cases List.mem_append.1 member with
  | inl inFirst => exact blank c inFirst
  | inr inSecond => exact others c inSecond

/-- The text with blanks around it. -/
def Padded (core text : Text) : Prop :=
  ∃ before after, AllBlank before ∧ AllBlank after ∧ text = before ++ core ++ after

theorem Padded.trim_eq {core text : Text} (padded : Padded core text) (solid : SolidEnds core) :
    trim text = core := by
  obtain ⟨before, after, allBefore, allAfter, rfl⟩ := padded
  exact trim_padded allBefore solid allAfter

theorem padded_self (text : Text) : Padded text text :=
  ⟨[], [], allBlank_nil, allBlank_nil, by simp⟩

theorem Padded.behind {core text front : Text} (padded : Padded core text)
    (blank : AllBlank front) : Padded core (front ++ text) := by
  obtain ⟨before, after, allBefore, allAfter, rfl⟩ := padded
  exact ⟨front ++ before, after, blank.append allBefore, allAfter, by simp⟩

theorem solidEnds_nil : SolidEnds [] := by
  constructor <;> simp

theorem trim_of_allBlank {blank : Text} (allBlank : AllBlank blank) : trim blank = [] := by
  simpa using trim_ahead solidEnds_nil allBlank

theorem exists_trimStart (text : Text) :
    ∃ before, AllBlank before ∧ text = before ++ trimStart text ∧
      ∀ c ∈ (trimStart text).head?, isBlank c = false := by
  refine ⟨text.takeWhile isBlank, ?_, List.takeWhile_append_dropWhile.symm, ?_⟩
  · exact fun c member => List.all_eq_true.1 List.all_takeWhile c member
  · intro c head
    have first := List.head?_dropWhile_not isBlank text
    rw [show (text.dropWhile isBlank).head? = some c from head] at first
    exact first

theorem exists_trimEnd (text : Text) :
    ∃ after, AllBlank after ∧ text = trimEnd text ++ after ∧
      ∀ c ∈ (trimEnd text).getLast?, isBlank c = false := by
  obtain ⟨before, blank, whole, solid⟩ := exists_trimStart text.reverse
  refine ⟨before.reverse, ?_, ?_, ?_⟩
  · simpa [AllBlank] using blank
  · simpa [trimEnd_eq] using congrArg List.reverse whole
  · simpa [trimEnd_eq] using solid

theorem trimEnd_subset (text : Text) : trimEnd text ⊆ text := by
  obtain ⟨after, -, whole, -⟩ := exists_trimEnd text
  intro c member
  rw [whole]
  exact List.mem_append_left _ member

/-- Every text is its trimmed text with blanks around it. -/
theorem padded_trim (text : Text) : Padded (trim text) text ∧ SolidEnds (trim text) := by
  obtain ⟨before, allBefore, front, solidFront⟩ := exists_trimStart text
  obtain ⟨after, allAfter, back, solidBack⟩ := exists_trimEnd (trimStart text)
  refine ⟨⟨before, after, allBefore, allAfter, ?_⟩, fun c head => ?_, solidBack⟩
  · rw [List.append_assoc, trim, ← back]
    exact front
  · have first : (trimEnd (trimStart text)).head? = some c := head
    refine solidFront c ?_
    rw [back, List.head?_append, first]
    rfl

@[simp] theorem trim_trim (text : Text) : trim (trim text) = trim text :=
  trim_of_solidEnds (padded_trim text).2

theorem trimStart_subset (text : Text) : trimStart text ⊆ text :=
  (List.dropWhile_sublist _).subset

theorem trim_trimStart (text : Text) : trim (trimStart text) = trim text := by
  obtain ⟨before, -, -, solid⟩ := exists_trimStart text
  rw [trim, trimStart_of_front solid, trim]

theorem trim_subset (text : Text) : trim text ⊆ text := by
  obtain ⟨⟨before, after, -, -, whole⟩, -⟩ := padded_trim text
  intro c member
  rw [whole]
  exact List.mem_append_left _ (List.mem_append_right _ member)

/-- Trimming stops in front of a solid character. -/
theorem trimStart_append_cons {c : Char} (solid : isBlank c = false) (front rest : Text) :
    trimStart (front ++ c :: rest) = trimStart front ++ c :: rest := by
  obtain ⟨before, blank, whole, solidFront⟩ := exists_trimStart front
  rw [whole, List.append_assoc, trimStart_append blank, trimStart_append blank,
    trimStart_of_front solidFront]
  refine trimStart_of_front fun d head => ?_
  cases core : trimStart front with
  | nil =>
      rw [core] at head
      exact Option.some.inj head ▸ solid
  | cons e more =>
      rw [core] at head solidFront
      exact solidFront d head

theorem trimEnd_append_cons {c : Char} (solid : isBlank c = false) (front rest : Text) :
    trimEnd (front ++ c :: rest) = front ++ c :: trimEnd rest := by
  have backwards : (front ++ c :: rest).reverse = rest.reverse ++ c :: front.reverse := by simp
  rw [trimEnd_eq, backwards, trimStart_append_cons solid, trimEnd_eq]
  simp

theorem trim_append_cons {c : Char} (solid : isBlank c = false) (front rest : Text) :
    trim (front ++ c :: rest) = trimStart front ++ c :: trimEnd rest := by
  rw [trim, trimStart_append_cons solid, trimEnd_append_cons solid]

theorem trim_trimEnd (text : Text) : trim (trimEnd text) = trim text := by
  obtain ⟨after, blank, whole, -⟩ := exists_trimEnd text
  obtain ⟨⟨front, behind, allFront, allBehind, core⟩, solid⟩ := padded_trim (trimEnd text)
  refine (Padded.trim_eq ⟨front, behind ++ after, allFront, allBehind.append blank, ?_⟩ solid).symm
  rw [← List.append_assoc, ← core, ← whole]

/-! ## The last word -/

/-- The last word stands behind blanks, and may have blanks behind it. -/
theorem cutLastWord?_append {front gap word after : Text} (gapBlank : AllBlank gap)
    (gapThere : gap ≠ []) (nonempty : word ≠ []) (solid : ∀ c ∈ word, isBlank c = false)
    (allAfter : AllBlank after) (begins : trimEnd front ≠ []) :
    cutLastWord? (front ++ gap ++ word ++ after) = some (trimEnd front, word) := by
  have backwards : (front ++ gap ++ word ++ after).reverse =
      after.reverse ++ (word.reverse ++ (gap.reverse ++ front.reverse)) := by simp
  have wordSolid : ∀ c ∈ word.reverse, (!isBlank c) = true := by simpa using solid
  have ended :
      (after.reverse ++ (word.reverse ++ (gap.reverse ++ front.reverse))).dropWhile isBlank =
        word.reverse ++ (gap.reverse ++ front.reverse) := by
    have blank : AllBlank after.reverse := by simpa [AllBlank] using allAfter
    obtain ⟨c, rest, found⟩ := List.exists_cons_of_ne_nil (mt List.reverse_eq_nil_iff.1 nonempty)
    have first : isBlank c = false := solid c (by rw [← List.mem_reverse, found]; simp)
    rw [← trimStart, trimStart_append blank, found]
    exact trimStart_eq_self first
  -- the word ends where the gap begins
  have stops : (gap.reverse ++ front.reverse).takeWhile (!isBlank ·) = [] ∧
      (gap.reverse ++ front.reverse).dropWhile (!isBlank ·) = gap.reverse ++ front.reverse := by
    obtain ⟨c, rest, found⟩ := List.exists_cons_of_ne_nil (mt List.reverse_eq_nil_iff.1 gapThere)
    have first : isBlank c = true := gapBlank c (by rw [← List.mem_reverse, found]; simp)
    simp [found, first]
  have before : (gap.reverse ++ front.reverse).dropWhile isBlank = (trimEnd front).reverse := by
    have blank : AllBlank gap.reverse := by simpa [AllBlank] using gapBlank
    rw [trimEnd, List.reverse_reverse]
    exact trimStart_append blank front.reverse
  have present : (trimEnd front).reverse ≠ [] := mt List.reverse_eq_nil_iff.1 begins
  simp only [cutLastWord?, backwards, ended, List.takeWhile_append_of_pos wordSolid,
    List.dropWhile_append_of_pos wordSolid, stops, before, present, if_false, List.append_nil,
    List.reverse_reverse]

/-! ## Quiet texts -/

/-- The characters that part the pieces of a grammar text. -/
def marks : List Char :=
  ['#', '{', '}', ';', ':', ',']

/-- No blank and no mark stands in the text. -/
def Quiet (text : Text) : Prop :=
  ∀ c ∈ text, isBlank c = false ∧ c ∉ marks

instance (text : Text) : Decidable (Quiet text) :=
  List.decidableBAll (fun c => isBlank c = false ∧ c ∉ marks) text

theorem Quiet.append {first second : Text} (quiet : Quiet first) (others : Quiet second) :
    Quiet (first ++ second) := by
  intro c member
  rcases List.mem_append.1 member with inFirst | inSecond
  · exact quiet c inFirst
  · exact others c inSecond

theorem Quiet.solid {text : Text} (quiet : Quiet text) : ∀ c ∈ text, isBlank c = false :=
  fun c member => (quiet c member).1

/-- Of the marks only those of the layout stand in the text. -/
def MarkedBy (layout : List Char) (text : Text) : Prop :=
  ∀ c ∈ text, c ∈ marks → c ∈ layout

instance (layout : List Char) (text : Text) : Decidable (MarkedBy layout text) :=
  List.decidableBAll (fun c => c ∈ marks → c ∈ layout) text

section MarkedBy

variable {layout : List Char} {text : Text}

theorem Quiet.markedBy (quiet : Quiet text) : MarkedBy layout text :=
  fun c member isMark => absurd isMark (quiet c member).2

theorem AllBlank.markedBy (blank : AllBlank text) : MarkedBy layout text := by
  intro c member isMark
  have solid : marks.all (!isBlank ·) = true := by decide
  have unblank := List.all_eq_true.1 solid c isMark
  simp [blank c member] at unblank

theorem MarkedBy.mono {more : List Char} (marked : MarkedBy layout text) (subset : layout ⊆ more) :
    MarkedBy more text :=
  fun c member isMark => subset (marked c member isMark)

theorem MarkedBy.append {more : Text} (marked : MarkedBy layout text)
    (others : MarkedBy layout more) : MarkedBy layout (text ++ more) := by
  intro c member
  cases List.mem_append.1 member with
  | inl inFirst => exact marked c inFirst
  | inr inSecond => exact others c inSecond

theorem MarkedBy.subset {part : Text} (marked : MarkedBy layout text) (subset : part ⊆ text) :
    MarkedBy layout part :=
  fun c member => marked c (subset member)

theorem MarkedBy.cons {c : Char} (marked : MarkedBy layout text) (inside : c ∈ marks → c ∈ layout) :
    MarkedBy layout (c :: text) := by
  intro d member
  cases List.mem_cons.1 member with
  | inl same => exact same ▸ inside
  | inr behind => exact marked d behind

theorem MarkedBy.absent (marked : MarkedBy layout text) {mark : Char} (isMark : mark ∈ marks)
    (outside : mark ∉ layout) : mark ∉ text :=
  fun member => outside (marked mark member isMark)

theorem Padded.markedBy {core : Text} (padded : Padded core text) (marked : MarkedBy layout core) :
    MarkedBy layout text := by
  obtain ⟨before, after, allBefore, allAfter, rfl⟩ := padded
  exact (allBefore.markedBy.append marked).append allAfter.markedBy

end MarkedBy

theorem Quiet.solidEnds {text : Text} (quiet : Quiet text) : SolidEnds text :=
  ⟨fun c head => quiet.solid c (List.mem_of_mem_head? head),
    fun c last => quiet.solid c (List.mem_of_mem_getLast? last)⟩

/-- Every line break is a blank. -/
theorem isBlank_of_isLineBreak {c : Char} (ends : isLineBreak c = true) : isBlank c = true := by
  simp only [isLineBreak, isBlank, CharSet.contains_eq_true_iff, lineBreaks, blanks] at ends ⊢
  simp only [List.mem_cons, List.not_mem_nil, or_false, exists_eq_or_imp, exists_eq_left] at ends ⊢
  omega

/-- No character is in both sets. -/
def CharSet.apart (set other : CharSet) : Bool :=
  set.ranges.all fun range =>
    other.ranges.all fun second => range.2 < second.1 || second.2 < range.1

theorem CharSet.not_contains_of_apart {set other : CharSet} (apart : set.apart other = true)
    {c : Char} (inside : set.contains c = true) : other.contains c = false := by
  rw [Bool.eq_false_iff]
  intro inOther
  obtain ⟨range, inRanges, lower, upper⟩ := (set.contains_eq_true_iff c).1 inside
  obtain ⟨second, inSecond, otherLower, otherUpper⟩ := (other.contains_eq_true_iff c).1 inOther
  simp only [CharSet.apart, List.all_eq_true, Bool.or_eq_true, decide_eq_true_eq] at apart
  rcases apart range inRanges second inSecond with below | above <;> omega

/-- The marks and the blanks together. -/
def breaks : CharSet where
  ranges := blanks.ranges ++ marks.map fun mark => (mark.toNat, mark.toNat)

theorem quiet_of_breaks {text : Text} (clear : ∀ c ∈ text, breaks.contains c = false) :
    Quiet text := by
  intro c member
  have outside := clear c member
  simp only [CharSet.contains, breaks, List.any_append, Bool.or_eq_false_iff] at outside
  refine ⟨outside.1, fun isMark => ?_⟩
  have found := List.any_eq_false.1 outside.2 (c.toNat, c.toNat) (List.mem_map_of_mem isMark)
  simp at found

theorem quiet_of_isIdentifier {name : Text} (named : isIdentifier name = true) : Quiet name := by
  have starts : identifierStarts.apart breaks = true := by decide +kernel
  have parts : identifierParts.apart breaks = true := by decide +kernel
  cases name with
  | nil => exact List.forall_mem_nil _
  | cons c rest =>
      obtain ⟨first, others⟩ := isIdentifier_cons.1 named
      refine quiet_of_breaks (List.forall_mem_cons.2 ⟨?_, fun d member => ?_⟩)
      · exact CharSet.not_contains_of_apart starts first
      · exact CharSet.not_contains_of_apart parts (others d member)

theorem not_mem_of_isIdentifier {name : Text} {c : Char} (named : isIdentifier name = true)
    (start : identifierStarts.contains c = false) (part : identifierParts.contains c = false) :
    c ∉ name := by
  intro member
  cases name with
  | nil => exact absurd member List.not_mem_nil
  | cons d rest =>
      obtain ⟨starts, parts⟩ := isIdentifier_cons.1 named
      cases List.mem_cons.1 member with
      | inl same => exact absurd (same ▸ starts) (by simp [start])
      | inr inside => exact absurd (parts c inside) (by simp [part])

theorem unpointed_of_isIdentifier {name : Text} (named : isIdentifier name = true) : '.' ∉ name :=
  not_mem_of_isIdentifier named (by decide +kernel) (by decide +kernel)

end TreeGrammar.Text
