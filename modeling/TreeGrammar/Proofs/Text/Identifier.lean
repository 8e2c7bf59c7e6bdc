/-
# TreeGrammar.Proofs.Text.Identifier -- identifiers in snake case

Lower case keeps an identifier one: of the letters that have a lower case, those that may
stand in an identifier become letters that may begin one.  Breaking a name into words keeps
its first character and puts low lines between the others.  So the snake case of an
identifier is an identifier (`isIdentifier_snakeCase`), and a blank in a name is not lost
(`mem_snakeCase_of_isBlank`).
-/
import TreeGrammar.Proofs.Text.Blank
import TreeGrammar.Proofs.Text.WordBreak
import TreeGrammar.Text.Identifier

set_option autoImplicit false

namespace TreeGrammar.Text

/-! ## Sets within sets -/

/-- Each range lies within one of the wide ones.  Both lists are in order, so what stands in
front of a range is not looked at again. -/
def rangesWithin : List (Nat × Nat) → List (Nat × Nat) → Bool
  | [], _ => true
  | range :: rest, wides =>
      match wides.dropWhile fun wide => wide.2 < range.1 with
      | [] => false
      | wide :: more => wide.1 ≤ range.1 && range.2 ≤ wide.2 && rangesWithin rest (wide :: more)

/-- Each range of the set lies within a range of the other. -/
def CharSet.within (set other : CharSet) : Bool :=
  rangesWithin set.ranges other.ranges

theorem exists_of_rangesWithin {ranges wides : List (Nat × Nat)}
    (within : rangesWithin ranges wides = true) :
    ∀ range ∈ ranges, ∃ wide ∈ wides, wide.1 ≤ range.1 ∧ range.2 ≤ wide.2 := by
  induction ranges generalizing wides with
  | nil => exact List.forall_mem_nil _
  | cons range rest ih =>
      rw [rangesWithin] at within
      split at within
      · exact absurd within Bool.false_ne_true
      · next wide more found =>
        simp only [Bool.and_eq_true, decide_eq_true_eq] at within
        obtain ⟨⟨lower, upper⟩, others⟩ := within
        -- what is looked at for the ranges behind is a part of the whole list
        have left : ∀ each ∈ wide :: more, each ∈ wides := fun each listed =>
          (List.dropWhile_suffix _).subset (found ▸ listed)
        intro each listed
        rcases List.mem_cons.1 listed with rfl | later
        · exact ⟨wide, left wide List.mem_cons_self, lower, upper⟩
        · obtain ⟨around, inRest, bounds⟩ := ih others each later
          exact ⟨around, left around inRest, bounds⟩

theorem CharSet.contains_of_within {set other : CharSet} (within : set.within other = true)
    {c : Char} (inside : set.contains c = true) : other.contains c = true := by
  obtain ⟨range, inRanges, lower, upper⟩ := (set.contains_eq_true_iff c).1 inside
  obtain ⟨wide, inWides, below, above⟩ := exists_of_rangesWithin within range inRanges
  refine (other.contains_eq_true_iff c).2 ⟨wide, inWides, ?_, ?_⟩
  · exact Nat.le_trans below lower
  · exact Nat.le_trans upper above

/-! ## Identifiers -/

section Identifiers

variable {name text before after : Text} {c d : Char}

/-- What may begin an identifier may also stand in it. -/
theorem part_of_start (start : identifierStarts.contains c = true) :
    identifierParts.contains c = true := by
  have within : identifierStarts.within identifierParts = true := by decide +kernel
  exact CharSet.contains_of_within within start

theorem isIdentifier_iff :
    isIdentifier text = true ↔
      (∃ c ∈ text.head?, identifierStarts.contains c = true) ∧
        ∀ c ∈ text, identifierParts.contains c = true := by
  cases text with
  | nil => simp [isIdentifier]
  | cons c rest =>
      rw [isIdentifier_cons, List.forall_mem_cons]
      simp only [List.head?_cons, Option.mem_some_iff, exists_eq_left']
      constructor
      · rintro ⟨start, parts⟩
        exact ⟨start, part_of_start start, parts⟩
      · rintro ⟨start, -, parts⟩
        exact ⟨start, parts⟩

theorem isIdentifier_append (named : isIdentifier name = true)
    (parts : ∀ c ∈ text, identifierParts.contains c = true) :
    isIdentifier (name ++ text) = true := by
  obtain ⟨⟨c, first, start⟩, inside⟩ := isIdentifier_iff.1 named
  refine isIdentifier_iff.2 ⟨⟨c, ?_, start⟩, List.forall_mem_append.2 ⟨inside, parts⟩⟩
  rw [List.head?_append, first, Option.some_or, Option.mem_some_iff]

theorem parts_of_isIdentifier (named : isIdentifier name = true) :
    ∀ c ∈ name, identifierParts.contains c = true :=
  (isIdentifier_iff.1 named).2

/-! ## Lower case -/

/-- The code points between the ends of a run. -/
def CaseRun.letters (run : CaseRun) : CharSet :=
  ⟨[(run.first, run.last)]⟩

/-- The code points that a run is put onto. -/
def CaseRun.smallLetters (run : CaseRun) : CharSet :=
  ⟨[((run.first + run.shift).toNat, (run.last + run.shift).toNat)]⟩

/-- What stands in an identifier becomes what may begin one, unless it is its own lower case. -/
theorem start_lowerLetter (part : identifierParts.contains c = true) (other : lowerLetter c ≠ c) :
    identifierStarts.contains (lowerLetter c) = true := by
  -- only the letters in circles are put onto others than these, and they stand in no identifier
  have runs : caseRuns.all (fun run => run.smallLetters.within identifierStarts ||
      run.letters.apart identifierParts) = true := by
    decide +kernel
  obtain ⟨run, listed, above, below, image⟩ := exists_run_of_lowerLetter other
  rcases (Bool.or_eq_true_iff ..).1 (List.all_eq_true.1 runs run listed) with within | apart
  · refine CharSet.contains_of_within within ((CharSet.contains_eq_true_iff _ _).2 ?_)
    refine ⟨_, List.mem_singleton_self _, ?_, ?_⟩ <;> dsimp only <;> omega
  · have isLetter : run.letters.contains c = true :=
      (CharSet.contains_eq_true_iff _ _).2 ⟨_, List.mem_singleton_self _, above, below⟩
    have outside := CharSet.not_contains_of_apart apart isLetter
    exact absurd part (Bool.eq_false_iff.1 outside)

theorem part_lowerBetween (part : identifierParts.contains c = true)
    (member : d ∈ lowerBetween before c after) : identifierParts.contains d = true := by
  have special : ['i', '\u0307', 'ς', 'σ'].all identifierParts.contains = true := by decide +kernel
  have each := List.all_eq_true.1 special
  unfold lowerBetween at member
  split at member
  · exact each d (List.mem_append_left ['ς', 'σ'] member)
  split at member
  · apply each d
    obtain rfl := List.mem_singleton.1 member
    split <;> decide
  · obtain rfl := List.mem_singleton.1 member
    by_cases same : lowerLetter c = c
    · rwa [same]
    · exact part_of_start (start_lowerLetter part same)

theorem start_lowerBetween (start : identifierStarts.contains c = true) :
    ∃ d ∈ (lowerBetween before c after).head?, identifierStarts.contains d = true := by
  unfold lowerBetween
  split
  · exact ⟨'i', rfl, by decide +kernel⟩
  split
  · split
    · exact ⟨'ς', rfl, by decide +kernel⟩
    · exact ⟨'σ', rfl, by decide +kernel⟩
  · refine ⟨lowerLetter c, rfl, ?_⟩
    by_cases same : lowerLetter c = c
    · rwa [same]
    · exact start_lowerLetter (part_of_start start) same

theorem parts_lowerAfter (parts : ∀ c ∈ text, identifierParts.contains c = true) :
    ∀ c ∈ lowerAfter before text, identifierParts.contains c = true := by
  induction text generalizing before with
  | nil => exact parts
  | cons c rest ih =>
      obtain ⟨first, others⟩ := List.forall_mem_cons.1 parts
      rw [lowerAfter]
      exact List.forall_mem_append.2 ⟨fun d member => part_lowerBetween first member, ih others⟩

/-- **Lower case keeps identifiers.** -/
theorem isIdentifier_lower (named : isIdentifier name = true) :
    isIdentifier (lower name) = true := by
  obtain ⟨⟨c, first, start⟩, parts⟩ := isIdentifier_iff.1 named
  refine isIdentifier_iff.2 ⟨?_, parts_lowerAfter parts⟩
  obtain ⟨rest, rfl⟩ := List.head?_eq_some_iff.1 first
  obtain ⟨d, head, begins⟩ : ∃ d ∈ (lowerBetween [] c rest).head?,
      identifierStarts.contains d = true := start_lowerBetween start
  refine ⟨d, ?_, begins⟩
  rw [lower, lowerAfter, List.head?_append, head, Option.some_or, Option.mem_some_iff]

/-! ## Words -/

theorem head?_breakHumps (text : Text) : (breakHumps text).head? = text.head? := by
  induction text using breakHumps.induct with
  | case1 => rfl
  | case2 c => rfl
  | case3 c d rest hump ih => rw [breakHumps, if_pos hump]; rfl
  | case4 c d rest flat ih => rw [breakHumps, if_neg flat]; rfl

theorem head?_breakAcronymsAfter (run text : Text) :
    (breakAcronymsAfter run text).head? = (run ++ text).head? := by
  induction text generalizing run with
  | nil => rw [breakAcronymsAfter, List.append_nil]
  | cons c rest ih =>
      rw [breakAcronymsAfter]
      split
      · rw [ih, List.append_assoc, List.singleton_append]
      split
      · next small =>
        -- the run has two capitals, and only the last of them is moved
        have long : 2 ≤ run.length := of_decide_eq_true ((Bool.and_eq_true_iff ..).1 small).2
        obtain ⟨first, others, rfl⟩ := List.exists_cons_of_length_pos (Nat.zero_lt_of_lt long)
        obtain ⟨second, more, rfl⟩ := List.exists_cons_of_length_pos (Nat.lt_of_succ_lt_succ long)
        rfl
      · cases run <;> rfl

/-- **The snake case of an identifier is an identifier.** -/
theorem isIdentifier_snakeCase (named : isIdentifier name = true) :
    isIdentifier (snakeCase name) = true := by
  obtain ⟨start, parts⟩ := isIdentifier_iff.1 named
  have low : identifierParts.contains '_' = true := by decide +kernel
  apply isIdentifier_lower
  refine isIdentifier_iff.2 ⟨?_, fun c member => ?_⟩
  · rwa [head?_breakHumps, breakAcronyms, head?_breakAcronymsAfter, List.nil_append]
  · rcases mem_breaks member with rfl | inside
    · exact low
    · exact parts c inside

/-! ## Blanks -/

/-- No letter with another lower case is a blank. -/
theorem lowerLetter_of_isBlank (blank : isBlank c = true) : lowerLetter c = c := by
  have runs : caseRuns.all (fun run => run.letters.apart blanks) = true := by decide +kernel
  by_contra other
  obtain ⟨run, listed, above, below, -⟩ := exists_run_of_lowerLetter other
  have isLetter : run.letters.contains c = true :=
    (CharSet.contains_eq_true_iff _ _).2 ⟨_, List.mem_singleton_self _, above, below⟩
  have outside := CharSet.not_contains_of_apart (List.all_eq_true.1 runs run listed) isLetter
  exact absurd blank (Bool.eq_false_iff.1 outside)

theorem lowerBetween_of_isBlank (blank : isBlank c = true) : lowerBetween before c after = [c] := by
  have solid : ∀ letter ∈ ['İ', 'Σ'], c ≠ letter := by
    rintro letter listed rfl
    have letters : ['İ', 'Σ'].all (fun letter => !isBlank letter) = true := by decide
    exact absurd blank (by simpa using List.all_eq_true.1 letters c listed)
  rw [lowerBetween, if_neg (solid _ (by simp)), if_neg (solid _ (by simp)),
    lowerLetter_of_isBlank blank]

theorem mem_lowerAfter_of_isBlank (blank : isBlank c = true) (member : c ∈ text) :
    c ∈ lowerAfter before text := by
  induction text generalizing before with
  | nil => exact absurd member List.not_mem_nil
  | cons d rest ih =>
      rw [lowerAfter, List.mem_append]
      rcases List.mem_cons.1 member with rfl | later
      · exact .inl (by rw [lowerBetween_of_isBlank blank]; exact List.mem_singleton_self c)
      · exact .inr (ih later)

/-- **A blank in a name stands in its snake case too.** -/
theorem mem_snakeCase_of_isBlank (blank : isBlank c = true) (member : c ∈ name) :
    c ∈ snakeCase name :=
  have broken := (sublist_breakAcronymsAfter [] name).trans (sublist_breakHumps _)
  mem_lowerAfter_of_isBlank blank (broken.subset member)

end Identifiers

end TreeGrammar.Text
