/-
# TreeGrammar.Proofs.Text.WordBreak -- which names have the same words

Breaking a name into words only puts low lines into it, and putting it in lower case
only changes letters.  So names with one snake case agree but for case and low lines
(`letters_snakeCase`).  Plain camel case can be read back from the snake case, so there
the names agree (`snakeCase_injective`).
-/
import Mathlib.Data.List.Chain
import TreeGrammar.Text.WordBreak

set_option autoImplicit false

namespace TreeGrammar.Text

/-! ## Letters and low lines -/

/-- The letters of a text: low lines are left out and the two small sigmas are one. -/
def letters (text : Text) : Text :=
  (text.filter (· ≠ '_')).map fun c => if c = 'ς' then 'σ' else c

theorem letters_append (first second : Text) :
    letters (first ++ second) = letters first ++ letters second := by
  simp [letters]

/-- The neighbours of a character decide the form of a sigma only. -/
theorem letters_lowerBetween (before : Text) (c : Char) (after : Text) :
    letters (lowerBetween before c after) = letters (lowerBetween [] c []) := by
  unfold lowerBetween
  split
  · rfl
  split
  · have final : endsWord [] [] = false := rfl
    rw [final]
    split <;> rfl
  · rfl

theorem letters_lowerAfter (before text : Text) :
    letters (lowerAfter before text) = text.flatMap fun c => letters (lowerBetween [] c []) := by
  induction text generalizing before with
  | nil => rfl
  | cons c rest ih =>
      rw [lowerAfter, letters_append, letters_lowerBetween, ih, List.flatMap_cons]

section Breaks

variable {image : Char → Text}

theorem flatMap_breakHumps (skipped : image '_' = []) (text : Text) :
    (breakHumps text).flatMap image = text.flatMap image := by
  induction text using breakHumps.induct with
  | case1 => rfl
  | case2 c => rfl
  | case3 c d rest hump ih => simp [breakHumps, hump, skipped, ih]
  | case4 c d rest flat ih =>
      rw [breakHumps, if_neg flat, List.flatMap_cons, ih]
      rfl

theorem flatMap_breakAcronymsAfter (skipped : image '_' = []) (run text : Text) :
    (breakAcronymsAfter run text).flatMap image = run.flatMap image ++ text.flatMap image := by
  induction text generalizing run with
  | nil => simp [breakAcronymsAfter]
  | cons c rest ih =>
      rw [breakAcronymsAfter]
      split
      · simp [ih]
      split
      · next small =>
        have long : run ≠ [] := by
          rintro rfl
          simp at small
        have parts := congrArg (List.flatMap image) (List.dropLast_concat_getLast long)
        rw [← parts]
        simp [List.getLast?_eq_some_getLast long, skipped, ih]
      · simp [ih]

end Breaks

theorem lowerBetween_line (before after : Text) : lowerBetween before '_' after = ['_'] := by
  have kept : lowerLetter '_' = '_' := by decide +kernel
  rw [lowerBetween, if_neg (by decide), if_neg (by decide), kept]

/-- **A name keeps its letters in snake case.** -/
theorem letters_snakeCase (name : Text) : letters (snakeCase name) = letters (lower name) := by
  have skipped : letters (lowerBetween [] '_' []) = [] := by rw [lowerBetween_line]; rfl
  rw [snakeCase, lower, lower, letters_lowerAfter, letters_lowerAfter, flatMap_breakHumps skipped,
    breakAcronyms, flatMap_breakAcronymsAfter skipped]
  rfl

/-! ## The characters of a snake case -/

theorem sublist_breakHumps (text : Text) : text.Sublist (breakHumps text) := by
  induction text using breakHumps.induct with
  | case1 => exact List.Sublist.refl _
  | case2 c => exact List.Sublist.refl _
  | case3 c d rest hump ih =>
      rw [breakHumps, if_pos hump]
      exact (((ih.cons_cons d).cons '_').cons_cons c)
  | case4 c d rest flat ih =>
      rw [breakHumps, if_neg flat]
      exact ih.cons_cons c

theorem sublist_breakAcronymsAfter (run text : Text) :
    (run ++ text).Sublist (breakAcronymsAfter run text) := by
  induction text generalizing run with
  | nil => simp [breakAcronymsAfter]
  | cons c rest ih =>
      rw [breakAcronymsAfter]
      split
      · simpa using ih (run ++ [c])
      split
      · next small =>
        have long : run ≠ [] := by
          rintro rfl
          simp at small
        have parts := List.dropLast_concat_getLast long
        rw [List.getLast?_eq_some_getLast long, Option.toList_some, List.singleton_append]
        conv_lhs => rw [← parts, List.append_assoc, List.singleton_append]
        exact (List.Sublist.refl _).append ((((ih []).cons_cons c).cons_cons _).cons '_')
      · exact (List.Sublist.refl _).append ((ih []).cons_cons c)

/-- Breaking puts nothing but low lines into a name. -/
theorem mem_breaks {name : Text} {c : Char} (member : c ∈ breakHumps (breakAcronyms name)) :
    c = '_' ∨ c ∈ name := by
  have solid : ∀ text : Text,
      c ∈ text.flatMap (fun d => if d = '_' then [] else [d]) ↔ c ≠ '_' ∧ c ∈ text := fun text => by
    simp only [List.mem_flatMap]
    constructor
    · rintro ⟨d, inside, listed⟩
      split at listed
      · exact absurd listed List.not_mem_nil
      · next other => exact List.mem_singleton.1 listed ▸ ⟨other, inside⟩
    · rintro ⟨other, inside⟩
      exact ⟨c, inside, by simp [other]⟩
  by_cases line : c = '_'
  · exact .inl line
  · have kept := (solid _).2 ⟨line, member⟩
    rw [flatMap_breakHumps (by simp), breakAcronyms, flatMap_breakAcronymsAfter (by simp)] at kept
    exact .inr ((solid _).1 kept).2

theorem lowerBetween_ne_nil (before : Text) (c : Char) (after : Text) :
    lowerBetween before c after ≠ [] := by
  unfold lowerBetween
  split
  · simp
  split <;> simp

theorem snakeCase_eq_nil_iff {name : Text} : snakeCase name = [] ↔ name = [] := by
  constructor
  · intro none
    have broken : breakHumps (breakAcronyms name) = [] := by
      rw [snakeCase, lower] at none
      cases text : breakHumps (breakAcronyms name) with
      | nil => rfl
      | cons c rest =>
          rw [text, lowerAfter] at none
          exact absurd (List.append_eq_nil_iff.1 none).1 (lowerBetween_ne_nil _ _ _)
    have within := (sublist_breakAcronymsAfter [] name).trans (sublist_breakHumps _)
    exact List.sublist_nil.1 (broken ▸ within)
  · rintro rfl
    rfl

/-- A character that is not its own small letter belongs to a run, and is put onto its small letter
by the run's shift. -/
theorem exists_run_of_lowerLetter {c : Char} (other : lowerLetter c ≠ c) :
    ∃ run ∈ caseRuns, run.first ≤ c.toNat ∧ c.toNat ≤ run.last ∧
      ((lowerLetter c).toNat : Int) = c.toNat + run.shift := by
  unfold lowerLetter at other ⊢
  split at other
  · next run found =>
    have table : ∀ run ∈ caseRuns, 0 ≤ run.first + run.shift ∧
        (run.last + run.shift < 0xD800 ∨
          0xDFFF < run.first + run.shift ∧ run.last + run.shift < 0x110000) := by
      decide +kernel
    have listed := List.mem_of_find?_eq_some found
    obtain ⟨least, valid⟩ := table run listed
    have includes := List.find?_some found
    simp only [CaseRun.includes, Bool.and_eq_true, decide_eq_true_eq] at includes
    obtain ⟨⟨above, below⟩, -⟩ := includes
    have isValid : (c.toNat + run.shift).toNat.isValidChar := by
      unfold Nat.isValidChar
      omega
    refine ⟨run, listed, above, below, ?_⟩
    rw [Char.ofNat, dif_pos isValid]
    show ((c.toNat + run.shift).toNat : Int) = c.toNat + run.shift
    omega
  · exact absurd rfl other

/-- A character that is not its own small letter has `a` or one behind it for that. -/
theorem le_lowerLetter {c : Char} (other : lowerLetter c ≠ c) : 0x61 ≤ (lowerLetter c).toNat := by
  have table : ∀ run ∈ caseRuns, 0x61 ≤ run.first + run.shift := by decide +kernel
  obtain ⟨run, listed, above, below, image⟩ := exists_run_of_lowerLetter other
  have least := table run listed
  omega

/-- Lower case makes no character in front of the low line. -/
theorem eq_of_mem_lowerBetween {before after : Text} {c d : Char} (low : c.toNat < 0x5F)
    (member : c ∈ lowerBetween before d after) : c = d := by
  have high : ∀ e ∈ ['i', '\u0307', 'ς', 'σ'], c ≠ e := by
    have codes : ['i', '\u0307', 'ς', 'σ'].all (fun e => decide (0x5F ≤ e.toNat)) = true := by
      decide
    rintro e listed rfl
    exact absurd low (Nat.not_lt.2 (of_decide_eq_true (List.all_eq_true.1 codes c listed)))
  unfold lowerBetween at member
  split at member
  · exact absurd rfl (high c (by simp at member ⊢; tauto))
  split at member
  · refine absurd rfl (high c ?_)
    split at member <;> simp at member <;> simp [member]
  · obtain rfl := List.mem_singleton.1 member
    by_contra other
    have := le_lowerLetter other
    omega

theorem mem_of_mem_lowerAfter {before text : Text} {c : Char} (low : c.toNat < 0x5F)
    (member : c ∈ lowerAfter before text) : c ∈ text := by
  induction text generalizing before with
  | nil => exact member
  | cons d rest ih =>
      rw [lowerAfter, List.mem_append] at member
      rcases member with here | later
      · exact eq_of_mem_lowerBetween low here ▸ List.mem_cons_self
      · exact List.mem_cons_of_mem d (ih later)

/-- A character in front of the low line stands in a snake case only if it stands in the name. -/
theorem mem_of_mem_snakeCase {name : Text} {c : Char} (low : c.toNat < 0x5F)
    (member : c ∈ snakeCase name) : c ∈ name := by
  rcases mem_breaks (mem_of_mem_lowerAfter low member) with rfl | inside
  · exact absurd low (by decide)
  · exact inside

/-! ## Plain camel case -/

/-- ASCII letters and digits. -/
def isPlain (c : Char) : Bool :=
  isCapital c || isSmall c || isDigit c

/-- No two capitals stand side by side. -/
def Spaced (text : Text) : Prop :=
  text.IsChain fun c d => isCapital c = true → isCapital d = false

/-- Plain names that begin with a capital, with no two capitals side by side. -/
structure Camel (name : Text) : Prop where
  starts : ∀ c ∈ name.head?, isCapital c = true
  plain : ∀ c ∈ name, isPlain c = true
  spaced : Spaced name

/-- The capital whose lower case is the given letter. -/
def raised (c : Char) : Char :=
  Char.ofNat (c.toNat - 32)

/-- Words run together: each low line goes, and the letter behind it is raised. -/
def runTogether (begins : Bool) : Text → Text
  | [] => []
  | c :: rest =>
      if c = '_' then runTogether true rest
      else (if begins then raised c else c) :: runTogether false rest

theorem lt_of_isPlain {c : Char} (plain : isPlain c = true) : c.toNat < 128 := by
  simp only [isPlain, isCapital, isSmall, isDigit, Bool.or_eq_true, Bool.and_eq_true,
    decide_eq_true_eq, Char.le_def, UInt32.le_iff_toNat_le] at plain
  rcases plain with (⟨-, below⟩ | ⟨-, below⟩) | ⟨-, below⟩ <;>
    exact Nat.lt_of_le_of_lt below (by decide)

/-- What the passes do with a plain character. -/
structure PlainCase (c : Char) : Prop where
  hump : (isSmall c || isDigit c) = !isCapital c
  lower : ∀ before after, lowerBetween before c after = [lowerLetter c]
  solid : lowerLetter c ≠ '_'
  back : (if isCapital c then raised (lowerLetter c) else lowerLetter c) = c

theorem plainCase {c : Char} (plain : isPlain c = true) : PlainCase c := by
  have codes : ∀ code < 128, isPlain (Char.ofNat code) = true →
      (isSmall (Char.ofNat code) || isDigit (Char.ofNat code)) = !isCapital (Char.ofNat code) ∧
      lowerLetter (Char.ofNat code) ≠ '_' ∧
      (if isCapital (Char.ofNat code) then raised (lowerLetter (Char.ofNat code))
        else lowerLetter (Char.ofNat code)) = Char.ofNat code := by
    decide +kernel
  have small := lt_of_isPlain plain
  obtain ⟨hump, solid, back⟩ := codes c.toNat small (by rwa [Char.ofNat_toNat])
  rw [Char.ofNat_toNat] at hump solid back
  refine ⟨hump, fun before after => ?_, solid, back⟩
  have notDotted : c ≠ 'İ' := by
    rintro rfl
    exact absurd small (by decide)
  have notSigma : c ≠ 'Σ' := by
    rintro rfl
    exact absurd small (by decide)
  rw [lowerBetween, if_neg notDotted, if_neg notSigma]

section Spaced

variable {c : Char} {run text : Text}

/-- No run of capitals is longer than one, so the first pass finds nothing to part. -/
theorem breakAcronymsAfter_spaced (short : run = [] ∨ ∃ c, isCapital c = true ∧ run = [c])
    (spaced : Spaced (run ++ text)) : breakAcronymsAfter run text = run ++ text := by
  induction text generalizing run with
  | nil => simp [breakAcronymsAfter]
  | cons c rest ih =>
      have others : breakAcronymsAfter [] rest = rest :=
        ih (.inl rfl) (spaced.suffix ⟨run ++ [c], by simp⟩)
      rw [breakAcronymsAfter]
      split
      · next capital =>
        rcases short with rfl | ⟨d, before, rfl⟩
        · exact ih (.inr ⟨c, capital, rfl⟩) spaced
        · have small := List.isChain_cons_cons.1 spaced |>.1 before
          exact absurd (capital.symm.trans small) (by simp)
      · have single : ¬ 2 ≤ run.length := by
          rcases short with rfl | ⟨d, -, rfl⟩ <;> simp
        rw [if_neg (by simp [single]), others]

theorem runTogether_cons (plain : isPlain c = true) (tail : Text) :
    runTogether (isCapital c) (lowerLetter c :: tail) = c :: runTogether false tail := by
  rw [runTogether, if_neg (plainCase plain).solid, (plainCase plain).back]

/-- A plain text in lower case, with its words run together again. -/
theorem runTogether_lowerAfter (before : Text) (plain : ∀ c ∈ text, isPlain c = true)
    (spaced : Spaced text) :
    runTogether (text.head?.any isCapital) (lowerAfter before (breakHumps text)) = text := by
  induction text using breakHumps.induct generalizing before with
  | case1 => rfl
  | case2 c =>
      have plainC := plain c (by simp)
      simp [breakHumps, lowerAfter, (plainCase plainC).lower, runTogether_cons plainC, runTogether]
  | case3 c d rest hump ih =>
      obtain ⟨ends, capital⟩ := (Bool.and_eq_true_iff ..).1 hump
      have plainC := plain c (by simp)
      have plainD := plain d (by simp)
      have small : isCapital c = false := by simpa [(plainCase plainC).hump] using ends
      obtain ⟨-, behind⟩ := List.isChain_cons_cons.1 spaced
      have flag : rest.head?.any isCapital = false := by
        cases rest with
        | nil => rfl
        | cons e more => exact (List.isChain_cons_cons.1 behind).1 capital
      have others := ih (d :: '_' :: c :: before)
        (fun e member => plain e (by simp [member])) behind.tail
      have opened := runTogether_cons plainD
        (lowerAfter (d :: '_' :: c :: before) (breakHumps rest))
      rw [flag] at others
      rw [capital, others] at opened
      simp only [breakHumps, hump, if_true, lowerAfter, (plainCase plainC).lower,
        (plainCase plainD).lower, lowerBetween_line, List.singleton_append, List.head?_cons,
        Option.any_some, runTogether_cons plainC]
      rw [runTogether, if_pos rfl, opened]
  | case4 c d rest flat ih =>
      obtain ⟨parted, behind⟩ := List.isChain_cons_cons.1 spaced
      have plainC := plain c (by simp)
      have small : isCapital d = false := by
        cases capital : isCapital c with
        | true => exact parted capital
        | false => simpa [(plainCase plainC).hump, capital] using flat
      have others := ih (c :: before)
        (fun e member => plain e (List.mem_cons_of_mem c member)) behind
      rw [List.head?_cons, Option.any_some, small] at others
      rw [breakHumps, if_neg flat, lowerAfter, (plainCase plainC).lower, List.singleton_append,
        List.head?_cons, Option.any_some, runTogether_cons plainC, others]

theorem runTogether_snakeCase {name : Text} (camel : Camel name) :
    runTogether true (snakeCase name) = name := by
  have whole := runTogether_lowerAfter [] camel.plain camel.spaced
  have kept : breakAcronyms name = name := breakAcronymsAfter_spaced (.inl rfl) camel.spaced
  cases name with
  | nil => rfl
  | cons c rest =>
      have begins : isCapital c = true := camel.starts c rfl
      rw [List.head?_cons, Option.any_some, begins] at whole
      rw [snakeCase, kept, lower, whole]

end Spaced

/-- **Plain camel case is told apart.** -/
theorem snakeCase_injective {name other : Text} (camel : Camel name) (otherCamel : Camel other)
    (same : snakeCase name = snakeCase other) : name = other := by
  rw [← runTogether_snakeCase camel, same, runTogether_snakeCase otherCamel]

end TreeGrammar.Text
