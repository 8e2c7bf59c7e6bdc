/-
# TreeGrammar.Proofs.Grammar.SingleUse -- one use from its line and from a text

A use line can be read on its own, and it can be the only line of a text.  In a text it is known
by the word `use` and a space at its front (`lineStep_use_iff`).  On its own it is not asked for
them: the word is taken away if the line begins with it, whatever stands behind it, and is not
missed if the line does not.  So the two readers agree unless the first reads a line without the
word and the space (`useLine_agrees_iff`).
-/
import TreeGrammar.Proofs.Grammar.Completeness

set_option autoImplicit false

namespace TreeGrammar

open Grammar
open Text (Unbroken)

section Lines

variable {line : Text} {use : Use} (number other : LineNumber)

/-- **A line is read as the same use with and without the blanks around it**, whatever its
number. -/
theorem Use.parse_trim_iff :
    Use.parse (Text.trim line) number = .ok use ↔ Use.parse line other = .ok use := by
  rw [Use.parse_eq_ok_iff, Use.parse_eq_ok_iff, Text.trim_trim]

/-- The word alone is no use. -/
theorem Use.parse_word : Use.parse ['u', 's', 'e'] number ≠ .ok use := by
  intro parsed
  obtain ⟨before, after, cut, -⟩ := Use.parse_eq_ok_iff.1 parsed
  have uncut : Text.cut ':' (Text.trim (Text.dropStart "use" (Text.trim ['u', 's', 'e']))) =
      ([], none) := by decide
  rw [uncut] at cut
  cases cut

end Lines

namespace Grammar

/-- Behind the blanks at its front the line begins with the word `use` and a space. -/
def Announced (line : Text) : Prop :=
  ['u', 's', 'e', ' '] <+: Text.trim line

instance (line : Text) : Decidable (Announced line) :=
  inferInstanceAs (Decidable (_ <+: _))

section Alone

variable {progress : Progress} {line : Text} {use : Use} {number : Nat}

theorem isUseLine_trim_iff (parsed : Use.parse line none = .ok use) :
    isUseLine (Text.trim line) = true ↔ Announced line := by
  rw [isUseLine_iff]
  constructor
  · rintro (word | announced)
    · rw [← Use.parse_trim_iff none, word] at parsed
      exact absurd parsed (Use.parse_word none)
    · exact announced
  · intro announced
    exact .inr announced

/-- **One line** adds a use just if it is a use line and is read as that use. -/
theorem lineStep_use_iff (closed : progress.current = none) :
    LineStep progress line number ⟨progress.uses ++ [use], progress.families, none⟩ ↔
      isUseLine (statement line) = true ∧ Use.parse (statement line) (some number) = .ok use := by
  have unchanged : progress.uses ≠ progress.uses ++ [use] := by simp
  constructor
  · intro step
    generalize reached : (⟨progress.uses ++ [use], progress.families, none⟩ : Progress) = next
      at step
    have added : next.uses = progress.uses ++ [use] := by rw [← reached]
    cases step with
    | silent empty => exact absurd added unchanged
    | body spoken opened read => exact absurd (closed.symm.trans opened) (by simp)
    | use spoken closed isUse parsed =>
        obtain rfl : _ = use := by simpa using added
        exact ⟨isUse, parsed⟩
    | header spoken closed isHeader opens read =>
        -- a body leaves the uses as they are
        obtain ⟨-, variants, -, step⟩ := readBody_eq_ok_iff.1 read
        cases step with
        | more unclosed => exact absurd added unchanged
        | close closing inhabited => exact absurd added unchanged
  · rintro ⟨isUse, parsed⟩
    have spoken : statement line ≠ [] := by
      intro silent
      rw [silent] at isUse
      exact absurd isUse (by decide)
    exact .use spoken closed isUse parsed

/-- A grammar without families is valid. -/
theorem validate_uses (uses : List Use) : validate ⟨[], uses⟩ = .ok () :=
  rfl

/-- **Which uses a text of one line declares.** -/
theorem load_useLine_iff (unbroken : Unbroken line) (uncommented : '#' ∉ line) :
    load line = .ok ⟨[], [use]⟩ ↔
      isUseLine (Text.trim line) = true ∧ Use.parse line none = .ok use := by
  have said : statement line = Text.trim line := (Carries.plain line).statement_eq uncommented
  rw [load_eq_ok_iff, and_iff_left (validate_uses [use]), readText]
  by_cases empty : line = []
  · subst empty
    apply iff_of_false
    · intro read
      cases read
    · rintro ⟨isUse, -⟩
      exact absurd isUse (by decide)
  · have first : LineStep .start line 1 ⟨[use], [], none⟩ ↔
        isUseLine (statement line) = true ∧ Use.parse (statement line) (some (1 : Nat)) = .ok use :=
      lineStep_use_iff rfl
    rw [said, Use.parse_trim_iff _ none] at first
    rw [Text.lines_eq_singleton unbroken empty, readLines_cons_iff, ← first]
    constructor
    · rintro ⟨middle, step, read⟩
      obtain rfl : middle = _ := congrArg Prod.fst read
      exact step
    · intro step
      exact ⟨_, step, rfl⟩

/-- **When the two readers of a use agree.**  A line is read as a use on its own just if that is
the one use of the text with that line, if and only if the line is refused or begins with the word
`use` and a space. -/
theorem useLine_agrees_iff (unbroken : Unbroken line) (uncommented : '#' ∉ line) :
    (∀ use, Use.parse line none = .ok use ↔ load line = .ok ⟨[], [use]⟩) ↔
      ((∃ use, Use.parse line none = .ok use) → Announced line) := by
  simp only [load_useLine_iff unbroken uncommented]
  constructor
  · rintro agrees ⟨use, parsed⟩
    obtain ⟨isUse, -⟩ := (agrees use).1 parsed
    exact (isUseLine_trim_iff parsed).1 isUse
  · intro announced use
    constructor
    · intro parsed
      exact ⟨(isUseLine_trim_iff parsed).2 (announced ⟨use, parsed⟩), parsed⟩
    · rintro ⟨-, parsed⟩
      exact parsed

/-- A use line with blanks of several kinds, and a name that begins with the word. -/
def spacedUse : Text :=
  "\tuse  use.tokens :\u00A0T, , useful "

theorem spacedUse_agrees :
    Use.parse spacedUse none = .ok ⟨"use.tokens", [['T'], "useful"]⟩ ∧
      load spacedUse = .ok ⟨[], [⟨"use.tokens", [['T'], "useful"]⟩]⟩ := by
  have unbroken : Unbroken spacedUse := by decide
  have uncommented : '#' ∉ spacedUse := by decide
  have announced : Announced spacedUse := by decide
  have agrees := (useLine_agrees_iff unbroken uncommented).2 fun _ => announced
  have parsed : Use.parse spacedUse none = .ok ⟨"use.tokens", [['T'], "useful"]⟩ := by
    decide +kernel
  exact ⟨parsed, (agrees _).1 parsed⟩

/-- On their own a line that begins with a longer word, one without the word and one with another
blank behind it are read as uses. -/
theorem unannounced_uses_read :
    (Use.parse "user.tokens: T" none = .ok ⟨"r.tokens", [['T']]⟩ ∧
      load "user.tokens: T" = .error (.malformedLine .notHeader "user.tokens: T" (some 1))) ∧
    (Use.parse "tokens: T" none = .ok ⟨"tokens", [['T']]⟩ ∧
      load "tokens: T" = .error (.malformedLine .notHeader "tokens: T" (some 1))) ∧
    (Use.parse "use\ttokens: T" none = .ok ⟨"tokens", [['T']]⟩ ∧
      load "use\ttokens: T" = .error (.malformedLine .notHeader "use\ttokens: T" (some 1))) := by
  decide +kernel

end Alone

end Grammar

end TreeGrammar
