/-
# TreeGrammar.Proofs.Grammar.Loading -- what a text has been read as

`LineStep` and `BodyStep` list what reading one line can do, and whatever each line
preserves a run over lines preserves (`readLines_preserves`).  A text is loaded if its
lines are read without an error, none of its families is left open and the grammar is
valid (`load_eq_ok_iff`).
-/
import Mathlib.Data.List.Forall2
import TreeGrammar.Grammar.Loader
import TreeGrammar.Proofs.Grammar.Line

set_option autoImplicit false

namespace TreeGrammar.Grammar

variable {progress next : Progress} {family : OpenFamily} {raw line : Text} {number : Nat}

/-! ## One line -/

theorem isUseLine_iff {line : Text} :
    isUseLine line = true ↔ line = ['u', 's', 'e'] ∨ ['u', 's', 'e', ' '] <+: line := by
  change (decide (line = ['u', 's', 'e']) || List.isPrefixOf ['u', 's', 'e', ' '] line) = true ↔ _
  rw [Bool.or_eq_true, decide_eq_true_eq, List.isPrefixOf_iff_prefix]

/-- A line holds a variant for each part that is not blank. -/
theorem parseVariants_eq_ok_iff {parts : List Text} {variants : List Variant} :
    parseVariants raw number parts = .ok variants ↔
      List.Forall₂ (fun part variant => Variant.parse (Text.trim part) (some number) raw =
        .ok variant) (parts.filter (Text.trim · ≠ [])) variants := by
  induction parts generalizing variants with
  | nil =>
      rw [parseVariants, List.filter_nil, List.forall₂_nil_left_iff]
      exact ⟨fun same => (Except.ok.inj same).symm, fun same => same ▸ rfl⟩
  | cons part rest ih =>
      by_cases blank : Text.trim part = []
      · rw [parseVariants, if_pos blank, ih, List.filter_cons_of_neg (by simp [blank])]
      · rw [parseVariants, if_neg blank, List.filter_cons_of_pos (by simp [blank])]
        simp only [bind_eq_ok_iff, ih, List.forall₂_cons_left_iff]
        constructor
        · rintro ⟨variant, parsed, others, rest, same⟩
          exact ⟨variant, others, parsed, rest, (Except.ok.inj same).symm⟩
        · rintro ⟨variant, others, parsed, rest, rfl⟩
          exact ⟨variant, parsed, others, rest, rfl⟩

/-- What stands before the closing brace of a line, if it has one. -/
def bodyText (line : Text) : Text :=
  if line.getLast? = some '}' then line.dropLast else line

/-- What the body of a family on one line does: it adds the variants and leaves the family open,
or it closes the family as well. -/
inductive BodyStep (progress : Progress) (family : OpenFamily) (line : Text)
    (variants : List Variant) : Progress → Prop
  | more (unclosed : line.getLast? ≠ some '}') :
      BodyStep progress family line variants
        { progress with current := some { family with variants := family.variants ++ variants } }
  | close (closing : line.getLast? = some '}') (inhabited : family.variants ++ variants ≠ []) :
      BodyStep progress family line variants
        ⟨progress.uses, progress.families ++ [⟨family.name, family.variants ++ variants⟩], none⟩

theorem readBody_eq_ok_iff :
    readBody progress family raw number line = .ok next ↔
      ('{' ∉ bodyText line ∧ '}' ∉ bodyText line) ∧
        ∃ variants, parseVariants raw number (Text.split ';' (bodyText line)) = .ok variants ∧
          BodyStep progress family line variants next := by
  unfold readBody
  simp only [refuse_eq_ok_iff, bodyText, not_or]
  simp only [bind_eq_ok_iff]
  refine and_congr_right fun _ => exists_congr fun variants => and_congr_right fun _ => ?_
  by_cases closing : line.getLast? = some '}'
  · simp only [closing, decide_true, Bool.not_true, Bool.false_eq_true, if_false, refuse_eq_ok_iff]
    constructor
    · rintro ⟨inhabited, same⟩
      obtain rfl := Except.ok.inj same
      exact .close closing inhabited
    · rintro (unclosed | ⟨-, inhabited⟩)
      · exact absurd closing unclosed
      · exact ⟨inhabited, rfl⟩
  · simp only [closing, decide_false, Bool.not_false, if_true]
    constructor
    · intro same
      obtain rfl := Except.ok.inj same
      exact .more closing
    · rintro (unclosed | ⟨closes, -⟩)
      · rfl
      · exact absurd closes closing

theorem readHeader_eq_ok_iff {body : Text} :
    readHeader raw number line = .ok (family, body) ↔
      ∃ before after, Text.cut '{' line = (before, some after) ∧ IsName (Text.trim before) ∧
        family = ⟨Text.trim before, raw, number, []⟩ ∧ body = Text.trim after := by
  unfold readHeader
  rcases Text.cut '{' line with ⟨before, _ | after⟩
  · simp
  · simp only [refuse_eq_ok_iff, check_eq_ok_iff, checkName_eq_ok_iff]
    constructor
    · rintro ⟨-, named, same⟩
      obtain ⟨rfl, rfl⟩ := Prod.mk.inj (Except.ok.inj same)
      exact ⟨before, after, rfl, named, rfl, rfl⟩
    · rintro ⟨front, behind, same, named, rfl, rfl⟩
      obtain ⟨rfl, rfl⟩ : before = front ∧ after = behind := by simpa using same
      exact ⟨named.ne_nil, named, rfl⟩

/-- What reading one line does. -/
inductive LineStep (progress : Progress) (raw : Text) (number : Nat) : Progress → Prop
  | silent (empty : statement raw = []) : LineStep progress raw number progress
  | body {family : OpenFamily} {next : Progress} (spoken : statement raw ≠ [])
      (opened : progress.current = some family)
      (read : readBody progress family raw number (statement raw) = .ok next) :
      LineStep progress raw number next
  | use {use : Use} (spoken : statement raw ≠ []) (closed : progress.current = none)
      (isUse : isUseLine (statement raw) = true)
      (parsed : Use.parse (statement raw) (some number) = .ok use) :
      LineStep progress raw number ⟨progress.uses ++ [use], progress.families, none⟩
  | header {family : OpenFamily} {body : Text} {next : Progress} (spoken : statement raw ≠ [])
      (closed : progress.current = none) (isHeader : isUseLine (statement raw) = false)
      (opens : readHeader raw number (statement raw) = .ok (family, body))
      (read : readBody progress family raw number body = .ok next) :
      LineStep progress raw number next

theorem readLine_eq_ok_iff :
    readLine progress raw number = .ok next ↔ LineStep progress raw number next := by
  unfold readLine
  by_cases empty : statement raw = []
  · simp only [empty, if_true]
    constructor
    · intro same
      obtain rfl := Except.ok.inj same
      exact .silent empty
    · rintro (_ | spoken | spoken | spoken)
      · rfl
      all_goals exact absurd empty spoken
  · simp only [empty, if_false]
    cases state : progress.current with
    | some family =>
        constructor
        · exact .body empty state
        · rintro (silent | ⟨-, opened, read⟩ | ⟨-, closed⟩ | ⟨-, closed⟩)
          · exact absurd silent empty
          · obtain rfl := Option.some.inj (state.symm.trans opened)
            exact read
          all_goals exact absurd (state.symm.trans closed) (by simp)
    | none =>
        cases kind : isUseLine (statement raw) with
        | true =>
            simp only [if_true, bind_eq_ok_iff]
            constructor
            · rintro ⟨use, parsed, same⟩
              obtain rfl := Except.ok.inj same
              exact .use empty state kind parsed
            · rintro (silent | ⟨-, opened, -⟩ | ⟨-, -, -, parsed⟩ | ⟨-, -, isHeader⟩)
              · exact absurd silent empty
              · exact absurd (state.symm.trans opened) (by simp)
              · exact ⟨_, parsed, rfl⟩
              · exact absurd (kind.symm.trans isHeader) (by simp)
        | false =>
            simp only [Bool.false_eq_true, if_false, bind_eq_ok_iff]
            constructor
            · rintro ⟨⟨family, body⟩, opens, read⟩
              exact .header empty state kind opens read
            · rintro (silent | ⟨-, opened, -⟩ | ⟨-, -, isUse, -⟩ | ⟨-, -, -, opens, read⟩)
              · exact absurd silent empty
              · exact absurd (state.symm.trans opened) (by simp)
              · exact absurd (kind.symm.trans isUse) (by simp)
              · exact ⟨_, opens, read⟩

/-! ## Runs over lines -/

theorem readLines_cons_iff {rest : List Text} :
    readLines progress number (raw :: rest) = (next, none) ↔
      ∃ middle, LineStep progress raw number middle ∧
        readLines middle (number + 1) rest = (next, none) := by
  rw [readLines]
  simp only [← readLine_eq_ok_iff]
  cases readLine progress raw number with
  | error fault => simp
  | ok middle => simp

/-- **What every line preserves, a run over lines preserves.** -/
theorem readLines_preserves {Holds : Progress → Prop}
    (step : ∀ {progress raw number next}, Holds progress → LineStep progress raw number next →
      Holds next) {lines : List Text} (holds : Holds progress)
    (read : readLines progress number lines = (next, none)) : Holds next := by
  induction lines generalizing progress number with
  | nil =>
      obtain rfl := congrArg Prod.fst read
      exact holds
  | cons raw rest ih =>
      obtain ⟨middle, first, others⟩ := readLines_cons_iff.1 read
      exact ih (step holds first) others

theorem readLine_empty : readLine progress [] number = .ok progress :=
  readLine_eq_ok_iff.2 (.silent rfl)

/-- Reading the lines leads from the one progress to the other, whatever their numbers. -/
def Reads (progress : Progress) (lines : List Text) (next : Progress) : Prop :=
  ∀ number, readLines progress number lines = (next, none)

/-- Reading the lines ends in an error, whatever their numbers. -/
def Stops (progress : Progress) (lines : List Text) : Prop :=
  ∀ number next, readLines progress number lines ≠ (next, none)

section Runs

variable {progress middle next : Progress} {first rest : List Text}

theorem readLines_append_iff {number : Nat} :
    readLines progress number (first ++ rest) = (next, none) ↔
      ∃ middle, readLines progress number first = (middle, none) ∧
        readLines middle (number + first.length) rest = (next, none) := by
  induction first generalizing progress number with
  | nil => simp [readLines]
  | cons raw more ih =>
      rw [List.cons_append, readLines_cons_iff]
      simp only [readLines_cons_iff, ih, List.length_cons, Nat.add_assoc, Nat.add_comm 1]
      constructor
      · rintro ⟨opened, step, middle, begun, others⟩
        exact ⟨middle, ⟨opened, step, begun⟩, others⟩
      · rintro ⟨middle, ⟨opened, step, begun⟩, others⟩
        exact ⟨opened, step, middle, begun, others⟩

theorem Reads.append (reads : Reads progress first middle) (others : Reads middle rest next) :
    Reads progress (first ++ rest) next := fun number =>
  readLines_append_iff.2 ⟨middle, reads number, others _⟩

theorem Reads.stops (reads : Reads progress first middle) (stops : Stops middle rest) :
    Stops progress (first ++ rest) := by
  intro number next read
  obtain ⟨other, begun, others⟩ := readLines_append_iff.1 read
  obtain rfl := congrArg Prod.fst ((reads number).symm.trans begun)
  exact stops _ next others

theorem Stops.append (stops : Stops progress first) : Stops progress (first ++ rest) := by
  intro number next read
  obtain ⟨middle, begun, -⟩ := readLines_append_iff.1 read
  exact stops number middle begun

theorem reads_singleton {raw : Text} (read : ∀ number, readLine progress raw number = .ok next) :
    Reads progress [raw] next := fun number => by
  rw [readLines, read]
  rfl

theorem readLines_cons_empty (progress : Progress) (number : Nat) (lines : List Text) :
    readLines progress number ([] :: lines) = readLines progress (number + 1) lines := by
  rw [readLines, readLine_empty]

theorem Reads.cons_empty {lines : List Text} (reads : Reads progress lines next) :
    Reads progress ([] :: lines) next := fun number => by
  rw [readLines_cons_empty, reads]

theorem Stops.cons_empty {lines : List Text} (stops : Stops progress lines) :
    Stops progress ([] :: lines) := fun number next => by
  rw [readLines_cons_empty]
  exact stops (number + 1) next

end Runs

/-! ## Whole texts -/

theorem load_eq_ok_iff {text : Text} {grammar : Grammar} :
    load text = .ok grammar ↔
      readText text = (⟨grammar.uses, grammar.families, none⟩, none) ∧
        grammar.validate = .ok () := by
  rw [load]
  rcases readText text with ⟨⟨uses, families, current⟩, error⟩
  cases error with
  | some error => simp
  | none =>
      cases current with
      | some family => simp [Progress.finish, bind_eq_ok_iff]
      | none =>
          simp only [Progress.finish, bind_eq_ok_iff]
          constructor
          · rintro ⟨whole, finished, _, valid, same⟩
            obtain rfl := Except.ok.inj finished
            obtain rfl := Except.ok.inj same
            exact ⟨rfl, valid⟩
          · rintro ⟨same, valid⟩
            obtain ⟨rfl, rfl⟩ : uses = grammar.uses ∧ families = grammar.families := by
              simpa using same
            exact ⟨grammar, rfl, (), valid, rfl⟩

theorem admits_of_load {text : Text} {grammar : Grammar} (loaded : load text = .ok grammar)
    {family : Family} (member : family ∈ grammar.families) : grammar.Admits family :=
  admits_of_validate (load_eq_ok_iff.1 loaded).2 family member

end TreeGrammar.Grammar
