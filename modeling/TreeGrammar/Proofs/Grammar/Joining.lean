/-
# TreeGrammar.Proofs.Grammar.Joining -- one grammar text behind another

A text is read line by line, and nothing of what has been read decides how the next line is
read, except that a family may be open.  So where the first of two texts leaves none open, the
second is read behind it as it is read alone: what it declares is added at the end, and an
error is the same error as many lines further down as the first text has
(`readText_joined`).  Where the first text has an error, nothing behind it is read.

Readings of one line at two places are compared step by step (`Alike`): each reader of
`Grammar.Line` and `Grammar.Loader` either answers the same at both, or is refused at both for
one cause.
-/
import TreeGrammar.Proofs.Grammar.Loading
import TreeGrammar.Proofs.Text.Line

set_option autoImplicit false

namespace TreeGrammar

open Grammar

namespace Grammar

/-! ## Further down -/

/-- The number of the line that an error is about, if it is about a line. -/
def Error.line? : Error → LineNumber
  | .malformedLine _ _ number | .invalidName _ number | .duplicate _ number => number
  | .clash _ | .unknownType _ _ _ _ => none

/-- The same error so many lines further down. -/
def Error.later (lines : Nat) : Error → Error
  | .malformedLine fault line number => .malformedLine fault line (number.map (· + (lines : Int)))
  | .invalidName fault number => .invalidName fault (number.map (· + (lines : Int)))
  | .duplicate what number => .duplicate what (number.map (· + (lines : Int)))
  | .clash what => .clash what
  | .unknownType family variant field name => .unknownType family variant field name

/-- The same open family with its header so many lines further down. -/
def OpenFamily.later (lines : Nat) (family : OpenFamily) : OpenFamily :=
  { family with number := family.number + lines }

/-- What has been read in front, and behind it, so many lines further down, what has been read
since. -/
def Progress.followedBy (front : Progress) (lines : Nat) (back : Progress) : Progress where
  uses := front.uses ++ back.uses
  families := front.families ++ back.families
  current := back.current.map (OpenFamily.later lines)

/-- The declarations of both grammars, those of the first in front. -/
def followedBy (front back : Grammar) : Grammar :=
  ⟨front.families ++ back.families, front.uses ++ back.uses⟩

/-- Two readings, the second so many lines further down than the first: both answer, and their
answers are related, or both are refused for one cause, each with the number of its line. -/
inductive Alike {α β : Type} (lines : Nat) (related : α → β → Prop) :
    Except Error α → Except Error β → Prop
  | ok {first : α} {second : β} (same : related first second) :
      Alike lines related (.ok first) (.ok second)
  | error {error : Error} (placed : error.line?.isSome) :
      Alike lines related (.error error) (.error (error.later lines))

namespace Alike

variable {α β γ δ : Type} {lines : Nat} {related : α → β → Prop} {onward : γ → δ → Prop}

theorem bind {first : Except Error α} {second : Except Error β} {next : α → Except Error γ}
    {other : β → Except Error δ} (alike : Alike lines related first second)
    (others : ∀ left right, related left right → Alike lines onward (next left) (other right)) :
    Alike lines onward (first >>= next) (second >>= other) := by
  cases alike with
  | ok same => exact others _ _ same
  | error placed => exact .error placed

/-- Readings that answer the same are continued in the same way. -/
theorem onwards {first second : Except Error α} {next : α → Except Error γ}
    {other : α → Except Error δ} (alike : Alike lines Eq first second)
    (others : ∀ answer, Alike lines onward (next answer) (other answer)) :
    Alike lines onward (first >>= next) (second >>= other) := by
  apply alike.bind
  rintro answer _ rfl
  exact others answer

/-- A refusal in front of two readings. -/
theorem refuse {refused : Prop} [Decidable refused] {error : Error} {α' β' : Type}
    {first : Except Error γ} {second : Except Error δ} {next : α' → Except Error γ}
    {other : β' → Except Error δ} (placed : error.line?.isSome)
    (others : ¬ refused → Alike lines onward first second) :
    Alike lines onward (if refused then (throw error : Except Error α') >>= next else first)
      (if refused then (throw (error.later lines) : Except Error β') >>= other else second) := by
  by_cases isRefused : refused
  · rw [if_pos isRefused, if_pos isRefused]
    exact .error placed
  · rw [if_neg isRefused, if_neg isRefused]
    exact others isRefused

end Alike

end Grammar

/-! ## The readers of a line -/

section Readers

variable (lines : Nat) (number : Int)

theorem Grammar.checkName_later (role : Role) (name : Text) :
    Alike lines Eq (checkName role name (some number))
      (checkName role name (some (number + lines))) := by
  unfold checkName
  split
  · exact .error rfl
  split
  · exact .error rfl
  · exact .ok rfl

theorem Grammar.checkNames_later (role : Role) (names : List Text) :
    Alike lines Eq (checkNames role names (some number))
      (checkNames role names (some (number + lines))) := by
  unfold checkNames
  induction names with
  | nil => exact .ok rfl
  | cons name rest ih => exact (checkName_later lines number role name).onwards fun _ => ih

theorem Field.parse_later (variant : Text) (before : List Field) (source entry : Text) :
    Alike lines Eq (Field.parse variant before source (some number) entry)
      (Field.parse variant before source (some (number + lines)) entry) := by
  unfold Field.parse
  cases Text.cutLastWord? entry with
  | none => exact .error rfl
  | some parts =>
      apply (checkName_later lines number .field parts.2).onwards
      intro _
      apply Alike.refuse rfl
      intro _
      apply Alike.refuse rfl
      intro _
      cases TypeRef.parse parts.1 with
      | error fault => exact .error rfl
      | ok type => exact .ok rfl

theorem Field.parseAll_later (variant source : Text) (before : List Field) (entries : List Text) :
    Alike lines Eq (Field.parseAll variant source (some number) before entries)
      (Field.parseAll variant source (some (number + lines)) before entries) := by
  induction entries generalizing before with
  | nil => exact .ok rfl
  | cons entry rest ih =>
      apply (Field.parse_later lines number variant before source entry).onwards
      intro field
      exact ih (before ++ [field])

theorem Variant.parse_later (line source : Text) :
    Alike lines Eq (Variant.parse line (some number) source)
      (Variant.parse line (some (number + lines)) source) := by
  unfold Variant.parse
  rcases Text.cut ':' line with ⟨before, _ | after⟩
  · exact .error rfl
  · apply Alike.refuse rfl
    intro _
    apply (checkName_later lines number .variant (Text.trim before)).onwards
    intro _
    exact (Field.parseAll_later lines number _ source [] _).onwards fun _ => .ok rfl

theorem Use.parse_later (line : Text) :
    Alike lines Eq (Use.parse line (some number)) (Use.parse line (some (number + lines))) := by
  unfold Use.parse
  rcases Text.cut ':' (Text.trim (Text.dropStart "use" (Text.trim line))) with ⟨before, after⟩
  apply Alike.refuse rfl
  intro _
  apply Alike.refuse rfl
  intro _
  exact (checkNames_later lines number .imported _).onwards fun _ => .ok rfl

end Readers

namespace Grammar

/-! ## Lines and runs over lines -/

section Lines

variable (front : Progress) (lines number : Nat)

theorem parseVariants_later (raw : Text) (parts : List Text) :
    Alike lines Eq (parseVariants raw number parts) (parseVariants raw (number + lines) parts) := by
  induction parts with
  | nil => exact .ok rfl
  | cons part rest ih =>
      rw [parseVariants, parseVariants, Int.natCast_add]
      split
      · exact ih
      · apply (Variant.parse_later lines number (Text.trim part) raw).onwards
        intro variant
        exact ih.onwards fun _ => .ok rfl

/-- The second reading has the declarations in front, and is so many lines further down. -/
abbrev Behind (read other : Progress) : Prop :=
  other = front.followedBy lines read

theorem readBody_later (progress : Progress) (family : OpenFamily) (raw line : Text) :
    Alike lines (Behind front lines) (readBody progress family raw number line)
      (readBody (front.followedBy lines progress) (family.later lines) raw (number + lines)
        line) := by
  unfold readBody
  rw [Int.natCast_add]
  apply Alike.refuse rfl
  intro _
  apply (parseVariants_later lines number raw _).onwards
  intro variants
  cases closing : decide (line.getLast? = some '}') with
  | false => exact .ok rfl
  | true =>
      simp only [Bool.not_true, Bool.false_eq_true, if_false]
      have header : ((family.later lines).number : Int) = family.number + lines :=
        Int.natCast_add family.number lines
      rw [header]
      apply Alike.refuse rfl
      intro _
      refine .ok ?_
      rw [Behind, Progress.followedBy, List.append_assoc]
      rfl

theorem readHeader_later (raw line : Text) :
    Alike lines (fun read other => other = (read.1.later lines, read.2))
      (readHeader raw number line) (readHeader raw (number + lines) line) := by
  unfold readHeader
  rw [Int.natCast_add]
  rcases Text.cut '{' line with ⟨before, _ | after⟩
  · exact .error rfl
  · apply Alike.refuse rfl
    intro _
    apply (checkName_later lines number .family (Text.trim before)).onwards
    intro _
    exact .ok rfl

/-- **One line**, read behind what has been read in front. -/
theorem readLine_later (progress : Progress) (raw : Text) :
    Alike lines (Behind front lines) (readLine progress raw number)
      (readLine (front.followedBy lines progress) raw (number + lines)) := by
  unfold readLine
  by_cases empty : statement raw = []
  · simp only [empty, if_true]
    exact .ok rfl
  simp only [empty, if_false]
  rcases progress with ⟨uses, families, _ | family⟩
  · simp only [Progress.followedBy, Option.map_none]
    by_cases isUse : isUseLine (statement raw) = true
    · simp only [isUse, if_true]
      rw [Int.natCast_add]
      apply (Use.parse_later lines number (statement raw)).onwards
      intro use
      refine .ok ?_
      rw [Behind, Progress.followedBy, List.append_assoc]
      rfl
    · simp only [isUse]
      apply (readHeader_later lines number raw (statement raw)).bind
      rintro ⟨family, body⟩ _ rfl
      exact readBody_later front lines number ⟨uses, families, none⟩ family raw body
  · exact readBody_later front lines number ⟨uses, families, some family⟩ family raw _

/-- **A run over lines**, behind what has been read in front. -/
theorem readLines_later (progress : Progress) (list : List Text) :
    readLines (front.followedBy lines progress) (number + lines) list =
        (front.followedBy lines (readLines progress number list).1,
          (readLines progress number list).2.map (Error.later lines)) ∧
      ∀ error ∈ (readLines progress number list).2, error.line?.isSome := by
  induction list generalizing progress number with
  | nil => exact ⟨rfl, nofun⟩
  | cons raw rest ih =>
      rw [readLines, readLines]
      have step := readLine_later front lines number progress raw
      -- only that the two readings of the line are alike counts from here on
      revert step
      generalize readLine progress raw number = first
      generalize readLine (front.followedBy lines progress) raw (number + lines) = second
      rintro (same | placed)
      · obtain rfl := same
        have next := ih (number + 1) ‹_›
        rwa [Nat.add_right_comm] at next
      · refine ⟨rfl, ?_⟩
        rintro _ ⟨⟩
        exact placed

end Lines

variable {progress : Progress} {number : Nat}

/-- Lines are read where the lines in front of them end, unless one of those is refused. -/
theorem readLines_append (list rest : List Text) :
    readLines progress number (list ++ rest) =
      match readLines progress number list with
      | (middle, none) => readLines middle (number + list.length) rest
      | (stopped, some error) => (stopped, some error) := by
  induction list generalizing progress number with
  | nil => rfl
  | cons raw more ih =>
      rw [List.cons_append, readLines, readLines]
      cases readLine progress raw number with
      | error fault => rfl
      | ok next =>
          simp only
          rw [ih, List.length_cons, Nat.add_assoc, Nat.add_comm 1]

/-- Between two texts at most an empty line is read. -/
theorem readLines_between {between : List Text} (gap : between = [] ∨ between = [[]]) :
    readLines progress number between = (progress, none) := by
  rcases gap with rfl | rfl
  · rfl
  · exact readLines_cons_empty progress number []

/-! ## Two texts -/

/-- How many lines a text has when a line feed is put behind it. -/
def lineCount (text : Text) : Nat :=
  (Text.lines (text ++ ['\n'])).length

section Texts

variable {front back : Grammar} {text other : Text} {error : Error}

/-- **Reading goes on** behind a text that leaves no family open, as if the other text were read
alone, so many lines further down as the first text has. -/
theorem readText_joined (read : readText text = (⟨front.uses, front.families, none⟩, none))
    (other : Text) :
    readText (text ++ '\n' :: other) =
        (Progress.followedBy ⟨front.uses, front.families, none⟩ (lineCount text) (readText other).1,
          (readText other).2.map (Error.later (lineCount text))) ∧
      ∀ error ∈ (readText other).2, error.line?.isSome := by
  -- a text that ends in a break of its own has an empty line in front of the line feed
  obtain ⟨between, gap, joined⟩ := Text.exists_lines_joined text
  have count : lineCount text = (Text.lines text ++ between).length := by
    rw [lineCount, joined]
    exact congrArg List.length (List.append_nil _)
  have first : readLines .start 1 (Text.lines text ++ between) =
      (⟨front.uses, front.families, none⟩, none) :=
    readLines_append_iff.2 ⟨_, read, readLines_between gap⟩
  have fresh : (⟨front.uses, front.families, none⟩ : Progress) =
      Progress.followedBy ⟨front.uses, front.families, none⟩ (lineCount text) .start := by
    simp [Progress.followedBy, Progress.start]
  obtain ⟨later, placed⟩ := readLines_later ⟨front.uses, front.families, none⟩ (lineCount text) 1
    .start (Text.lines other)
  refine ⟨?_, placed⟩
  rw [readText, joined, readLines_append, first, ← count]
  conv_lhs => rw [fresh]
  exact later

/-- What is read in front of an error does not depend on what stands behind. -/
theorem readText_joined_of_error (refused : (readText text).2 = some error) :
    (readText (text ++ '\n' :: other)).2 = some error := by
  obtain ⟨between, gap, joined⟩ := Text.exists_lines_joined text
  rw [readText] at refused ⊢
  rw [joined, List.append_assoc, readLines_append]
  rcases read : readLines .start 1 (Text.lines text) with ⟨stopped, _ | fault⟩
  · rw [read] at refused
    cases refused
  · rwa [read] at refused

theorem load_of_error (refused : (readText text).2 = some error) : load text = .error error := by
  rw [load]
  rcases read : readText text with ⟨progress, _ | fault⟩
  · rw [read] at refused
    cases refused
  · rw [read] at refused
    obtain rfl := Option.some.inj refused
    rfl

theorem load_of_read (read : readText text = (⟨front.uses, front.families, none⟩, none)) :
    load text = front.validate.map fun _ => front := by
  rw [load, read]
  show front.validate >>= (fun _ => pure front) = _
  cases front.validate with
  | error fault => rfl
  | ok _ => rfl

/-- A family that is open at the end is reported at its header. -/
theorem load_of_open {progress : Progress} {family : OpenFamily}
    (read : readText text = (progress, none)) (opened : progress.current = some family) :
    load text = .error (.malformedLine .unterminated family.header (some family.number)) := by
  rw [load, read]
  simp only [Progress.finish, opened]
  rfl

/-- What is promised of a text behind another, once the first is read to its end. -/
structure Continued (front : Grammar) (text other : Text) : Prop where
  /-- What the other text declares is added at the end. -/
  uses : (readText (text ++ '\n' :: other)).1.uses = front.uses ++ (readText other).1.uses
  families : (readText (text ++ '\n' :: other)).1.families =
    front.families ++ (readText other).1.families
  /-- Where both texts are read to their ends, all declarations are checked together. -/
  loads : ∀ back : Grammar, readText other = (⟨back.uses, back.families, none⟩, none) →
    load (text ++ '\n' :: other) = (front.followedBy back).validate.map fun _ =>
      front.followedBy back
  /-- An error in a line of the other text is the same error further down. -/
  refused : ∀ error, (readText other).2 = some error →
    error.line?.isSome ∧ load other = .error error ∧
      load (text ++ '\n' :: other) = .error (error.later (lineCount text))
  /-- So is the error that a family of the other text is left open. -/
  unclosed : ∀ progress family, readText other = (progress, none) → progress.current = some family →
    load other = .error (.malformedLine .unterminated family.header (some family.number)) ∧
      load (text ++ '\n' :: other) = .error (.malformedLine .unterminated family.header
        (some (family.number + lineCount text)))

theorem continued_of_read (read : readText text = (⟨front.uses, front.families, none⟩, none))
    (other : Text) : Continued front text other := by
  obtain ⟨joined, placed⟩ := readText_joined read other
  constructor
  · rw [joined]
    rfl
  · rw [joined]
    rfl
  · intro back behind
    apply load_of_read
    rw [joined, behind]
    rfl
  · intro error refused
    refine ⟨placed error refused, load_of_error refused, load_of_error ?_⟩
    rw [joined, refused]
    rfl
  · intro progress family behind opened
    have further : readText (text ++ '\n' :: other) =
        (Progress.followedBy ⟨front.uses, front.families, none⟩ (lineCount text) progress,
          none) := by
      rw [joined, behind]
      rfl
    refine ⟨load_of_open behind opened, ?_⟩
    rw [load_of_open further (congrArg (Option.map _) opened)]
    rfl

/-- **Grammars can be put behind one another.**  Where a text is read to its end and leaves no
family open, any other text is read behind it and a line feed as it is read alone: what it declares
is added, and its errors stand so many lines further down as the first text has with the line feed.
Where a line of the first text is refused, it is refused whatever stands behind. -/
theorem load_joined (text other : Text) :
    (∀ front : Grammar, readText text = (⟨front.uses, front.families, none⟩, none) →
      Continued front text other) ∧
    ∀ error, (readText text).2 = some error →
      load text = .error error ∧ load (text ++ '\n' :: other) = .error error :=
  ⟨fun _ read => continued_of_read read other, fun _ refused =>
    ⟨load_of_error refused, load_of_error (readText_joined_of_error refused)⟩⟩

/-- A text that ends in a carriage return, and the grammar that it writes. -/
def openingText : Text :=
  "use m: T\nE \x7b A: T x \x7d\r"

def openingGrammar : Grammar :=
  ⟨[⟨['E'], [⟨['A'], [⟨['x'], .named ['T']⟩]⟩]⟩], [⟨['m'], [['T']]⟩]⟩

/-- A text that goes on with another family. -/
def closingText : Text :=
  "G \x7b B: E.A y \x7d"

def closingGrammar : Grammar :=
  ⟨[⟨['G'], [⟨['B'], [⟨['y'], .named "E.A"⟩]⟩]⟩], []⟩

/-- A text with a fault in its second line. -/
def faultyText : Text :=
  "# faulty\nG \x7b B \x7d"

def separatorFault (number : Nat) : Error :=
  .malformedLine .missingSeparator "G \x7b B \x7d" (some number)

theorem openingText_joined :
    load (openingText ++ '\n' :: closingText) = .ok (openingGrammar.followedBy closingGrammar) ∧
      load (openingText ++ '\n' :: faultyText) = .error (separatorFault 4) ∧
      load (faultyText ++ '\n' :: openingText) = .error (separatorFault 2) := by
  have opening : load openingText = .ok openingGrammar := by decide +kernel
  have closing : load closingText = .ok closingGrammar := by decide +kernel
  have refused : (readText faultyText).2 = some (separatorFault 2) := by decide +kernel
  have valid : (openingGrammar.followedBy closingGrammar).validate = .ok () := by decide +kernel
  have count : lineCount openingText = 2 := by decide
  have read := (load_eq_ok_iff.1 opening).1
  have onward := (load_joined openingText closingText).1 openingGrammar read
  have faulty := (load_joined openingText faultyText).1 openingGrammar read
  refine ⟨?_, ?_, ((load_joined faultyText openingText).2 _ refused).2⟩
  · rw [onward.loads closingGrammar (load_eq_ok_iff.1 closing).1, valid]
    rfl
  · rw [(faulty.refused _ refused).2.2, count]
    rfl

end Texts

end Grammar

end TreeGrammar
