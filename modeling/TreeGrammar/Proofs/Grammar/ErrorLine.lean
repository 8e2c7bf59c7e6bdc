/-
# TreeGrammar.Proofs.Grammar.ErrorLine -- the line that an error is about

A malformed line ends the reading of a text and is reported with its number; a family without
variants and a family without an end are reported with the number of their header.  That number
is always right: it is that of the line which is refused or, for a family, of the last line in
front that is read outside of a family (`Place`).

With the number a line is reported as it stands in the text, with its indentation and its
comment, unless it is a use line.  Of a use line only the statement is handed on to its reader,
and so only the statement is reported (`shown_iff`).

What a reader reports is followed through its steps as what it answers is elsewhere: `Reports`
says it of a reading, and each reader of `Grammar.Line` and `Grammar.Loader` has one lemma.
-/
import Mathlib.Data.List.Induction
import TreeGrammar.Proofs.Grammar.Joining

set_option autoImplicit false

namespace TreeGrammar

open Grammar

namespace Grammar

/-! ## What a reading reports -/

/-- What a fault is a fault of. -/
inductive Scope where
  | line
  | use
  | family
  | file
  deriving DecidableEq

def LineFault.scope : LineFault → Scope
  | .missingSeparator | .missingVariantName | .notField _ | .type _ => .line
  | .notHeader | .missingFamilyName | .unexpectedBrace => .line
  | .notUse | .badPath _ => .use
  | .noVariants | .unterminated => .family
  | .notText _ => .file

/-- If the error is a malformed line, it is reported like this. -/
def Error.Fits (shown : LineFault → Text → LineNumber → Prop) : Error → Prop
  | .malformedLine fault line number => shown fault line number
  | .invalidName _ _ | .duplicate _ _ | .clash _ | .unknownType _ _ _ _ => True

theorem Error.Fits.mono {shown other : LineFault → Text → LineNumber → Prop} {error : Error}
    (fits : error.Fits shown)
    (weaker : ∀ fault line number, shown fault line number → other fault line number) :
    error.Fits other := by
  cases error with
  | malformedLine fault line number => exact weaker fault line number fits
  | _ => trivial

/-- Every malformed line that the reading may end in is reported like this. -/
def Reports {α : Type} (shown : LineFault → Text → LineNumber → Prop)
    (reading : Except Error α) : Prop :=
  ∀ error, reading = .error error → error.Fits shown

namespace Reports

variable {α β γ : Type} {shown other : LineFault → Text → LineNumber → Prop} {cause : Error}

theorem ok (answer : α) : Reports shown (.ok answer) := by
  intro error same
  cases same

theorem error (fits : cause.Fits shown) : Reports shown (.error cause : Except Error α) := by
  intro same equal
  cases equal
  exact fits

theorem bind {reading : Except Error α} {next : α → Except Error β}
    (reports : Reports shown reading) (onward : ∀ answer, Reports shown (next answer)) :
    Reports shown (reading >>= next) := by
  cases reading with
  | ok answer => exact onward answer
  | error error =>
      intro same equal
      cases equal
      exact reports error rfl

/-- A refusal in front of a reading. -/
theorem refuse {refused : Prop} [Decidable refused] {next : γ → Except Error α}
    {reading : Except Error α} (fits : cause.Fits shown) (reports : Reports shown reading) :
    Reports shown (if refused then (throw cause : Except Error γ) >>= next else reading) := by
  by_cases isRefused : refused
  · rw [if_pos isRefused]
    exact Reports.error fits
  · rw [if_neg isRefused]
    exact reports

theorem mono {reading : Except Error α} (reports : Reports shown reading)
    (weaker : ∀ fault line number, shown fault line number → other fault line number) :
    Reports other reading := by
  intro error same
  exact (reports error same).mono weaker

end Reports

/-- A fault of this kind, reported with the source and the number that the reader was given. -/
def Given (scope : Scope) (source : Text) (number : LineNumber) (fault : LineFault) (line : Text)
    (place : LineNumber) : Prop :=
  fault.scope = scope ∧ line = source ∧ place = number

/-- How a line is reported that is read behind this progress: as it stands or, if it is a use
line, with its statement; and where it closes a family without variants, with the header of that
family, which may be the line itself. -/
inductive Reported (progress : Progress) (raw : Text) (number : Nat) :
    LineFault → Text → LineNumber → Prop
  | line {fault : LineFault} (own : fault.scope = .line) :
      Reported progress raw number fault raw (some number)
  | use {fault : LineFault} (own : fault.scope = .use) :
      Reported progress raw number fault (statement raw) (some number)
  | opened {family : OpenFamily} (opened : progress.current = some family) :
      Reported progress raw number .noVariants family.header (some family.number)
  | header (closed : progress.current = none) :
      Reported progress raw number .noVariants raw (some number)

end Grammar

/-! ## The readers of a line -/

section Readers

variable {shown : LineFault → Text → LineNumber → Prop} (source : Text) (number : LineNumber)

theorem Grammar.checkName_reports (role : Role) (name : Text) :
    Reports shown (checkName role name number) := by
  unfold checkName
  split
  · exact .error trivial
  split
  · exact .error trivial
  · exact .ok _

theorem Grammar.checkNames_reports (role : Role) (names : List Text) :
    Reports shown (checkNames role names number) := by
  unfold checkNames
  induction names with
  | nil => exact .ok _
  | cons name rest ih => exact (checkName_reports number role name).bind fun _ => ih

theorem Field.parse_reports (variant : Text) (before : List Field) (entry : Text) :
    Reports (Given .line source number) (Field.parse variant before source number entry) := by
  unfold Field.parse
  cases Text.cutLastWord? entry with
  | none => exact .error ⟨rfl, rfl, rfl⟩
  | some parts =>
      apply (checkName_reports number .field parts.2).bind
      intro _
      refine Reports.refuse trivial ?_
      refine Reports.refuse trivial ?_
      cases TypeRef.parse parts.1 with
      | error fault => exact .error ⟨rfl, rfl, rfl⟩
      | ok type => exact .ok _

theorem Field.parseAll_reports (variant : Text) (before : List Field) (entries : List Text) :
    Reports (Given .line source number)
      (Field.parseAll variant source number before entries) := by
  induction entries generalizing before with
  | nil => exact .ok _
  | cons entry rest ih =>
      apply (Field.parse_reports source number variant before entry).bind
      intro field
      exact ih (before ++ [field])

theorem Variant.parse_reports (line : Text) :
    Reports (Given .line source number) (Variant.parse line number source) := by
  unfold Variant.parse
  rcases Text.cut ':' line with ⟨before, _ | after⟩
  · exact .error ⟨rfl, rfl, rfl⟩
  · refine Reports.refuse ⟨rfl, rfl, rfl⟩ ?_
    apply (checkName_reports number .variant (Text.trim before)).bind
    intro _
    exact (Field.parseAll_reports source number _ [] _).bind fun _ => .ok _

theorem Use.parse_reports : Reports (Given .use source number) (Use.parse source number) := by
  unfold Use.parse
  rcases Text.cut ':' (Text.trim (Text.dropStart "use" (Text.trim source))) with ⟨before, after⟩
  refine Reports.refuse ⟨rfl, rfl, rfl⟩ ?_
  refine Reports.refuse ⟨rfl, rfl, rfl⟩ ?_
  exact (checkNames_reports number .imported _).bind fun _ => .ok _

end Readers

namespace Grammar

section Lines

variable (raw : Text) (number : Nat)

theorem parseVariants_reports (parts : List Text) :
    Reports (Given .line raw (some number)) (parseVariants raw number parts) := by
  induction parts with
  | nil => exact .ok _
  | cons part rest ih =>
      rw [parseVariants]
      split
      · exact ih
      · apply (Variant.parse_reports raw (some number) (Text.trim part)).bind
        intro variant
        exact ih.bind fun _ => .ok _

/-- A body is reported with its line, and a family without variants with its header. -/
theorem readBody_reports {shown : LineFault → Text → LineNumber → Prop} (progress : Progress)
    (family : OpenFamily) (line : Text)
    (ofLine : ∀ fault, fault.scope = .line → shown fault raw (some number))
    (ofFamily : shown .noVariants family.header (some family.number)) :
    Reports shown (readBody progress family raw number line) := by
  unfold readBody
  refine Reports.refuse (ofLine .unexpectedBrace rfl) ?_
  apply Reports.bind
  · apply (parseVariants_reports raw number _).mono
    rintro fault _ _ ⟨own, rfl, rfl⟩
    exact ofLine fault own
  · intro variants
    cases decide (line.getLast? = some '}') with
    | false => exact .ok _
    | true => exact .refuse ofFamily (.ok _)

theorem readHeader_reports (line : Text) :
    Reports (Given .line raw (some number)) (readHeader raw number line) := by
  unfold readHeader
  rcases Text.cut '{' line with ⟨before, _ | after⟩
  · exact .error ⟨rfl, rfl, rfl⟩
  · refine Reports.refuse ⟨rfl, rfl, rfl⟩ ?_
    apply (checkName_reports (some number) .family (Text.trim before)).bind
    intro _
    exact .ok _

/-- The family that a line opens has that line for its header. -/
theorem opened_of_readHeader {line body : Text} {family : OpenFamily}
    (opens : readHeader raw number line = .ok (family, body)) :
    family.header = raw ∧ family.number = number := by
  obtain ⟨-, -, -, -, rfl, -⟩ := readHeader_eq_ok_iff.1 opens
  exact ⟨rfl, rfl⟩

/-- **One line** is reported with its own text and number or, for a family, with its header. -/
theorem readLine_reports (progress : Progress) :
    Reports (Reported progress raw number) (readLine progress raw number) := by
  unfold readLine
  by_cases empty : statement raw = []
  · simp only [empty, if_true]
    exact .ok _
  simp only [empty, if_false]
  cases state : progress.current with
  | some family =>
      exact readBody_reports raw number progress family _ (fun _ => .line) (.opened state)
  | none =>
      cases isUse : isUseLine (statement raw) with
      | true =>
          simp only [if_true]
          apply Reports.bind
          · apply (Use.parse_reports (statement raw) (some number)).mono
            rintro fault _ _ ⟨own, rfl, rfl⟩
            exact .use own
          · exact fun _ => .ok _
      | false =>
          simp only [Bool.false_eq_true, if_false]
          cases opens : readHeader raw number (statement raw) with
          | error error =>
              have fits := readHeader_reports raw number (statement raw) error opens
              apply Reports.error
              apply fits.mono
              rintro fault _ _ ⟨own, rfl, rfl⟩
              exact .line own
          | ok read =>
              obtain ⟨family, body⟩ := read
              obtain ⟨header, numbered⟩ := opened_of_readHeader raw number opens
              apply readBody_reports raw number progress family body fun _ => .line
              rw [header, numbered]
              exact .header state

end Lines

/-! ## The checks of a whole grammar -/

section Checks

variable {shown : LineFault → Text → LineNumber → Prop}

theorem checkVariants_reports (taken : List Text) (family : Text) (seen : List Text)
    (variants : List Variant) : Reports shown (checkVariants taken family seen variants) := by
  induction variants generalizing seen with
  | nil => exact .ok _
  | cons variant rest ih =>
      rw [checkVariants]
      split
      · exact .error trivial
      split
      · exact .error trivial
      · exact ih (variant.name :: seen)

theorem checkModule_reports (modules : List (Text × Text)) (family : Family) :
    Reports shown (checkModule modules family) := by
  unfold checkModule
  split
  · exact .error trivial
  split
  · exact .error trivial
  · exact .ok _

theorem checkFamilies_reports (grammar : Grammar) (modules : List (Text × Text))
    (families : List Family) : Reports shown (checkFamilies grammar modules families) := by
  induction families generalizing modules with
  | nil => exact .ok _
  | cons family rest ih =>
      apply Reports.bind
      · apply (checkModule_reports modules family).bind
        intro _
        apply Reports.bind
        · unfold checkFamilyName
          split
          · exact .error trivial
          · exact .ok _
        intro _
        apply Reports.bind
        · unfold checkVisitor
          split
          · exact .error trivial
          · exact .ok _
        intro _
        exact checkVariants_reports _ family.name [] family.variants
      · exact fun _ => ih _

/-- A grammar as a whole is not refused for one of its lines. -/
theorem validate_reports (grammar : Grammar) : Reports shown grammar.validate :=
  checkFamilies_reports grammar [] grammar.families

end Checks

/-! ## Places in a text -/

/-- The family that is open behind the lines. -/
def familyBehind (lines : List Text) : Option OpenFamily :=
  (readLines .start 1 lines).1.current

/-- The last of the lines, or the one behind them, that is read outside of a family: where a family
is open behind the lines, its header. -/
structure HeaderAt (lines : List Text) (position : Nat) : Prop where
  within : position ≤ lines.length
  outside : familyBehind (lines.take position) = none
  inside : ∀ later, position < later → later ≤ lines.length → familyBehind (lines.take later) ≠ none

/-- Which of the lines a fault is about, by the number of lines in front of it. -/
inductive Place (lines : List Text) (fault : LineFault) : Nat → Prop
  /-- The lines in front are read, and this one is refused. -/
  | refused {progress : Progress} {front rest : List Text} {raw line : Text} {number : LineNumber}
      (whole : lines = front ++ raw :: rest) (read : readLines .start 1 front = (progress, none))
      (stopped : readLine progress raw (front.length + 1) =
        .error (.malformedLine fault line number)) (own : fault.scope ≠ .family) :
      Place lines fault front.length
  /-- The refused line closes a family without variants, which begins here. -/
  | empty {progress : Progress} {front rest : List Text} {raw line : Text} {number : LineNumber}
      {position : Nat} (whole : lines = front ++ raw :: rest)
      (read : readLines .start 1 front = (progress, none))
      (stopped : readLine progress raw (front.length + 1) =
        .error (.malformedLine fault line number)) (isEmpty : fault = .noVariants)
      (header : HeaderAt front position) : Place lines fault position
  /-- All lines are read, and the family that is left open begins here. -/
  | unclosed {progress : Progress} {position : Nat}
      (read : readLines .start 1 lines = (progress, none)) (opened : progress.current ≠ none)
      (isOpen : fault = .unterminated) (header : HeaderAt lines position) :
      Place lines fault position

/-- The text has this line under this number, and it is the line that the fault is about. -/
def IsAbout (text : Text) (fault : LineFault) (number : LineNumber) (line : Text) : Prop :=
  ∃ position : Nat, number = some ((position + 1 : Nat) : Int) ∧
    (Text.lines text)[position]? = some line ∧ Place (Text.lines text) fault position

section Headers

variable {lines front rest : List Text} {raw : Text} {progress next : Progress} {number : Nat}

theorem HeaderAt.snoc {position : Nat} (header : HeaderAt front position)
    (inside : familyBehind (front ++ [raw]) ≠ none) : HeaderAt (front ++ [raw]) position := by
  have longer : (front ++ [raw]).length = front.length + 1 := List.length_append
  constructor
  · have := header.within
    omega
  · rw [List.take_append_of_le_length header.within]
    exact header.outside
  · intro later behind before
    by_cases last : later ≤ front.length
    · rw [List.take_append_of_le_length last]
      exact header.inside later behind last
    · have whole : later = (front ++ [raw]).length := by omega
      rw [whole, List.take_length]
      exact inside

/-- Where no family is open behind the lines, the next line is read outside of one. -/
theorem headerAt_length (outside : familyBehind front = none) : HeaderAt front front.length := by
  constructor
  · exact Nat.le_refl _
  · rwa [List.take_length]
  · intro later behind before
    omega

/-- What a body leaves open is the family that it is read for. -/
theorem header_of_readBody {family opened : OpenFamily} {line : Text}
    (read : readBody progress family raw number line = .ok next)
    (left : next.current = some opened) :
    opened.header = family.header ∧ opened.number = family.number := by
  obtain ⟨-, variants, -, step⟩ := readBody_eq_ok_iff.1 read
  cases step with
  | more unclosed =>
      obtain rfl := Option.some.inj left
      exact ⟨rfl, rfl⟩
  | close closing inhabited => cases left

/-- The family was opened by the line at this position, and is open behind all of the lines. -/
structure OpenedAt (lines : List Text) (family : OpenFamily) (position : Nat) : Prop where
  number : family.number = position + 1
  found : lines[position]? = some family.header
  header : HeaderAt lines position

/-- One more line that leaves the family open, with whatever variants it adds to it. -/
theorem OpenedAt.snoc {before family : OpenFamily} {position : Nat}
    (opened : OpenedAt front before position)
    (same : family.header = before.header ∧ family.number = before.number)
    (inside : familyBehind (front ++ [raw]) ≠ none) :
    OpenedAt (front ++ [raw]) family position := by
  obtain ⟨within, -⟩ := List.getElem?_eq_some_iff.1 opened.found
  constructor
  · rw [same.2, opened.number]
  · rw [List.getElem?_append_left within, opened.found, same.1]
  · exact opened.header.snoc inside

/-- The line that opens the family. -/
theorem openedAt_length {family : OpenFamily} (outside : familyBehind front = none)
    (own : family.header = raw ∧ family.number = front.length + 1)
    (inside : familyBehind (front ++ [raw]) ≠ none) :
    OpenedAt (front ++ [raw]) family front.length := by
  constructor
  · exact own.2
  · rw [List.getElem?_concat_length, own.1]
  · exact (headerAt_length outside).snoc inside

/-- **The open family knows its header**: its number and its text are those of the last line that
was read outside of a family. -/
theorem openedAt_of_read {family : OpenFamily}
    (read : readLines .start 1 lines = (progress, none))
    (opened : progress.current = some family) : ∃ position, OpenedAt lines family position := by
  induction lines using List.reverseRecOn generalizing progress family with
  | nil =>
      obtain rfl : Progress.start = progress := congrArg Prod.fst read
      cases opened
  | append_singleton front raw ih =>
      have inside : familyBehind (front ++ [raw]) ≠ none := by
        rw [familyBehind, read]
        simp [opened]
      obtain ⟨middle, begun, last⟩ := readLines_append_iff.1 read
      obtain ⟨_, step, finished⟩ := readLines_cons_iff.1 last
      obtain rfl : _ = progress := congrArg Prod.fst finished
      cases step with
      | silent empty =>
          obtain ⟨position, before⟩ := ih begun opened
          exact ⟨position, before.snoc ⟨rfl, rfl⟩ inside⟩
      | body spoken wasOpen body =>
          obtain ⟨position, before⟩ := ih begun wasOpen
          exact ⟨position, before.snoc (header_of_readBody body opened) inside⟩
      | use spoken closed isUse parsed => cases opened
      | header spoken closed isHeader opens body =>
          obtain ⟨sameHeader, sameNumber⟩ := header_of_readBody body opened
          obtain ⟨header, numbered⟩ := opened_of_readHeader raw _ opens
          have outside : familyBehind front = none := by
            rw [familyBehind, begun]
            exact closed
          refine ⟨front.length, openedAt_length outside ⟨?_, ?_⟩ inside⟩
          · rw [sameHeader, header]
          · rw [sameNumber, numbered, Nat.add_comm]

/-- A run that ends in an error is stopped by one of its lines. -/
theorem exists_refused_line {error : Error}
    (stopped : (readLines progress number lines).2 = some error) :
    ∃ front raw rest middle, lines = front ++ raw :: rest ∧
      readLines progress number front = (middle, none) ∧
      readLine middle raw (number + front.length) = .error error := by
  induction lines generalizing progress number with
  | nil => cases stopped
  | cons raw rest ih =>
      rw [readLines] at stopped
      cases read : readLine progress raw number with
      | error fault =>
          rw [read] at stopped
          obtain rfl := Option.some.inj stopped
          exact ⟨[], raw, rest, progress, rfl, rfl, read⟩
      | ok next =>
          rw [read] at stopped
          obtain ⟨front, refused, behind, middle, rfl, begun, last⟩ := ih stopped
          refine ⟨raw :: front, refused, behind, middle, rfl, ?_, ?_⟩
          · rw [readLines, read]
            exact begun
          · rwa [List.length_cons, Nat.add_comm front.length 1, ← Nat.add_assoc]

end Headers

/-! ## Whole texts -/

section Texts

variable {text line : Text} {fault : LineFault} {number : LineNumber} {error : Error}

/-- **Why a text is not loaded**: a line is refused, a family is left open, or the grammar is not
valid. -/
theorem load_eq_error_iff :
    load text = .error error ↔
      (readText text).2 = some error ∨
      (∃ progress family, readText text = (progress, none) ∧ progress.current = some family ∧
        error = .malformedLine .unterminated family.header (some family.number)) ∨
      ∃ grammar : Grammar, readText text = (⟨grammar.uses, grammar.families, none⟩, none) ∧
        grammar.validate = .error error := by
  constructor
  · intro failed
    rcases read : readText text with ⟨⟨uses, families, current⟩, _ | fault⟩
    · cases current with
      | some family =>
          rw [load_of_open read rfl] at failed
          exact .inr (.inl ⟨_, family, rfl, rfl, (Except.error.inj failed).symm⟩)
      | none =>
          have checked : load text = (validate ⟨families, uses⟩).map fun _ => ⟨families, uses⟩ :=
            load_of_read read
          rw [checked] at failed
          refine .inr (.inr ⟨⟨families, uses⟩, rfl, ?_⟩)
          cases valid : validate ⟨families, uses⟩ with
          | ok _ =>
              rw [valid] at failed
              cases failed
          | error clash =>
              rw [valid] at failed
              exact congrArg Except.error (Except.error.inj failed)
    · have stopped : (readText text).2 = some fault := by rw [read]
      rw [load_of_error stopped] at failed
      exact .inl (congrArg some (Except.error.inj failed))
  · rintro (stopped | ⟨progress, family, read, opened, rfl⟩ | ⟨grammar, read, invalid⟩)
    · exact load_of_error stopped
    · exact load_of_open read opened
    · rw [load_of_read read, invalid]
      rfl

/-- What is reported of a line: its text or, if it is a use line, its statement. -/
def shownText (fault : LineFault) (raw : Text) : Text :=
  if fault.scope = .use then statement raw else raw

/-- A refused line has its place, and is reported as one of its kind. -/
theorem shown_of_refused {progress : Progress} {front rest : List Text} {raw : Text}
    (whole : Text.lines text = front ++ raw :: rest)
    (read : readLines .start 1 front = (progress, none))
    (stopped : readLine progress raw (front.length + 1) =
      .error (.malformedLine fault line number)) :
    ∃ raw, IsAbout text fault number raw ∧ line = shownText fault raw := by
  have found : (Text.lines text)[front.length]? = some raw := by
    rw [whole, List.getElem?_append_right (Nat.le_refl _), Nat.sub_self]
    rfl
  have reported : Reported progress raw (front.length + 1) fault line number :=
    readLine_reports raw (front.length + 1) progress _ stopped
  cases reported with
  | line own =>
      have place : Place (Text.lines text) fault front.length :=
        .refused whole read stopped (by simp [own])
      refine ⟨line, ⟨front.length, rfl, found, place⟩, ?_⟩
      rw [shownText, if_neg (by simp [own])]
  | use own =>
      have place : Place (Text.lines text) fault front.length :=
        .refused whole read stopped (by simp [own])
      refine ⟨raw, ⟨front.length, rfl, found, place⟩, ?_⟩
      rw [shownText, if_pos own]
  | @opened family opened =>
      obtain ⟨position, known⟩ := openedAt_of_read read opened
      obtain ⟨within, -⟩ := List.getElem?_eq_some_iff.1 known.found
      have place : Place (Text.lines text) .noVariants position :=
        .empty whole read stopped rfl known.header
      refine ⟨family.header, ⟨position, by rw [known.number], ?_, place⟩, rfl⟩
      rw [whole, List.getElem?_append_left within, known.found]
  | header closed =>
      have outside : familyBehind front = none := by
        rw [familyBehind, read]
        exact closed
      have place : Place (Text.lines text) .noVariants front.length :=
        .empty whole read stopped rfl (headerAt_length outside)
      exact ⟨line, ⟨front.length, rfl, found, place⟩, rfl⟩

/-- **What is reported of a text**: the number of a line that the fault is about, and the text of
that line or, if it is a use line, its statement. -/
theorem shown_of_load (failed : load text = .error (.malformedLine fault line number)) :
    ∃ raw, IsAbout text fault number raw ∧ line = shownText fault raw := by
  rcases load_eq_error_iff.1 failed with stopped | ⟨progress, family, read, opened, same⟩ |
    ⟨grammar, -, invalid⟩
  · obtain ⟨front, raw, rest, middle, whole, read, refused⟩ := exists_refused_line stopped
    rw [Nat.add_comm] at refused
    exact shown_of_refused whole read refused
  · obtain ⟨rfl, rfl, rfl⟩ := Error.malformedLine.inj same
    obtain ⟨position, known⟩ := openedAt_of_read read opened
    have place : Place (Text.lines text) .unterminated position :=
      .unclosed read (by simp [opened]) rfl known.header
    exact ⟨family.header, ⟨position, by rw [known.number], known.found, place⟩, rfl⟩
  · have none : Error.Fits (fun _ _ _ => False) (.malformedLine fault line number) :=
      validate_reports grammar _ invalid
    exact none.elim

theorem IsAbout.line_eq {other : Text} (first : IsAbout text fault number line)
    (second : IsAbout text fault number other) : line = other := by
  obtain ⟨position, rfl, found, -⟩ := first
  obtain ⟨again, same, alsoFound, -⟩ := second
  obtain rfl : position = again := by
    have := Option.some.inj same
    omega
  exact Option.some.inj (found.symm.trans alsoFound)

/-- **When a malformed line is reported as it stands.**  The number is always that of a line which
the fault is about, and the text is that line or, if it is a use line, its statement.  So every
malformed line of a text is reported as it stands, if and only if a use line that is reported has
neither blanks around its statement nor a comment. -/
theorem shown_iff (text : Text) :
    (∀ fault line number, load text = .error (.malformedLine fault line number) →
        ∃ raw, IsAbout text fault number raw ∧ line = shownText fault raw) ∧
      ((∀ fault line number, load text = .error (.malformedLine fault line number) →
          IsAbout text fault number line) ↔
        ∀ fault line number raw, load text = .error (.malformedLine fault line number) →
          fault.scope = .use → IsAbout text fault number raw → statement raw = raw) := by
  refine ⟨fun fault line number => shown_of_load, ?_, ?_⟩
  · intro asItStands fault line number raw failed own about
    obtain ⟨other, aboutOther, rfl⟩ := shown_of_load failed
    rw [shownText, if_pos own] at failed
    obtain rfl : raw = other := about.line_eq aboutOther
    exact (asItStands fault _ number failed).line_eq about
  · intro bare fault line number failed
    obtain ⟨raw, about, rfl⟩ := shown_of_load failed
    by_cases own : fault.scope = .use
    · have stands : shownText fault raw = raw := by
        rw [shownText, if_pos own]
        exact bare fault _ number raw failed own about
      rwa [stands]
    · rwa [shownText, if_neg own]

/-- A text with a malformed field, indented and in front of a comment, in its third line. -/
def unnamedField : Text :=
  "use m: T\nE \x7b\n  A: T  # no name\n\x7d"

theorem unnamedField_shown :
    load unnamedField =
        .error (.malformedLine (.notField ['T']) "  A: T  # no name" (some 3)) ∧
      IsAbout unnamedField (.notField ['T']) (some 3) "  A: T  # no name" := by
  have failed : load unnamedField =
      .error (.malformedLine (.notField ['T']) "  A: T  # no name" (some 3)) := by decide +kernel
  obtain ⟨-, shown⟩ := shown_iff unnamedField
  refine ⟨failed, shown.2 ?_ _ _ _ failed⟩
  intro fault line number raw refused own _
  obtain ⟨rfl, -, -⟩ := Error.malformedLine.inj (Except.error.inj (failed.symm.trans refused))
  cases own

/-- A use line is reported without its indentation and its comment. -/
theorem indented_use_shown_bare :
    load "  use m  # no names" = .error (.malformedLine .notUse "use m" (some 1)) ∧
      ¬ IsAbout "  use m  # no names" .notUse (some 1) "use m" := by
  refine ⟨by decide +kernel, ?_⟩
  rintro ⟨position, same, found, -⟩
  obtain rfl : position = 0 := by
    have := Option.some.inj same
    omega
  exact absurd found (by decide)

end Texts

end Grammar

end TreeGrammar
