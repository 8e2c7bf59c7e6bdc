/-
# TreeGrammar.Proofs.TypeRef.Name -- words and the names of types

A type name is one word, or two with a point between them.  The longest name in front of
a text is taken (`takeName?_append`); the parts of a name are found again behind it.
-/
import TreeGrammar.Proofs.Text.Parts
import TreeGrammar.TypeRef.Parser

set_option autoImplicit false

namespace TreeGrammar.TypeRef

/-! ## The longest name -/

/-- A word: a letter or a low line, then letters, digits and low lines. -/
def IsWord (word : Text) : Prop :=
  ∃ c rest, word = c :: rest ∧ isWordStart c = true ∧ ∀ d ∈ rest, isWordPart d = true

/-- The name of a type: a word, or two with a point between them. -/
def IsTypeName (name : Text) : Prop :=
  IsWord name ∨ ∃ first second, IsWord first ∧ IsWord second ∧ name = first ++ '.' :: second

theorem takeWord?_eq_some {text word after : Text}
    (taken : takeWord? text = some (word, after)) : IsWord word ∧ text = word ++ after := by
  cases text with
  | nil => cases taken
  | cons c rest =>
      rw [takeWord?] at taken
      split at taken
      · next starts =>
        obtain ⟨rfl, rfl⟩ := Prod.mk.inj (Option.some.inj taken)
        refine ⟨⟨c, _, rfl, starts, fun d member => List.mem_takeWhile_imp member⟩, ?_⟩
        rw [List.cons_append, List.takeWhile_append_dropWhile]
      · exact absurd taken (by simp)

theorem takeName?_eq_some {text name after : Text}
    (taken : takeName? text = some (name, after)) : IsTypeName name ∧ text = name ++ after := by
  unfold takeName? at taken
  split at taken
  · exact absurd taken (by simp)
  · next word first =>
    obtain ⟨rfl, rfl⟩ := Prod.mk.inj (Option.some.inj taken)
    exact (takeWord?_eq_some first).imp_left .inl
  next word c rest first =>
    obtain ⟨isWord, rfl⟩ := takeWord?_eq_some first
    split at taken
    · next point =>
      obtain rfl : c = '.' := point
      split at taken
      · next second behind found =>
        obtain ⟨isSecond, rfl⟩ := takeWord?_eq_some found
        obtain ⟨rfl, rfl⟩ := Prod.mk.inj (Option.some.inj taken)
        exact ⟨.inr ⟨word, second, isWord, isSecond, rfl⟩, by simp⟩
      · obtain ⟨rfl, rfl⟩ := Prod.mk.inj (Option.some.inj taken)
        exact ⟨.inl isWord, rfl⟩
    · obtain ⟨rfl, rfl⟩ := Prod.mk.inj (Option.some.inj taken)
      exact ⟨.inl isWord, rfl⟩

theorem takeWord?_append {word rest : Text} (isWord : IsWord word)
    (ends : ∀ c ∈ rest.head?, isWordPart c = false) :
    takeWord? (word ++ rest) = some (word, rest) := by
  obtain ⟨c, more, rfl, starts, parts⟩ := isWord
  have stops : rest.takeWhile isWordPart = [] ∧ rest.dropWhile isWordPart = rest := by
    cases rest with
    | nil => exact ⟨rfl, rfl⟩
    | cons d behind => simp [ends d rfl]
  rw [List.cons_append, takeWord?, if_pos starts, List.takeWhile_append_of_pos parts,
    List.dropWhile_append_of_pos parts, stops.1, stops.2, List.append_nil]

/-- A name ends where neither a word goes on nor a point stands. -/
theorem takeName?_append {name rest : Text} (named : IsTypeName name)
    (ends : ∀ c ∈ rest.head?, isWordPart c = false ∧ c ≠ '.') :
    takeName? (name ++ rest) = some (name, rest) := by
  have wordEnds : ∀ c ∈ rest.head?, isWordPart c = false := fun c head => (ends c head).1
  rcases named with isWord | ⟨first, second, isFirst, isSecond, rfl⟩
  · rw [takeName?, takeWord?_append isWord wordEnds]
    cases rest with
    | nil => rfl
    | cons c behind => simp [(ends c rfl).2]
  · have point : ∀ c ∈ ('.' :: (second ++ rest)).head?, isWordPart c = false := by
      rintro c ⟨⟩
      decide
    rw [takeName?, List.append_assoc, List.cons_append, takeWord?_append isFirst point]
    simp [takeWord?_append isSecond wordEnds]

/-! ## The characters of a name -/

/-- The characters that words begin with. -/
def wordStarts : Text.CharSet where
  ranges := [(0x41, 0x5A), (0x5F, 0x5F), (0x61, 0x7A)]

/-- The characters of words. -/
def wordParts : Text.CharSet where
  ranges := (0x30, 0x39) :: wordStarts.ranges

theorem contains_of_isWordStart {c : Char} (starts : isWordStart c = true) :
    wordStarts.contains c = true := by
  simp only [isWordStart, Text.isCapital, Text.isSmall, Bool.or_eq_true, Bool.and_eq_true,
    decide_eq_true_eq, Char.le_def, UInt32.le_iff_toNat_le] at starts
  simp only [wordStarts, Text.CharSet.contains, List.any_cons, List.any_nil, Bool.or_eq_true,
    Bool.and_eq_true, decide_eq_true_eq]
  rcases starts with (capital | small) | rfl
  · exact .inl capital
  · exact .inr (.inr (.inl small))
  · decide

theorem contains_of_isWordPart {c : Char} (part : isWordPart c = true) :
    wordParts.contains c = true := by
  rw [Text.CharSet.contains, wordParts, List.any_cons, Bool.or_eq_true]
  cases (Bool.or_eq_true_iff ..).1 part with
  | inl starts => exact .inr (contains_of_isWordStart starts)
  | inr digit =>
      simp only [Text.isDigit, Bool.and_eq_true, decide_eq_true_eq, Char.le_def,
        UInt32.le_iff_toNat_le] at digit
      exact .inl ((Bool.and_eq_true_iff ..).2 ⟨decide_eq_true digit.1, decide_eq_true digit.2⟩)

theorem quiet_of_isWordPart {word : Text} (parts : ∀ c ∈ word, isWordPart c = true) :
    Text.Quiet word := by
  have apart : wordParts.apart Text.breaks = true := by decide
  refine Text.quiet_of_breaks fun c member => Text.CharSet.not_contains_of_apart apart ?_
  exact contains_of_isWordPart (parts c member)

theorem IsWord.parts {word : Text} (isWord : IsWord word) : ∀ c ∈ word, isWordPart c = true := by
  obtain ⟨c, rest, rfl, starts, parts⟩ := isWord
  refine List.forall_mem_cons.2 ⟨?_, parts⟩
  rw [isWordPart, starts, Bool.true_or]

theorem IsWord.quiet {word : Text} (isWord : IsWord word) : Text.Quiet word :=
  quiet_of_isWordPart isWord.parts

theorem IsTypeName.parts {name : Text} (named : IsTypeName name) :
    ∀ c ∈ name, isWordPart c = true ∨ c = '.' := by
  rcases named with isWord | ⟨first, second, isFirst, isSecond, rfl⟩
  · exact fun c member => .inl (isWord.parts c member)
  · intro c member
    rcases List.mem_append.1 member with inFirst | behind
    · exact .inl (isFirst.parts c inFirst)
    rcases List.mem_cons.1 behind with point | inSecond
    · exact .inr point
    · exact .inl (isSecond.parts c inSecond)

theorem IsTypeName.quiet {name : Text} (named : IsTypeName name) : Text.Quiet name := by
  rcases named with isWord | ⟨first, second, isFirst, isSecond, rfl⟩
  · exact isWord.quiet
  · have point : Text.Quiet ['.'] := by decide
    simpa using isFirst.quiet.append (point.append isSecond.quiet)

theorem IsWord.ne_nil {word : Text} (isWord : IsWord word) : word ≠ [] := by
  obtain ⟨c, rest, rfl, -⟩ := isWord
  exact List.cons_ne_nil c rest

/-! ## The parts of a name -/

section Parts

variable {word first second : Text}

theorem IsWord.unpointed (isWord : IsWord word) : '.' ∉ word :=
  fun member => absurd (isWord.parts '.' member) (by decide)

theorem qualifier?_word (isWord : IsWord word) : qualifier? word = none := by
  rw [qualifier?, Text.cut_of_not_mem isWord.unpointed]
  rfl

theorem properQualifier?_word (isWord : IsWord word) : properQualifier? word = none := by
  rw [properQualifier?, qualifier?_word isWord]

theorem localName_word (isWord : IsWord word) : localName word = word :=
  Text.afterLast_of_not_mem isWord.unpointed

theorem qualifier?_pointed (isFirst : IsWord first) :
    qualifier? (first ++ '.' :: second) = some first := by
  rw [qualifier?, Text.cut_append isFirst.unpointed]
  rfl

theorem properQualifier?_pointed (isFirst : IsWord first) :
    properQualifier? (first ++ '.' :: second) = some first := by
  rw [properQualifier?, qualifier?_pointed isFirst]
  cases first with
  | nil => exact absurd rfl isFirst.ne_nil
  | cons c rest => rfl

theorem localName_pointed (isSecond : IsWord second) :
    localName (first ++ '.' :: second) = second :=
  Text.afterLast_append isSecond.unpointed first

end Parts

end TreeGrammar.TypeRef
