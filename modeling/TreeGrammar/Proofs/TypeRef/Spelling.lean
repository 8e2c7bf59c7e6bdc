/-
# TreeGrammar.Proofs.TypeRef.Spelling -- the ways to spell a type

`Spells` lists the spellings of a type: constructors with their angle brackets, the
question mark that makes a type optional, and blanks between all of these.  The parser
reads the spellings and nothing else (`parse_eq_ok_iff`), so no text spells two types
(`Spells.unique`).  The name of a type that is spelled is a type name, and of every type
with such a name the printed text is a spelling (`spells_text`).
-/
import TreeGrammar.Proofs.TypeRef.Name

set_option autoImplicit false

namespace TreeGrammar.TypeRef

open Text (AllBlank SolidEnds Quiet MarkedBy Padded)

/-! ## Spellings -/

/-- A word and, between angle brackets behind it, the text of another type. -/
def Bracketed (word inside text : Text) : Prop :=
  ∃ gap before after, AllBlank gap ∧ AllBlank before ∧ AllBlank after ∧
    text = word ++ gap ++ '<' :: (before ++ inside ++ after ++ ['>'])

/-- The texts that spell a type. -/
inductive Spells : TypeRef → Text → Prop
  | named {name : Text} (named : IsTypeName name) : Spells (.named name) name
  | sequence {element : TypeRef} {word inside text : Text}
      (isWord : word = "List".toList ∨ word = "Sequence".toList) (spelled : Spells element inside)
      (bracketed : Bracketed word inside text) : Spells (.sequence element) text
  | optional {inner : TypeRef} {inside text : Text} (spelled : Spells inner inside)
      (bracketed : Bracketed "Optional" inside text) : Spells (.optional inner) text
  | marked {inner : TypeRef} {inside gap : Text} (spelled : Spells inner inside)
      (unmarked : inside.getLast? ≠ some '?') (blank : AllBlank gap) :
      Spells (.optional inner) (inside ++ gap ++ ['?'])

variable {type : TypeRef} {text : Text}

section Bracketed

variable {word inside rest : Text}

theorem Bracketed.append (bracketed : Bracketed word inside text) (rest : Text) :
    ∃ gap before after, AllBlank gap ∧ AllBlank before ∧ AllBlank after ∧
      text ++ rest = word ++ (gap ++ '<' :: (before ++ (inside ++ (after ++ '>' :: rest)))) := by
  obtain ⟨gap, before, after, allGap, allBefore, allAfter, rfl⟩ := bracketed
  exact ⟨gap, before, after, allGap, allBefore, allAfter, by simp⟩

theorem Bracketed.length_lt (bracketed : Bracketed word inside text) :
    inside.length + 1 < text.length := by
  obtain ⟨gap, before, after, -, -, -, rfl⟩ := bracketed
  simp only [List.length_append, List.length_cons, List.length_nil]
  omega

theorem Bracketed.getLast?_eq (bracketed : Bracketed word inside text) :
    text.getLast? = some '>' := by
  obtain ⟨gap, before, after, -, -, -, rfl⟩ := bracketed
  rw [← List.cons_append, ← List.append_assoc, List.getLast?_append]
  rfl

theorem Bracketed.head? (bracketed : Bracketed word inside text) (there : word ≠ []) :
    text.head? = word.head? := by
  obtain ⟨gap, before, after, -, -, -, rfl⟩ := bracketed
  obtain ⟨c, more, rfl⟩ := List.exists_cons_of_ne_nil there
  rfl

theorem Bracketed.markedBy (bracketed : Bracketed word inside text) (wordMarked : MarkedBy [] word)
    (insideMarked : MarkedBy [] inside) : MarkedBy [] text := by
  obtain ⟨gap, before, after, allGap, allBefore, allAfter, rfl⟩ := bracketed
  have opened : MarkedBy [] ['<'] := by decide
  have closed : MarkedBy [] ['>'] := by decide
  have inner := (((allBefore.markedBy.append insideMarked).append allAfter.markedBy).append closed)
  exact (wordMarked.append allGap.markedBy).append (opened.append inner)

end Bracketed

/-- A spelling begins with a word. -/
theorem Spells.head (spelled : Spells type text) :
    ∃ c, text.head? = some c ∧ isWordStart c = true := by
  induction spelled with
  | named named =>
      have begins : ∀ {word : Text}, IsWord word →
          ∃ c, word.head? = some c ∧ isWordStart c = true := by
        rintro word ⟨c, rest, rfl, starts, -⟩
        exact ⟨c, rfl, starts⟩
      rcases named with isWord | ⟨first, second, isFirst, -, rfl⟩
      · exact begins isWord
      · obtain ⟨c, head, starts⟩ := begins isFirst
        exact ⟨c, by rw [List.head?_append, head]; rfl, starts⟩
  | sequence isWord _ bracketed _ =>
      rcases isWord with rfl | rfl
      · exact ⟨'L', bracketed.head? (by decide), by decide⟩
      · exact ⟨'S', bracketed.head? (by decide), by decide⟩
  | optional _ bracketed _ => exact ⟨'O', bracketed.head? (by decide), by decide⟩
  | marked _ _ _ ih =>
      obtain ⟨c, head, starts⟩ := ih
      exact ⟨c, by rw [List.append_assoc, List.head?_append, head]; rfl, starts⟩

theorem Spells.ne_nil (spelled : Spells type text) : text ≠ [] := by
  obtain ⟨c, head, -⟩ := spelled.head
  rintro rfl
  cases head

theorem Spells.solidEnds (spelled : Spells type text) : SolidEnds text := by
  constructor
  · intro c head
    obtain ⟨d, begins, starts⟩ := spelled.head
    obtain rfl := Option.some.inj (begins.symm.trans head)
    have part : isWordPart d = true := by rw [isWordPart, starts, Bool.true_or]
    exact (quiet_of_isWordPart (List.forall_mem_singleton.2 part)).solid d (by simp)
  · intro c last
    cases spelled with
    | named named => exact named.quiet.solid c (List.mem_of_mem_getLast? last)
    | sequence _ _ bracketed =>
        rw [bracketed.getLast?_eq] at last
        exact Option.some.inj last ▸ by decide
    | optional _ bracketed =>
        rw [bracketed.getLast?_eq] at last
        exact Option.some.inj last ▸ by decide
    | marked _ _ _ =>
        rw [List.getLast?_append] at last
        exact Option.some.inj last ▸ by decide

theorem Spells.markedBy (spelled : Spells type text) : MarkedBy [] text := by
  induction spelled with
  | named named => exact named.quiet.markedBy
  | sequence isWord _ bracketed ih =>
      refine bracketed.markedBy ?_ ih
      rcases isWord with rfl | rfl
      · decide
      · decide
  | optional _ bracketed ih =>
      exact bracketed.markedBy (by decide) ih
  | marked _ _ blank ih =>
      have mark : MarkedBy [] ['?'] := by decide
      exact (ih.append blank.markedBy).append mark

/-! ## What is read is a spelling -/

/-- In front of the rest stands a spelling of the type, with blanks behind it. -/
def SpelledBefore (type : TypeRef) (rest text : Text) : Prop :=
  ∃ spelling gap, Spells type spelling ∧ AllBlank gap ∧ text = spelling ++ (gap ++ rest)

/-- The question mark behind a type may be taken where the type has none yet. -/
theorem spelledBefore_takeMark {spelling gap : Text} (spelled : Spells type spelling)
    (unmarked : spelling.getLast? ≠ some '?') (blank : AllBlank gap) (text : Text) :
    SpelledBefore (takeMark type text).1 (takeMark type text).2 (spelling ++ (gap ++ text)) := by
  cases text with
  | nil => exact ⟨spelling, gap, spelled, blank, rfl⟩
  | cons c rest =>
      rw [takeMark]
      split
      · next mark =>
        obtain rfl : c = '?' := mark
        obtain ⟨between, allBetween, whole, -⟩ := Text.exists_trimStart rest
        refine ⟨spelling ++ gap ++ ['?'], between, .marked spelled unmarked blank, allBetween, ?_⟩
        rw [← whole]
        simp
      · exact ⟨spelling, gap, spelled, blank, rfl⟩

theorem Spells.wrap {name inside : Text} {wrap : TypeRef → TypeRef} {inner : TypeRef}
    (found : constructor? name = some wrap) (spelled : Spells inner inside)
    (bracketed : Bracketed name inside text) : Spells (wrap inner) text := by
  unfold constructor? at found
  split at found
  · next isWord =>
    obtain rfl := Option.some.inj found
    exact .sequence isWord spelled bracketed
  split at found
  · next isWord =>
    obtain rfl := Option.some.inj found
    exact .optional spelled (isWord ▸ bracketed)
  · exact absurd found (by simp)

theorem IsTypeName.unmarked {name : Text} (named : IsTypeName name) : name.getLast? ≠ some '?' := by
  intro last
  cases named.parts '?' (List.mem_of_getLast? last) with
  | inl part => exact absurd part (by decide)
  | inr point => exact absurd point (by decide)

/-- **What is read has been spelled**, in front of what is left over. -/
theorem spelledBefore_of_readWithin {rounds : Nat} {text rest : Text} {type : TypeRef}
    (read : readWithin rounds text = .ok (type, rest)) : SpelledBefore type rest text := by
  induction rounds generalizing text type rest with
  | zero => cases read
  | succ rounds ih =>
      rw [readWithin] at read
      split at read
      · exact absurd read (by simp)
      next name after taken =>
        obtain ⟨named, rfl⟩ := takeName?_eq_some taken
        obtain ⟨gap, allGap, whole, -⟩ := Text.exists_trimStart after
        split at read
        · next none =>
          obtain ⟨rfl, rfl⟩ := Prod.mk.inj (Except.ok.inj read)
          exact ⟨name, gap, .named named, allGap, by rw [whole, none]⟩
        next c behind opened =>
          rw [whole, opened]
          split at read
          · next bracket =>
            obtain rfl : c = '<' := bracket
            split at read
            · exact absurd read (by simp)
            next wrap found =>
              split at read
              · exact absurd read (by simp)
              · exact absurd read (by simp)
              next inner d last inside =>
                split at read
                · next closing =>
                  obtain rfl : d = '>' := closing
                  obtain ⟨before, allBefore, front, -⟩ := Text.exists_trimStart behind
                  obtain ⟨spelling, between, spelled, allBetween, inner⟩ := ih inside
                  obtain ⟨ahead, allAhead, back, -⟩ := Text.exists_trimStart last
                  have bracketed : Bracketed name spelling
                      (name ++ gap ++ '<' :: (before ++ spelling ++ between ++ ['>'])) :=
                    ⟨gap, before, between, allGap, allBefore, allBetween, rfl⟩
                  have settles := spelledBefore_takeMark (spelled.wrap found bracketed)
                    (by rw [bracketed.getLast?_eq]; decide) allAhead (Text.trimStart last)
                  rw [Except.ok.inj read, ← back] at settles
                  rw [front, inner]
                  simpa using settles
                · exact absurd read (by simp)
          · have settles := spelledBefore_takeMark (.named named) named.unmarked allGap (c :: behind)
            rwa [Except.ok.inj read] at settles

/-- The name inside a type that is spelled is a type name. -/
theorem Spells.isTypeName (spelled : Spells type text) : IsTypeName type.name := by
  induction spelled with
  | named named => exact named
  | sequence _ _ _ ih => exact ih
  | optional _ _ ih => exact ih
  | marked _ _ _ ih => exact ih

/-- A text is a type only if, without the blanks around it, it spells that type. -/
theorem spells_of_parse {text : Text} {type : TypeRef} (parsed : parse text = .ok type) :
    Spells type (Text.trim text) := by
  unfold parse readFrom at parsed
  split at parsed
  · exact absurd parsed (by simp)
  · next found read =>
    obtain rfl := Except.ok.inj parsed
    obtain ⟨spelling, gap, spelled, blank, whole⟩ := spelledBefore_of_readWithin read
    -- no blank is left behind a spelling, as the text has been trimmed
    have trimmed := congrArg Text.trim whole
    rw [Text.trim_trim, List.append_nil, Text.trim_ahead spelled.solidEnds blank] at trimmed
    rwa [trimmed]
  · exact absurd parsed (by simp)

theorem isTypeName_of_parse {text : Text} {type : TypeRef} (parsed : parse text = .ok type) :
    IsTypeName type.name :=
  (spells_of_parse parsed).isTypeName

/-! ## Reading a spelling -/

/-- The type that has been spelled and the rest, which may begin with the mark of an optional type
unless the spelling has one. -/
def settled (type : TypeRef) (text rest : Text) : TypeRef × Text :=
  if text.getLast? = some '?' then (type, Text.trimStart rest)
  else takeMark type (Text.trimStart rest)

section Read

variable {gap : Text} {c : Char}

theorem trimStart_gap (blank : AllBlank gap) (solid : Text.isBlank c = false) (rest : Text) :
    Text.trimStart (gap ++ c :: rest) = c :: rest := by
  rw [Text.trimStart_append blank, Text.trimStart_eq_self solid]

/-- No name goes on behind a blank. -/
theorem ends_gap (blank : AllBlank gap) (ends : isWordPart c = false ∧ c ≠ '.') (rest : Text) :
    ∀ d ∈ (gap ++ c :: rest).head?, isWordPart d = false ∧ d ≠ '.' := by
  intro d head
  cases gap with
  | nil => exact Option.some.inj head ▸ ends
  | cons e more =>
      obtain rfl : e = d := Option.some.inj head
      have isBlank := blank e (by simp)
      constructor
      · rw [Bool.eq_false_iff]
        intro part
        have solid := (quiet_of_isWordPart (List.forall_mem_singleton.2 part)).solid e (by simp)
        exact absurd (solid.symm.trans isBlank) (by simp)
      · rintro rfl
        exact absurd isBlank (by decide)

theorem settled_close (type : TypeRef) (text : Text) (blank : AllBlank gap) (rest : Text) :
    settled type text (gap ++ '>' :: rest) = (type, '>' :: rest) := by
  have trimmed := trimStart_gap blank (c := '>') (by decide) rest
  unfold settled
  rw [trimmed]
  split
  · rfl
  · rfl

theorem settled_mark (unmarked : text.getLast? ≠ some '?') (blank : AllBlank gap) (rest : Text) :
    settled type text (gap ++ '?' :: rest) = (.optional type, Text.trimStart rest) := by
  rw [settled, if_neg unmarked, trimStart_gap blank (by decide)]
  rfl

/-- Neither does a name go on in the rest, nor does a bracket open there. -/
structure Ends (rest : Text) : Prop where
  word : ∀ c ∈ rest.head?, isWordPart c = false ∧ c ≠ '.'
  unopened : ∀ c ∈ (Text.trimStart rest).head?, c ≠ '<'

theorem ends_nil : Ends [] := by
  constructor <;> simp [Text.trimStart]

/-- A bracket that closes or a question mark may stand behind a type. -/
theorem ends_closed (blank : AllBlank gap) (closed : c = '>' ∨ c = '?') (rest : Text) :
    Ends (gap ++ c :: rest) := by
  have mark : (isWordPart c = false ∧ c ≠ '.') ∧ Text.isBlank c = false ∧ c ≠ '<' := by
    rcases closed with rfl | rfl
    · decide
    · decide
  refine ⟨ends_gap blank mark.1 rest, ?_⟩
  rw [trimStart_gap blank mark.2.1]
  simpa using mark.2.2

/-- The text is read as the type in front of every rest that ends it. -/
def Readable (type : TypeRef) (text : Text) : Prop :=
  ∀ {rest : Text} {rounds : Nat}, Ends rest → text.length < rounds →
    readWithin rounds (text ++ rest) = .ok (settled type text rest)

theorem readable_name {name : Text} (named : IsTypeName name) : Readable (.named name) name := by
  intro rest rounds ends enough
  obtain ⟨rounds, rfl⟩ := Nat.exists_eq_add_one_of_ne_zero (Nat.ne_zero_of_lt enough)
  rw [readWithin, takeName?_append named ends.word, settled, if_neg named.unmarked]
  cases behind : Text.trimStart rest with
  | nil => simp [behind, takeMark]
  | cons c more =>
      have other : c ≠ '<' := ends.unopened c (by rw [behind]; rfl)
      simp [behind, other]

/-- A constructor around a type that can be read. -/
theorem readable_bracketed {word inside : Text} {wrap : TypeRef → TypeRef} {inner : TypeRef}
    (named : IsTypeName word) (found : constructor? word = some wrap)
    (spelled : Spells inner inside) (bracketed : Bracketed word inside text)
    (readable : Readable inner inside) : Readable (wrap inner) text := by
  intro rest rounds _ enough
  obtain ⟨rounds, rfl⟩ := Nat.exists_eq_add_one_of_ne_zero (Nat.ne_zero_of_lt enough)
  have less := bracketed.length_lt
  have last : text.getLast? ≠ some '?' := by
    rw [bracketed.getLast?_eq]
    decide
  obtain ⟨gap, before, after, allGap, allBefore, allAfter, whole⟩ := bracketed.append rest
  have front : Text.trimStart (before ++ (inside ++ (after ++ '>' :: rest))) =
      inside ++ (after ++ '>' :: rest) := by
    obtain ⟨c, more, rfl⟩ := List.exists_cons_of_ne_nil spelled.ne_nil
    rw [Text.trimStart_append allBefore]
    exact Text.trimStart_eq_self (spelled.solidEnds.front c rfl)
  have opened := trimStart_gap allGap (c := '<') (by decide)
    (before ++ (inside ++ (after ++ '>' :: rest)))
  have read : readWithin rounds (inside ++ (after ++ '>' :: rest)) =
      .ok (inner, '>' :: rest) := by
    rw [readable (ends_closed allAfter (.inl rfl) rest) (by omega), settled_close _ _ allAfter]
  rw [whole, readWithin, takeName?_append named (ends_gap allGap (by decide) _), settled,
    if_neg last]
  simp [opened, found, front, read]

theorem readable_marked {inner : TypeRef} {inside : Text} (unmarked : inside.getLast? ≠ some '?')
    (blank : AllBlank gap) (readable : Readable inner inside) :
    Readable (.optional inner) (inside ++ gap ++ ['?']) := by
  intro rest rounds _ enough
  have less : inside.length < rounds := by
    simp only [List.length_append, List.length_singleton] at enough
    omega
  have last : (inside ++ gap ++ ['?']).getLast? = some '?' := List.getLast?_concat
  have whole : inside ++ gap ++ ['?'] ++ rest = inside ++ (gap ++ '?' :: rest) := by simp
  rw [whole, readable (ends_closed blank (.inr rfl) rest) less, settled_mark unmarked blank,
    settled, if_pos last]

end Read

theorem isTypeName_of_parts {c : Char} {word : Text} (starts : isWordStart c = true)
    (parts : word.all isWordPart = true) : IsTypeName (c :: word) :=
  .inl ⟨c, word, rfl, starts, List.all_eq_true.1 parts⟩

/-- **Every spelling is read.** -/
theorem Spells.readable (spelled : Spells type text) : Readable type text := by
  induction spelled with
  | named named => exact readable_name named
  | sequence isWord spelled bracketed ih =>
      rcases isWord with rfl | rfl
      · exact readable_bracketed (isTypeName_of_parts (by decide) (by decide)) rfl spelled
          bracketed ih
      · exact readable_bracketed (isTypeName_of_parts (by decide) (by decide)) rfl spelled
          bracketed ih
  | optional spelled bracketed ih =>
      exact readable_bracketed (isTypeName_of_parts (by decide) (by decide)) rfl spelled
        bracketed ih
  | marked _ unmarked blank ih => exact readable_marked unmarked blank ih

/-- **A type is read from each of its spellings**, also between blanks. -/
theorem parse_of_spells (spelled : Spells type text) {padded : Text} (around : Padded text padded) :
    parse padded = .ok type := by
  have trimmed : Text.trim padded = text := around.trim_eq spelled.solidEnds
  have read : readWithin (text.length + 1) (text ++ []) = .ok (settled type text []) :=
    spelled.readable ends_nil (Nat.lt_succ_self _)
  have whole : settled type text [] = (type, []) := by
    unfold settled
    split
    · rfl
    · rfl
  rw [List.append_nil, whole] at read
  rw [parse, trimmed, readFrom, read]

/-- **A text is a type exactly if, without the blanks around it, it spells that type.** -/
theorem parse_eq_ok_iff {text : Text} {type : TypeRef} :
    parse text = .ok type ↔ Spells type (Text.trim text) :=
  ⟨spells_of_parse, fun spelled => parse_of_spells spelled (Text.padded_trim text).1⟩

/-- No text spells two types, since each is what the text is read as. -/
theorem Spells.unique {other : TypeRef} (spelled : Spells type text)
    (otherSpelled : Spells other text) : type = other := by
  have read := parse_of_spells spelled (Text.padded_self text)
  exact Except.ok.inj (read.symm.trans (parse_of_spells otherSpelled (Text.padded_self text)))

/-- The printed text of a type is one of its spellings. -/
theorem spells_text {type : TypeRef} (named : IsTypeName type.name) : Spells type type.text := by
  have unpadded : ∀ word inside : Text,
      Bracketed word inside (word ++ '<' :: (inside ++ ['>'])) := by
    intro word inside
    exact ⟨[], [], [], Text.allBlank_nil, Text.allBlank_nil, Text.allBlank_nil, by simp⟩
  induction type with
  | named name => exact .named named
  | sequence element ih => exact .sequence (.inl rfl) (ih named) (unpadded _ _)
  | optional inner ih => exact .optional (ih named) (unpadded _ _)

end TreeGrammar.TypeRef
