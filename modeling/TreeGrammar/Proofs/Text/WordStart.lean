/-
# TreeGrammar.Proofs.Text.WordStart -- where the words of a name begin

A name is put in snake case by two passes, each of which goes over whole runs of
characters.  Together they do what a look at the neighbours of each character does
(`beginsWord`): a word begins at a capital behind a small letter or a digit, and at the
capital between another capital and a small letter.  Neither pass misses such a place, and
no place gets two low lines (`snakeCase_eq_lower_parted`).

Each pass is shown to mark the places of its own rule (`marked`).  The second looks at what
the first has written, but a low line only stands between two capitals there, where the second
has nothing to do.
-/
import TreeGrammar.Proofs.Text.WordBreak

set_option autoImplicit false

namespace TreeGrammar.Text

/-! ## Where words begin -/

/-- A small letter or a digit: a capital behind it begins a word. -/
def endsHump (c : Char) : Bool :=
  isSmall c || isDigit c

/-- Whether a word begins at the position: a capital stands there, and in front of it a small letter
or a digit, or else a capital in front of it and a small letter behind it. -/
def beginsWord (text : Text) : (position : Nat) → Bool
  | 0 => false
  | before + 1 =>
      text[before + 1]?.any isCapital &&
        (text[before]?.any endsHump ||
          (text[before]?.any isCapital && text[before + 2]?.any isSmall))

/-- The text with a low line in front of every position where a word begins. -/
def parted (text : Text) : Text :=
  (text.mapIdx fun position c => if beginsWord text position then ['_', c] else [c]).flatten

/-- The lower case of the character at a position, with the text around it for its neighbours. -/
def lowerAt (text : Text) (position : Nat) (c : Char) : Text :=
  lowerBetween (text.take position).reverse c (text.drop (position + 1))

/-- A rule for the places of low lines: whether one stands in front of a character, by its
neighbours. -/
abbrev Rule := Option Char → Char → Option Char → Bool

/-- The capital between a capital and a small letter. -/
def acronymRule : Rule := fun before c after =>
  isCapital c && (before.any isCapital && after.any isSmall)

/-- The capital behind a small letter or a digit. -/
def humpRule : Rule := fun before c _ =>
  isCapital c && before.any endsHump

def wordRule : Rule := fun before c after =>
  humpRule before c after || acronymRule before c after

/-- A text that follows the character `before`, with the low lines of a rule. -/
def marked (rule : Rule) (before : Option Char) : Text → Text
  | [] => []
  | c :: rest =>
      if rule before c rest.head? then '_' :: c :: marked rule (some c) rest
      else c :: marked rule (some c) rest

section Marked

variable {rule : Rule} {before : Option Char} {c : Char} {rest : Text}

theorem marked_of_rule (begins : rule before c rest.head? = true) :
    marked rule before (c :: rest) = '_' :: c :: marked rule (some c) rest := by
  rw [marked, if_pos begins]

theorem marked_of_not_rule (goesOn : rule before c rest.head? = false) :
    marked rule before (c :: rest) = c :: marked rule (some c) rest := by
  rw [marked, if_neg (by simp [goesOn])]

end Marked

theorem wordRule_at (front : Text) (c : Char) (rest : Text) :
    beginsWord (front ++ c :: rest) front.length = wordRule front.getLast? c rest.head? := by
  cases front using List.reverseRecOn with
  | nil => simp [beginsWord, wordRule, humpRule, acronymRule]
  | append_singleton more d =>
      have before : (more ++ [d] ++ c :: rest)[more.length]? = some d := by simp
      have here : (more ++ [d] ++ c :: rest)[more.length + 1]? = some c := by simp
      have behind : (more ++ [d] ++ c :: rest)[more.length + 2]? = rest.head? := by
        rw [List.append_assoc, List.getElem?_append_right (Nat.le_add_right _ _)]
        simp [List.head?_eq_getElem?]
      rw [List.length_append, List.length_singleton, beginsWord, before, here, behind]
      simp [wordRule, humpRule, acronymRule, Bool.and_or_distrib_left]

/-- Going along the text is looking at every position. -/
theorem flatten_mapIdx_beginsWord (front text : Text) :
    (text.mapIdx fun position c =>
        if beginsWord (front ++ text) (front.length + position) then ['_', c] else [c]).flatten =
      marked wordRule front.getLast? text := by
  induction text generalizing front with
  | nil => rfl
  | cons c rest ih =>
      have others := ih (front ++ [c])
      simp only [List.append_assoc, List.singleton_append, List.length_append,
        List.length_singleton, List.getLast?_concat] at others
      rw [List.mapIdx_cons, List.flatten_cons, Nat.add_zero, wordRule_at, marked, ← others]
      simp only [Nat.add_assoc, Nat.add_comm 1]
      split <;> rfl

theorem parted_eq_marked (text : Text) : parted text = marked wordRule none text := by
  simpa [parted] using flatten_mapIdx_beginsWord [] text

/-! ## The first pass -/

theorem isSmall_of_isCapital {c : Char} (capital : isCapital c = true) : isSmall c = false := by
  simp only [isCapital, isSmall, Bool.and_eq_true, decide_eq_true_eq, Bool.and_eq_false_iff,
    decide_eq_false_iff_not, Char.le_def, UInt32.le_iff_toNat_le] at capital ⊢
  have order : 'Z'.val.toNat < 'a'.val.toNat := by decide
  omega

theorem endsHump_of_isCapital {c : Char} (capital : isCapital c = true) : endsHump c = false := by
  simp only [endsHump, isCapital, isSmall, isDigit, Bool.and_eq_true, decide_eq_true_eq,
    Bool.or_eq_false_iff, Bool.and_eq_false_iff, decide_eq_false_iff_not, Char.le_def,
    UInt32.le_iff_toNat_le] at capital ⊢
  have order : 'Z'.val.toNat < 'a'.val.toNat ∧ '9'.val.toNat < 'A'.val.toNat := by decide
  omega

section Capitals

variable {run text : Text} {before : Option Char}

/-- In a run of capitals only the last can begin a word, and only in front of a small letter. -/
theorem marked_capitals (capitals : ∀ c ∈ run, isCapital c = true)
    (solid : text.head?.any isSmall = false) :
    marked acronymRule before (run ++ text) =
      run ++ marked acronymRule (run.getLast?.or before) text := by
  induction run generalizing before with
  | nil => rfl
  | cons c rest ih =>
      rw [List.forall_mem_cons] at capitals
      have behind : (rest ++ text).head?.any isSmall = false := by
        cases rest with
        | nil => exact solid
        | cons d more => exact isSmall_of_isCapital (capitals.2 d List.mem_cons_self)
      have goesOn : acronymRule before c (rest ++ text).head? = false := by
        rw [acronymRule, behind, Bool.and_false, Bool.and_false]
      rw [List.cons_append, marked_of_not_rule goesOn, ih capitals.2, List.cons_append,
        List.getLast?_cons, Option.some_or]
      cases rest.getLast? <;> rfl

/-- A run of capitals in front of a small letter: its last capital begins a word if it is not the
only one. -/
theorem marked_acronym (capitals : ∀ c ∈ run, isCapital c = true)
    (alone : before.any isCapital = false) {c : Char} (small : isSmall c = true) (rest : Text) :
    marked acronymRule before (run ++ c :: rest) =
      (if 2 ≤ run.length then run.dropLast ++ '_' :: run.getLast?.toList else run) ++
        c :: marked acronymRule (some c) rest := by
  have notCapital : isCapital c = false := by
    cases capital : isCapital c with
    | false => rfl
    | true => exact absurd (small.symm.trans (isSmall_of_isCapital capital)) (by simp)
  have closed : ∀ last : Option Char, marked acronymRule last (c :: rest) =
      c :: marked acronymRule (some c) rest := fun last =>
    marked_of_not_rule (by simp [acronymRule, notCapital])
  cases run using List.reverseRecOn with
  | nil => exact closed before
  | append_singleton front last =>
      rw [List.forall_mem_append] at capitals
      have isLast : isCapital last = true := capitals.2 last (by simp)
      have solid : (last :: c :: rest).head?.any isSmall = false := isSmall_of_isCapital isLast
      rw [List.append_assoc, List.singleton_append, marked_capitals capitals.1 solid]
      cases ends : front.getLast? with
      | none =>
          obtain rfl := List.getLast?_eq_none_iff.1 ends
          have goesOn : acronymRule before last (c :: rest).head? = false := by
            simp [acronymRule, alone]
          simp [marked_of_not_rule goesOn, closed]
      | some d =>
          have isCapitalD : isCapital d = true := capitals.1 d (List.mem_of_getLast? ends)
          have begins : acronymRule (some d) last (c :: rest).head? = true := by
            simp [acronymRule, isLast, isCapitalD, small]
          have long : 2 ≤ (front ++ [last]).length := by
            cases front with
            | nil => cases ends
            | cons e more => simp
          rw [if_pos long, Option.some_or, marked_of_rule begins, closed]
          simp

/-- The first pass, behind a run of capitals that no capital stands in front of. -/
theorem breakAcronymsAfter_eq_marked (capitals : ∀ c ∈ run, isCapital c = true)
    (alone : before.any isCapital = false) :
    breakAcronymsAfter run text = marked acronymRule before (run ++ text) := by
  induction text generalizing run before with
  | nil =>
      have solid : ([] : Text).head?.any isSmall = false := rfl
      simpa [breakAcronymsAfter, marked] using (marked_capitals capitals solid).symm
  | cons c rest ih =>
      rw [breakAcronymsAfter]
      split
      · next capital =>
        have longer : ∀ d ∈ run ++ [c], isCapital d = true :=
          List.forall_mem_append.2 ⟨capitals, by simpa using capital⟩
        rw [ih longer alone, List.append_assoc, List.singleton_append]
      next notCapital =>
      have others : breakAcronymsAfter [] rest = marked acronymRule (some c) rest :=
        ih (List.forall_mem_nil _) (by simpa using notCapital)
      rw [others]
      cases small : isSmall c with
      | true =>
          rw [marked_acronym capitals alone small]
          by_cases long : 2 ≤ run.length <;> simp [long]
      | false =>
          have solid : (c :: rest).head?.any isSmall = false := small
          have goesOn : acronymRule (run.getLast?.or before) c rest.head? = false := by
            simp [acronymRule, notCapital]
          rw [marked_capitals capitals solid, marked_of_not_rule goesOn]
          simp

end Capitals

theorem breakAcronyms_eq_marked (text : Text) :
    breakAcronyms text = marked acronymRule none text :=
  breakAcronymsAfter_eq_marked nofun rfl

/-! ## The second pass -/

/-- The second pass, behind a character after which no word begins. -/
theorem breakHumps_eq_marked {before : Option Char} {text : Text}
    (goesOn : ∀ c ∈ text.head?, humpRule before c none = false) :
    breakHumps text = marked humpRule before text := by
  induction text using breakHumps.induct generalizing before with
  | case1 => rfl
  | case2 c =>
      have alone : humpRule before c ([] : Text).head? = false := goesOn c rfl
      exact (marked_of_not_rule alone).symm
  | case3 c d rest hump ih =>
      obtain ⟨ends, capital⟩ := (Bool.and_eq_true_iff ..).1 hump
      have begins : humpRule (some c) d rest.head? = true := by
        simpa [humpRule, endsHump, capital] using ends
      have others : breakHumps rest = marked humpRule (some d) rest := ih fun e _ => by
        simp [humpRule, endsHump_of_isCapital capital]
      have stays : humpRule before c (d :: rest).head? = false := goesOn c rfl
      rw [breakHumps, if_pos hump, marked_of_not_rule stays, marked_of_rule begins, others]
  | case4 c d rest flat ih =>
      have others : breakHumps (d :: rest) = marked humpRule (some c) (d :: rest) := by
        refine ih fun e head => ?_
        obtain rfl := Option.some.inj head
        simpa [humpRule, endsHump, and_comm] using flat
      have stays : humpRule before c (d :: rest).head? = false := goesOn c rfl
      rw [breakHumps, if_neg flat, marked_of_not_rule stays, others]

/-- Behind a low line of the first rule the second finds no place. -/
theorem marked_marked (before : Option Char) (text : Text) :
    marked humpRule before (marked acronymRule before text) = marked wordRule before text := by
  induction text generalizing before with
  | nil => rfl
  | cons c rest ih =>
      cases acronym : acronymRule before c rest.head? with
      | true =>
          have begins : wordRule before c rest.head? = true := by simp [wordRule, acronym]
          have line : ∀ after, humpRule before '_' after = false := fun after => rfl
          have behind : ∀ after, humpRule (some '_') c after = false := fun after => by
            have notEnd : endsHump '_' = false := by decide
            simp [humpRule, notEnd]
          rw [marked_of_rule acronym, marked_of_rule begins, marked_of_not_rule (line _),
            marked_of_not_rule (behind _), ih]
      | false =>
          have same : wordRule before c rest.head? = humpRule before c rest.head? := by
            simp [wordRule, acronym]
          rw [marked_of_not_rule acronym, marked, marked, same, ih]
          rfl

theorem breaks_eq_parted (name : Text) : breakHumps (breakAcronyms name) = parted name := by
  have atStart : ∀ c ∈ (breakAcronyms name).head?, humpRule none c none = false := fun c _ => by
    simp [humpRule]
  rw [breakHumps_eq_marked atStart, breakAcronyms_eq_marked, marked_marked, parted_eq_marked]

/-! ## Lower case with low lines -/

section LowerCase

variable {before : Text} {c : Char} {text : Text}

theorem isPlain_of_wordRule {d : Char} {after : Option Char}
    (begins : wordRule (some d) c after = true) : isPlain d = true ∧ isPlain c = true := by
  simp only [wordRule, humpRule, acronymRule, endsHump, isPlain, Option.any_some, Bool.or_eq_true,
    Bool.and_eq_true] at begins ⊢
  tauto

/-- Neither letters nor digits are passed over where the form of a sigma is decided. -/
theorem not_ignorable_of_isPlain (plain : isPlain c = true) :
    caseIgnorables.contains c = false := by
  have codes : ∀ code < 128, isPlain (Char.ofNat code) = true →
      caseIgnorables.contains (Char.ofNat code) = false := by decide +kernel
  have found := codes c.toNat (lt_of_isPlain plain)
  rw [Char.ofNat_toNat] at found
  exact found plain

theorem meetsCased_cons_of_ignorable (ignorable : caseIgnorables.contains c = true) :
    meetsCased (c :: text) = meetsCased text := by
  rw [meetsCased, List.dropWhile_cons, if_pos ignorable, meetsCased]

theorem meetsCased_cons_of_solid (solid : caseIgnorables.contains c = false) :
    meetsCased (c :: text) = casedLetters.contains c := by
  rw [meetsCased, List.dropWhile_cons, if_neg (by simp [solid])]

/-- What is in front of a text decides its neighbours' forms only as far as it is passed over. -/
theorem meetsCased_cons_congr {other : Text} (same : meetsCased text = meetsCased other) :
    meetsCased (c :: text) = meetsCased (c :: other) := by
  cases ignorable : caseIgnorables.contains c with
  | true =>
      rw [meetsCased_cons_of_ignorable ignorable, meetsCased_cons_of_ignorable ignorable, same]
  | false => rw [meetsCased_cons_of_solid ignorable, meetsCased_cons_of_solid ignorable]

/-- No low line stands in front of the first character that is not passed over. -/
theorem meetsCased_marked {last : Option Char}
    (goesOn : ∀ c ∈ text.head?, ∀ after, wordRule last c after = false) :
    meetsCased (marked wordRule last text) = meetsCased text := by
  induction text generalizing last with
  | nil => rfl
  | cons c rest ih =>
      rw [marked_of_not_rule (goesOn c rfl _)]
      cases ignorable : caseIgnorables.contains c with
      | false => rw [meetsCased_cons_of_solid ignorable, meetsCased_cons_of_solid ignorable]
      | true =>
          refine meetsCased_cons_congr (ih fun d _ after => ?_)
          rw [Bool.eq_false_iff]
          intro begins
          have solid := not_ignorable_of_isPlain (isPlain_of_wordRule begins).1
          exact absurd (ignorable.symm.trans solid) (by simp)

theorem lowerBetween_congr {other after rest : Text} (front : meetsCased before = meetsCased other)
    (back : c = 'Σ' → meetsCased after = meetsCased rest) :
    lowerBetween before c after = lowerBetween other c rest := by
  unfold lowerBetween
  split
  · rfl
  split
  · next sigma => rw [endsWord, endsWord, front, back sigma]
  · rfl

/-- The lower case of a text that follows `before`, with low lines put in afterwards. -/
def markedLower (before : Text) : Text → Text
  | [] => []
  | c :: rest =>
      (if wordRule before.head? c rest.head? then ['_'] else []) ++ lowerBetween before c rest ++
        markedLower (c :: before) rest

/-- Low lines do not change the letters around them: what stands in front may have low lines as
long as it decides the form of a sigma alike. -/
theorem lowerAfter_marked {other : Text} (same : meetsCased other = meetsCased before) :
    lowerAfter other (marked wordRule before.head? text) = markedLower before text := by
  induction text generalizing before other with
  | nil => rfl
  | cons c rest ih =>
      rw [markedLower]
      split
      · next begins =>
        -- the marked character is an ASCII capital, so its lower case has no regard for neighbours
        obtain ⟨d, front⟩ : ∃ d, before.head? = some d := by
          cases first : before.head? with
          | none => rw [first] at begins; simp [wordRule, humpRule, acronymRule] at begins
          | some d => exact ⟨d, rfl⟩
        have plain := (isPlain_of_wordRule (front ▸ begins)).2
        have solid := not_ignorable_of_isPlain plain
        have others : lowerAfter (c :: '_' :: other) (marked wordRule (c :: before).head? rest) =
            markedLower (c :: before) rest :=
          ih (by rw [meetsCased_cons_of_solid solid, meetsCased_cons_of_solid solid])
        rw [List.head?_cons] at others
        rw [marked_of_rule begins, lowerAfter, lowerBetween_line, lowerAfter, others,
          (plainCase plain).lower, (plainCase plain).lower]
        simp
      · next goesOn =>
        have others : lowerAfter (c :: other) (marked wordRule (c :: before).head? rest) =
            markedLower (c :: before) rest := ih (meetsCased_cons_congr same)
        rw [List.head?_cons] at others
        have kept : lowerBetween other c (marked wordRule (some c) rest) =
            lowerBetween before c rest := by
          refine lowerBetween_congr same fun sigma => meetsCased_marked fun d _ after => ?_
          subst sigma
          have notPlain : isPlain 'Σ' = false := by decide
          rw [Bool.eq_false_iff]
          intro begins
          exact absurd ((isPlain_of_wordRule begins).1.symm.trans notPlain) (by simp)
        rw [marked_of_not_rule (by simpa using goesOn), lowerAfter, others, kept, List.nil_append]

/-- Going along the text is lowering every position and marking it. -/
theorem flatten_mapIdx_lowerAt (front text : Text) :
    (text.mapIdx fun position c =>
        (if beginsWord (front ++ text) (front.length + position) then ['_'] else []) ++
          lowerAt (front ++ text) (front.length + position) c).flatten =
      markedLower front.reverse text := by
  induction text generalizing front with
  | nil => rfl
  | cons c rest ih =>
      have others := ih (front ++ [c])
      simp only [List.append_assoc, List.singleton_append, List.length_append,
        List.length_singleton, List.reverse_append, List.reverse_singleton] at others
      have here : lowerAt (front ++ c :: rest) front.length c =
          lowerBetween front.reverse c rest := by
        have behind : (front ++ c :: rest).drop (front.length + 1) = rest := by
          rw [← List.drop_drop, List.drop_left, List.drop_succ_cons, List.drop_zero]
        rw [lowerAt, List.take_left, behind]
      rw [List.mapIdx_cons, List.flatten_cons, Nat.add_zero, wordRule_at, here, markedLower,
        ← others, List.head?_reverse]
      simp only [Nat.add_assoc, Nat.add_comm 1]

end LowerCase

/-- **Where the low lines of a snake case stand.**  The snake case of a name is the lower case of
the name with one low line in front of every position where a word begins, by the neighbours of
that position in the name itself.  Putting the low lines into the lower case instead gives the
same text. -/
theorem snakeCase_eq_lower_parted (name : Text) :
    snakeCase name = lower (parted name) ∧
      snakeCase name = (name.mapIdx fun position c =>
        (if beginsWord name position then ['_'] else []) ++ lowerAt name position c).flatten := by
  have whole : snakeCase name = lower (parted name) := by rw [snakeCase, breaks_eq_parted]
  refine ⟨whole, whole.trans ?_⟩
  have along := flatten_mapIdx_lowerAt [] name
  simp only [List.nil_append, List.length_nil, Nat.zero_add, List.reverse_nil] at along
  rw [lower, parted_eq_marked, along]
  exact lowerAfter_marked (rfl : meetsCased [] = meetsCased [])

/-- A run of capitals, a digit in front of a capital and a sigma at the end of a word. -/
example : parted "HTTPGet2ΟΔΟΣBy".toList = "HTTP_Get2ΟΔΟΣBy".toList ∧
    parted "ABc1DEfG".toList = "A_Bc1_D_Ef_G".toList := by decide +kernel

end TreeGrammar.Text
