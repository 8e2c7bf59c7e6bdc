/-
# TreeGrammar.Text.Basic -- texts as lists of characters

A text is the list of its characters, so cutting and joining are list operations
and every statement about a text is a statement about a list.  A string literal
stands for its list of characters.
-/

set_option autoImplicit false

namespace TreeGrammar

/-- A text is the list of its characters. -/
abbrev Text := List Char

instance : Coe String Text := ⟨String.toList⟩

instance : LawfulBEq Text := inferInstance

namespace Text

/-- The parts with the separator between each two neighbours. -/
def join (separator : Text) : List Text → Text
  | [] => []
  | [part] => part
  | part :: next :: rest => part ++ separator ++ join separator (next :: rest)

/-- The lines, each on a line of its own, without a break at the end. -/
def ofLines (lines : List Text) : Text :=
  join ['\n'] lines

/-- What stands before the first `mark` and, if there is a `mark`, what stands after it. -/
def cut (mark : Char) : Text → Text × Option Text
  | [] => ([], none)
  | c :: rest =>
      if c = mark then ([], some rest)
      else ((c :: (cut mark rest).1), (cut mark rest).2)

/-- The parts between the marks; a text without a mark is its only part. -/
def split (mark : Char) : Text → List Text
  | [] => [[]]
  | c :: rest =>
      if c = mark then [] :: split mark rest
      else
        match split mark rest with
        | [] => [[c]]
        | part :: parts => (c :: part) :: parts

/-- What follows the last `mark`; the whole text if there is none. -/
def afterLast (mark : Char) (text : Text) : Text :=
  (text.reverse.takeWhile (· ≠ mark)).reverse

/-- The text without `start` at its front, if it stands there. -/
def dropStart (start text : Text) : Text :=
  (start.isPrefixOf? text).getD text

/-- The text without `tail` at its end, if it stands there. -/
def dropEnd (tail text : Text) : Text :=
  (tail.isSuffixOf? text).getD text

/-- A text repeated. -/
def repeated (count : Nat) (text : Text) : Text :=
  (List.replicate count text).flatten

/-- Texts in the order of their first differing characters, a shorter text before its extensions. -/
def le : Text → Text → Bool
  | [], _ => true
  | _ :: _, [] => false
  | a :: as, b :: bs => a.toNat < b.toNat || (a = b && le as bs)

theorem split_ne_nil (mark : Char) (text : Text) : split mark text ≠ [] := by
  cases text with
  | nil => simp [split]
  | cons c rest =>
      simp only [split]
      split
      · simp
      · split <;> simp

theorem join_split (mark : Char) (text : Text) : join [mark] (split mark text) = text := by
  induction text with
  | nil => rfl
  | cons c rest ih =>
      obtain ⟨part, parts, found⟩ := List.exists_cons_of_ne_nil (split_ne_nil mark rest)
      rw [found] at ih
      by_cases same : c = mark
      · simp [split, same, found, join, ih]
      · cases parts with
        | nil => simpa [split, same, found, join] using ih
        | cons next more => simpa [split, same, found, join] using ih

theorem cut_of_not_mem {mark : Char} {text : Text} (absent : mark ∉ text) :
    cut mark text = (text, none) := by
  induction text with
  | nil => rfl
  | cons c rest ih =>
      simp only [List.mem_cons, not_or] at absent
      simp [cut, Ne.symm absent.1, ih absent.2]

theorem cut_append {mark : Char} {before : Text} (absent : mark ∉ before) (after : Text) :
    cut mark (before ++ mark :: after) = (before, some after) := by
  induction before with
  | nil => simp [cut]
  | cons c rest ih =>
      simp only [List.mem_cons, not_or] at absent
      simp [cut, Ne.symm absent.1, ih absent.2]

end Text

end TreeGrammar
