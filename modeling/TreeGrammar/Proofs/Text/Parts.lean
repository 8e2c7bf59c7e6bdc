/-
# TreeGrammar.Proofs.Text.Parts -- joined parts, taken apart again

Where no separator stands in a part, splitting takes a join back (`split_join`).  Trimming a
text only trims its outer parts (`map_trim_split_trim`).
-/
import Mathlib.Data.List.Basic
import Mathlib.Data.List.Forall2
import Mathlib.Data.List.TakeWhile
import TreeGrammar.Proofs.Text.Blank

set_option autoImplicit false

namespace TreeGrammar.Text

/-! ## Separators -/

theorem dropStart_append (start rest : Text) : dropStart start (start ++ rest) = rest := by
  have found : start.isPrefixOf? (start ++ rest) = some rest :=
    List.isPrefixOf?_eq_some_iff_append_eq.2 rfl
  rw [dropStart, found, Option.getD_some]

theorem dropEnd_append (text tail : Text) : dropEnd tail (text ++ tail) = text := by
  have found : tail.isSuffixOf? (text ++ tail) = some text :=
    List.isSuffixOf?_eq_some_iff_append_eq.2 rfl
  rw [dropEnd, found, Option.getD_some]

theorem cut_append_of_not_mem {mark : Char} {before : Text} (absent : mark ∉ before)
    (text : Text) :
    cut mark (before ++ text) = (before ++ (cut mark text).1, (cut mark text).2) := by
  induction before with
  | nil => rfl
  | cons c rest ih =>
      rw [List.mem_cons, not_or] at absent
      rw [List.cons_append, cut, if_neg (Ne.symm absent.1), ih absent.2]
      rfl

theorem not_mem_of_mem_split {mark : Char} {text part : Text} (member : part ∈ split mark text) :
    mark ∉ part := by
  induction text generalizing part with
  | nil =>
      have : part = [] := by simpa [split] using member
      simp [this]
  | cons c rest ih =>
      obtain ⟨first, parts, found⟩ := List.exists_cons_of_ne_nil (split_ne_nil mark rest)
      by_cases same : c = mark
      · simp only [split, same, if_true, List.mem_cons] at member
        rcases member with rfl | inRest
        · simp
        · exact ih inRest
      · simp only [split, same, if_false, found, List.mem_cons] at member
        rcases member with rfl | inRest
        · have absent : mark ∉ first := ih (by simp [found])
          simp [Ne.symm same, absent]
        · exact ih (by simp [found, inRest])

theorem split_of_not_mem {mark : Char} {text : Text} (absent : mark ∉ text) :
    split mark text = [text] := by
  induction text with
  | nil => rfl
  | cons c rest ih =>
      simp only [List.mem_cons, not_or] at absent
      rw [split, if_neg (Ne.symm absent.1), ih absent.2]

theorem split_append {mark : Char} {front : Text} (absent : mark ∉ front) (rest : Text) :
    split mark (front ++ mark :: rest) = front :: split mark rest := by
  induction front with
  | nil => simp [split]
  | cons c more ih =>
      simp only [List.mem_cons, not_or] at absent
      rw [List.cons_append, split, if_neg (Ne.symm absent.1), ih absent.2]

/-- A separator parts what stands on its two sides. -/
theorem split_append_mark (mark : Char) (text rest : Text) :
    split mark (text ++ mark :: rest) = split mark text ++ split mark rest := by
  induction text with
  | nil => simp [split]
  | cons c more ih =>
      obtain ⟨part, parts, found⟩ := List.exists_cons_of_ne_nil (split_ne_nil mark more)
      rw [found] at ih
      by_cases same : c = mark
      · simp [split, same, ih, found]
      · simp [split, same, ih, found]

/-- What has no separator is counted to the last part. -/
theorem split_append_unmarked {mark : Char} {after : Text} (absent : mark ∉ after) (text : Text) :
    ∃ front last, split mark text = front ++ [last] ∧
      split mark (text ++ after) = front ++ [last ++ after] := by
  induction text with
  | nil => exact ⟨[], [], rfl, by simpa using split_of_not_mem absent⟩
  | cons c rest ih =>
      obtain ⟨front, last, whole, longer⟩ := ih
      by_cases same : c = mark
      · exact ⟨[] :: front, last, by simp [split, same, whole], by simp [split, same, longer]⟩
      · cases front with
        | nil =>
            exact ⟨[], c :: last, by simp [split, same, whole], by simp [split, same, longer]⟩
        | cons part parts =>
            exact ⟨(c :: part) :: parts, last, by simp [split, same, whole],
              by simp [split, same, longer]⟩

theorem split_join {mark : Char} {part : Text} {parts : List Text}
    (absent : ∀ each ∈ part :: parts, mark ∉ each) :
    split mark (join [mark] (part :: parts)) = part :: parts := by
  induction parts generalizing part with
  | nil => exact split_of_not_mem (absent part (by simp))
  | cons next rest ih =>
      have others := ih fun each member => absent each (List.mem_cons_of_mem _ member)
      rw [join, List.append_assoc, List.singleton_append, split_append (absent part (by simp)),
        others]

/-- Parts with a blank behind each separator: the blank may be counted to the next part. -/
theorem join_spaced (mark : Char) (part : Text) (parts : List Text) :
    join [mark, ' '] (part :: parts) = join [mark] (part :: parts.map (' ' :: ·)) := by
  induction parts generalizing part with
  | nil => rfl
  | cons next rest ih =>
      rw [List.map_cons, join, join, ih next]
      cases rest <;> simp [join]

/-- What stands in front of a join is counted to its first part. -/
theorem append_join (front : Text) (separator part : Text) (parts : List Text) :
    front ++ join separator (part :: parts) = join separator ((front ++ part) :: parts) := by
  cases parts <;> simp [join]

/-! ## Two ways to part a text -/

/-- A text ends in a mark and another text behind it, unless the two are the same. -/
theorem exists_middle {mark : Char} {first second gap : Text} (different : first ≠ second)
    (same : mark :: first = gap ++ mark :: second) :
    ∃ middle, gap = mark :: middle ∧ first = middle ++ mark :: second := by
  cases gap with
  | nil => exact absurd (List.cons.inj same).2 different
  | cons c middle =>
      rw [List.cons_append] at same
      obtain ⟨rfl, longer⟩ := List.cons.inj same
      exact ⟨middle, rfl, longer⟩

/-- **A text parted at two of its marks.**  Where different texts stand behind the marks, the one
holds the other, and what is between the marks is taken from the front of the one and put to the
end of the other. -/
theorem append_mark_eq_iff {mark : Char} {front back first second : Text}
    (different : first ≠ second) :
    front ++ mark :: first = back ++ mark :: second ↔
      (∃ middle, second = middle ++ mark :: first ∧ front = back ++ mark :: middle) ∨
        ∃ middle, first = middle ++ mark :: second ∧ back = front ++ mark :: middle := by
  constructor
  · intro same
    rcases List.append_eq_append_iff.1 same with ⟨gap, whole, behind⟩ | ⟨gap, whole, behind⟩
    · obtain ⟨middle, rfl, longer⟩ := exists_middle different behind
      exact .inr ⟨middle, longer, whole⟩
    · obtain ⟨middle, rfl, longer⟩ := exists_middle different.symm behind
      exact .inl ⟨middle, longer, whole⟩
  · rintro (⟨middle, rfl, rfl⟩ | ⟨middle, rfl, rfl⟩)
    · simp
    · simp

/-! ## The last part -/

theorem afterLast_of_not_mem {mark : Char} {text : Text} (absent : mark ∉ text) :
    afterLast mark text = text := by
  have whole : text.reverse.takeWhile (· ≠ mark) = text.reverse := by
    refine List.takeWhile_eq_self_iff.2 fun c member => ?_
    have : c ≠ mark := fun same => absent (same ▸ List.mem_reverse.1 member)
    simpa using this
  rw [afterLast, whole, List.reverse_reverse]

theorem afterLast_append {mark : Char} {after : Text} (absent : mark ∉ after) (before : Text) :
    afterLast mark (before ++ mark :: after) = after := by
  have solid : ∀ c ∈ after.reverse, decide (c ≠ mark) = true := by
    intro c member
    have : c ≠ mark := fun same => absent (same ▸ List.mem_reverse.1 member)
    simpa using this
  have backwards : (before ++ mark :: after).reverse = after.reverse ++ mark :: before.reverse := by
    simp
  rw [afterLast, backwards, List.takeWhile_append_of_pos solid, List.takeWhile_cons]
  simp

/-! ## Trimmed parts -/

theorem map_trim_of_padded {parts cores : List Text}
    (padded : List.Forall₂ (fun part core => Padded core part) parts cores)
    (solid : ∀ core ∈ cores, SolidEnds core) : parts.map trim = cores := by
  induction padded with
  | nil => rfl
  | cons around rest ih =>
      rw [List.forall_mem_cons] at solid
      rw [List.map_cons, around.trim_eq solid.1, ih solid.2]

section Trim

variable {mark : Char} (solid : isBlank mark = false)

include solid

theorem map_trim_split_behind {before : Text} (blank : AllBlank before) (text : Text) :
    (split mark (before ++ text)).map trim = (split mark text).map trim := by
  induction before with
  | nil => rfl
  | cons c rest ih =>
      rw [AllBlank, List.forall_mem_cons] at blank
      have other : c ≠ mark := by
        intro same
        exact absurd (blank.1.symm.trans (same ▸ solid)) (by simp)
      obtain ⟨part, parts, found⟩ := List.exists_cons_of_ne_nil (split_ne_nil mark (rest ++ text))
      have single : AllBlank [c] := by simpa [AllBlank] using blank.1
      have dropped : trim (c :: part) = trim part := by
        rw [trim, ← List.singleton_append, trimStart_append single, trim]
      rw [← ih blank.2, List.cons_append, split, if_neg other, found]
      simp only [List.map_cons, dropped]

theorem map_trim_split_ahead {after : Text} (blank : AllBlank after) (text : Text) :
    (split mark (text ++ after)).map trim = (split mark text).map trim := by
  have absent : mark ∉ after := fun member =>
    absurd (solid.symm.trans (blank mark member)) (by simp)
  obtain ⟨front, last, whole, longer⟩ := split_append_unmarked absent text
  obtain ⟨⟨before, behind, allBefore, allBehind, core⟩, ends⟩ := padded_trim last
  have trimmed : trim (last ++ after) = trim last := by
    refine Padded.trim_eq ⟨before, behind ++ after, allBefore, allBehind.append blank, ?_⟩ ends
    rw [← List.append_assoc, ← core]
  rw [whole, longer, List.map_append, List.map_append, List.map_singleton, List.map_singleton,
    trimmed]

theorem map_trim_split_trimStart (text : Text) :
    (split mark (trimStart text)).map trim = (split mark text).map trim := by
  obtain ⟨before, blank, whole, -⟩ := exists_trimStart text
  conv_rhs => rw [whole]
  exact (map_trim_split_behind solid blank _).symm

theorem map_trim_split_trimEnd (text : Text) :
    (split mark (trimEnd text)).map trim = (split mark text).map trim := by
  obtain ⟨after, blank, whole, -⟩ := exists_trimEnd text
  conv_rhs => rw [whole]
  exact (map_trim_split_ahead solid blank _).symm

/-- **Trimming a text only trims its outer parts.** -/
theorem map_trim_split_trim (text : Text) :
    (split mark (trim text)).map trim = (split mark text).map trim := by
  rw [trim, map_trim_split_trimEnd solid, map_trim_split_trimStart solid]

end Trim

/-! ## Joined texts -/

theorem join_isPrefix_join {separator : Text} {parts more : List Text} (first : parts <+: more) :
    join separator parts <+: join separator more := by
  induction parts generalizing more with
  | nil => exact List.nil_prefix
  | cons part rest ih =>
      obtain ⟨tail, rfl⟩ := first
      cases rest with
      | nil =>
          cases tail with
          | nil => exact List.prefix_rfl
          | cons next others =>
              rw [List.singleton_append, join, join, List.append_assoc]
              exact List.prefix_append _ _
      | cons next others =>
          rw [List.cons_append, List.cons_append, join, join]
          exact (List.prefix_append_right_inj _).2 (ih ⟨tail, rfl⟩)

theorem mem_join {separator : Text} {parts : List Text} {c : Char}
    (member : c ∈ join separator parts) : c ∈ separator ∨ ∃ part ∈ parts, c ∈ part := by
  induction parts with
  | nil => exact absurd member List.not_mem_nil
  | cons part rest ih =>
      cases rest with
      | nil => exact .inr ⟨part, by simp, member⟩
      | cons next more =>
          rw [join, List.mem_append, List.mem_append] at member
          rcases member with (here | between) | later
          · exact .inr ⟨part, by simp, here⟩
          · exact .inl between
          · rcases ih later with between | ⟨each, listed, inside⟩
            · exact .inl between
            · exact .inr ⟨each, List.mem_cons_of_mem part listed, inside⟩

theorem markedBy_join {layout : List Char} {separator : Text} {parts : List Text}
    (between : MarkedBy layout separator) (each : ∀ part ∈ parts, MarkedBy layout part) :
    MarkedBy layout (join separator parts) := by
  intro c member
  cases mem_join member with
  | inl inSeparator => exact between c inSeparator
  | inr inside =>
      obtain ⟨part, listed, inPart⟩ := inside
      exact each part listed c inPart

theorem join_ne_nil {separator : Text} {part : Text} {rest : List Text} (there : part ≠ []) :
    join separator (part :: rest) ≠ [] := by
  cases rest <;> simp [join, there]

theorem solidEnds_join {separator : Text} {parts : List Text}
    (each : ∀ part ∈ parts, part ≠ [] ∧ SolidEnds part) : SolidEnds (join separator parts) := by
  induction parts with
  | nil => exact ⟨by simp [join], by simp [join]⟩
  | cons part rest ih =>
      obtain ⟨there, solid⟩ := each part (by simp)
      cases rest with
      | nil => exact solid
      | cons next more =>
          have nextThere := (each next (by simp)).1
          have restEach := fun other listed => each other (List.mem_cons_of_mem part listed)
          exact solid.around separator (ih restEach) there (join_ne_nil nextThere)

end TreeGrammar.Text
