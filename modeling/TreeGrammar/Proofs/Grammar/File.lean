/-
# TreeGrammar.Proofs.Grammar.File -- the line of octets that are no text

A file that is no text is refused at the first octets that are no character.  The text in front of
them tells their line: it is the line of whatever stands behind that text, as the lines of a text
are numbered (`Text.exists_lines_around`).  The refusal counts the line feeds of the text alone
(`loadFile_of_unreadable`), so it gives too small a number where the text has other breaks, and the
right one where it has none (`loadFile_number_iff`).
-/
import TreeGrammar.Proofs.Text.Line
import TreeGrammar.Proofs.Text.Utf8
import TreeGrammar.Grammar.Loader

set_option autoImplicit false

namespace TreeGrammar.Grammar

open Text (LongestText PlainBreaks numberBehind)

section Unreadable

variable {octets : Text.Octets} {text : Text}

/-- The octets in front of the failure are those of the text. -/
theorem take_of_longest (longest : LongestText octets text) :
    octets.take (Text.encode text).length = Text.encode text :=
  (List.prefix_iff_eq_take.1 longest.begins).symm

/-- **How a file that is no text is refused**: with the number of line feeds in front of the place,
and one. -/
theorem loadFile_of_unreadable (unreadable : ∀ text, Text.encode text ≠ octets) :
    ∃ text fault line, LongestText octets text ∧
      loadFile octets =
        .error (.malformedLine (.notText fault) line (some (text.count '\n' + 1 : Nat))) := by
  obtain ⟨text, fault, longest, failed⟩ := Text.decode_of_unreadable unreadable
  refine ⟨text, fault, lineAround octets (Text.encode text).length, longest, ?_⟩
  have refused : decodeFile octets =
      .error (.malformedLine (.notText fault) (lineAround octets (Text.encode text).length)
        (some ((octets.take (Text.encode text).length).count 10 + 1 : Nat))) := by
    unfold decodeFile
    rw [failed]
  rw [loadFile, refused, take_of_longest longest, Text.count_lineFeed]
  rfl

/-- **The number of the line with octets that are no text**: a file with such octets is refused,
and the number in the refusal is that of their line if and only if every line break of the text in
front of them is a line feed, or a carriage return in front of one. -/
theorem loadFile_number_iff (unreadable : ∀ text, Text.encode text ≠ octets) :
    ∃ text fault line number, LongestText octets text ∧
      loadFile octets = .error (.malformedLine (.notText fault) line (some (number : Nat))) ∧
      (number = numberBehind text ↔ PlainBreaks text) := by
  obtain ⟨text, fault, line, longest, refused⟩ := loadFile_of_unreadable unreadable
  refine ⟨text, fault, line, text.count '\n' + 1, longest, refused, ?_⟩
  rw [Text.numberBehind_eq, ← Text.strayBreaks_eq_zero_iff]
  omega

end Unreadable

/-- Two lines, the first with a carriage return, and a third one with an octet that is part of no
character. -/
def strayOctet : Text.Octets :=
  [0x23, 0x20, 0x61, 0x0D, 0x0A, 0x23, 0xC3, 0xA9, 0x0A, 0x41, 0x3A, 0xFF, 0x0A]

theorem strayOctet_numbered :
    (∀ text, Text.encode text ≠ strayOctet) ∧ LongestText strayOctet "# a\r\n#é\nA:".toList ∧
      numberBehind "# a\r\n#é\nA:".toList = 3 ∧
      ∃ fault line, loadFile strayOctet =
        .error (.malformedLine (.notText fault) line (some 3)) := by
  have failed : Text.decode strayOctet = .error ⟨11, .start⟩ := rfl
  have unreadable := Text.encode_ne_of_failed failed
  have known : LongestText strayOctet "# a\r\n#é\nA:".toList :=
    Text.longestText_of_failed failed rfl
  have three : numberBehind "# a\r\n#é\nA:".toList = 3 := by decide
  obtain ⟨text, fault, line, number, longest, refused, right⟩ := loadFile_number_iff unreadable
  obtain rfl := longest.unique known
  obtain rfl : number = 3 := (right.2 (by decide)).trans three
  exact ⟨unreadable, known, three, fault, line, refused⟩

/-- A carriage return ends a line, and the octet behind it, which is part of no character, is
reported on that line. -/
theorem returned_octet_miscounted :
    (∀ text, Text.encode text ≠ [0x0D, 0xFF]) ∧ LongestText [0x0D, 0xFF] ['\r'] ∧
      numberBehind ['\r'] = 2 ∧
      loadFile [0x0D, 0xFF] =
        .error (.malformedLine (.notText .start) ['\r', '\uFFFD'] (some 1)) := by
  have failed : Text.decode [0x0D, 0xFF] = .error ⟨1, .start⟩ := rfl
  exact ⟨Text.encode_ne_of_failed failed, Text.longestText_of_failed failed rfl, by decide, rfl⟩

end TreeGrammar.Grammar
