/-
# TreeGrammar.Text.Wide -- texts with code points that are no characters

What a caller hands over as a text is made of code points, and a code point may be a
surrogate: half of a character beyond the first 65536, and no character by itself.
UTF-8 has no octets for it.  Grammars and trees of files have texts only; a text that
is handed over to be written, and the name of its file, may have surrogates in it.

In a name the surrogates from U+DC80 on stand for single octets that belong to no
character, so a name with one of them can be given to a file.  Here the names of files
are texts, and `Stray` has only those surrogates that no name can have.
-/
import TreeGrammar.Text.Basic

set_option autoImplicit false

namespace TreeGrammar.Text

/-- A code point that is no character. -/
structure Surrogate where
  number : Nat
  within : 0xD800 ≤ number ∧ number < 0xE000
  deriving DecidableEq

/-- In a name, the surrogate stands for an octet. -/
def Surrogate.isOctet (surrogate : Surrogate) : Bool :=
  0xDC80 ≤ surrogate.number && surrogate.number < 0xDD00

/-- A surrogate that stands for nothing, not even in a name. -/
abbrev Stray := { surrogate : Surrogate // surrogate.isOctet = false }

/-- A code point. -/
inductive CodePoint (σ : Type) where
  | char (c : Char)
  | lone (surrogate : σ)
  deriving DecidableEq

/-- A text that may have surrogates in it. -/
abbrev Wide (σ : Type) := List (CodePoint σ)

/-- The text, unless there are surrogates in it. -/
def Wide.text? {σ : Type} : Wide σ → Option Text
  | [] => some []
  | .char c :: rest => (Wide.text? rest).map (c :: ·)
  | .lone _ :: _ => none

/-- A text as one that may have surrogates in it. -/
def wide {σ : Type} (text : Text) : Wide σ :=
  text.map .char

theorem Wide.eq_of_text? {σ : Type} {given : Wide σ} {text : Text} (same : given.text? = some text) :
    given = text.wide := by
  induction given generalizing text with
  | nil => simp_all [Wide.text?, wide]
  | cons point rest ih =>
      cases point with
      | char c =>
          obtain ⟨others, read, rfl⟩ := Option.map_eq_some_iff.1 same
          rw [ih read]
          rfl
      | lone surrogate => cases same

/-- What can be handed over as a text. -/
class Wording (α : Type) where
  /-- The text, unless it is none. -/
  text? : α → Option Text

instance : Wording Text := ⟨some⟩

instance {σ : Type} : Wording (Wide σ) := ⟨Wide.text?⟩

end TreeGrammar.Text
