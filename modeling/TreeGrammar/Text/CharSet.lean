/-
# TreeGrammar.Text.CharSet -- sets of characters given by ranges of code points

A property of characters that a standard fixes by a list of ranges is kept as
that list; membership is a search through it.
-/
import TreeGrammar.Text.Basic

set_option autoImplicit false

namespace TreeGrammar.Text

/-- A set of characters: inclusive ranges of code points. -/
structure CharSet where
  ranges : List (Nat × Nat)

namespace CharSet

def contains (set : CharSet) (c : Char) : Bool :=
  set.ranges.any fun range => range.1 ≤ c.toNat && c.toNat ≤ range.2

theorem contains_eq_true_iff (set : CharSet) (c : Char) :
    set.contains c = true ↔ ∃ range ∈ set.ranges, range.1 ≤ c.toNat ∧ c.toNat ≤ range.2 := by
  simp [contains]

end CharSet

end TreeGrammar.Text
