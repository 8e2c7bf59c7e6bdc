/-
# TreeGrammar.Proofs.Text.Numeral -- hexadecimal numerals are read back

A numeral filled up to a width has that many digits, if the number fits, and its digits have
the number for their value.
-/
import Mathlib.Algebra.Group.Nat.Defs
import TreeGrammar.Text.Numeral

set_option autoImplicit false

namespace TreeGrammar.Text

/-- The number that hexadecimal digits write, read after the digits of `high`. -/
def hexValueOf (high : Nat) : Text → Option Nat
  | [] => some high
  | c :: rest => (hexValue? c).bind fun digit => hexValueOf (high * 16 + digit) rest

theorem hexValueOf_append (high : Nat) (first second : Text) :
    hexValueOf high (first ++ second) =
      (hexValueOf high first).bind fun value => hexValueOf value second := by
  induction first generalizing high with
  | nil => rfl
  | cons c rest ih =>
      rw [List.cons_append, hexValueOf, hexValueOf, Option.bind_assoc]
      exact congrArg _ (funext fun digit => ih _)

theorem hexValue?_digitChar {digit : Nat} (small : digit < 16) :
    hexValue? (Nat.digitChar digit) = some digit := by
  have all : ∀ digit : Fin 16, hexValue? (Nat.digitChar digit) = some digit.val := by decide
  exact all ⟨digit, small⟩

theorem hexValueOf_toDigits (n : Nat) : hexValueOf 0 (Nat.toDigits 16 n) = some n := by
  induction n using Nat.strongRecOn with
  | ind n ih =>
      rw [Nat.toDigits_eq_if (by omega)]
      split
      · next small => simp [hexValueOf, hexValue?_digitChar small]
      · next great =>
        rw [hexValueOf_append, ih (n / 16) (by omega)]
        simp [hexValueOf, hexValue?_digitChar (Nat.mod_lt n (by omega : 16 > 0))]
        omega

theorem hexValueOf_zeros (count : Nat) (digits : Text) :
    hexValueOf 0 (List.replicate count '0' ++ digits) = hexValueOf 0 digits := by
  induction count with
  | zero => rfl
  | succ count ih =>
      rw [List.replicate_succ, List.cons_append, hexValueOf]
      exact ih

theorem hexValueOf_hexadecimal (width n : Nat) :
    hexValueOf 0 (hexadecimal width n) = some n := by
  rw [hexadecimal, hexValueOf_zeros, hexValueOf_toDigits]

theorem length_hexadecimal {width n : Nat} (fits : n < 16 ^ width) (some : 0 < width) :
    (hexadecimal width n).length = width := by
  have short := (Nat.length_toDigits_le_iff (by omega) some).2 fits
  rw [hexadecimal, List.length_append, List.length_replicate]
  omega

end TreeGrammar.Text
