/-
# TreeGrammar.Text.Numeral -- decimal and hexadecimal numerals
-/
import TreeGrammar.Text.Basic

set_option autoImplicit false

namespace TreeGrammar.Text

/-- The decimal numeral of a natural number. -/
def natural (n : Nat) : Text :=
  Nat.toDigits 10 n

/-- The decimal numeral of an integer, with a minus sign if it is negative. -/
def integer : Int → Text
  | .ofNat n => natural n
  | .negSucc n => '-' :: natural (n + 1)

/-- The hexadecimal numeral in lower case, filled with zeros up to `width` digits. -/
def hexadecimal (width n : Nat) : Text :=
  let digits := Nat.toDigits 16 n
  List.replicate (width - digits.length) '0' ++ digits

/-- The value of a decimal digit. -/
def digitValue? (c : Char) : Option Nat :=
  if '0' ≤ c ∧ c ≤ '9' then some (c.toNat - '0'.toNat) else none

/-- The value of a hexadecimal digit in either case. -/
def hexValue? (c : Char) : Option Nat :=
  if '0' ≤ c ∧ c ≤ '9' then some (c.toNat - '0'.toNat)
  else if 'a' ≤ c ∧ c ≤ 'f' then some (c.toNat - 'a'.toNat + 10)
  else if 'A' ≤ c ∧ c ≤ 'F' then some (c.toNat - 'A'.toNat + 10)
  else none

/-- The number that decimal digits write, read after the digits of `high`. -/
def valueOf (high : Nat) : Text → Nat
  | [] => high
  | c :: rest => valueOf (high * 10 + (digitValue? c).getD 0) rest

end TreeGrammar.Text
