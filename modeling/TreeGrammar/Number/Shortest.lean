/-
# TreeGrammar.Number.Shortest -- the fewest digits that read back

A floating point number is written with the fewest decimal digits from which it is
read back.  For each count of digits the two decimals next to the number are tried;
of two that read back the nearer one is taken.  The digits are written out if the
point stands near them, and with an exponent otherwise.
-/
import TreeGrammar.Number.Binary64
import TreeGrammar.Text.Numeral

set_option autoImplicit false

namespace TreeGrammar.Binary64

/-- Digits times a power of ten. -/
structure Decimal where
  digits : Nat
  exponent : Int

/-- The digits before the point of a positive quotient; negative for zeros behind it. -/
def pointPlace (numerator denominator : Nat) : Int :=
  let (above, below) := scaled 10 numerator denominator 400
  ((Nat.toDigits 10 (above / below)).length : Int) - 400

/-- The decimal with the given exponent that reads back as the number, if one of the two
next to the quotient does. -/
def candidate? (number : Binary64) (numerator denominator : Nat) (exponent : Int) :
    Option Decimal :=
  let (above, below) := scaled 10 numerator denominator (-exponent)
  let low := above / below
  let readsBack (digits : Nat) : Bool := ofDecimal false digits exponent = number
  let nearer := roundHalfEven above below
  let farther := if nearer = low then low + 1 else low
  if readsBack nearer then some ⟨nearer, exponent⟩
  else if readsBack farther then some ⟨farther, exponent⟩
  else none

/-- The decimal of the fewest digits that reads back as a positive quotient. -/
def shortest (mantissa : Nat) (exponent : Int) : Decimal :=
  let (numerator, denominator) := scaled 2 mantissa 1 exponent
  let place := pointPlace numerator denominator
  let found := (List.range 17).findSome? fun (count : Nat) =>
    candidate? (.finite false mantissa exponent) numerator denominator (place - 1 - count)
  found.getD ⟨mantissa, exponent⟩

/-! ## Notation -/

/-- Digits without the zeros at their end; one digit stays. -/
def significant (digits : Text) : Text :=
  match (digits.reverse.dropWhile (· = '0')).reverse with
  | [] => ['0']
  | kept => kept

def zeros (count : Int) : Text :=
  List.replicate count.toNat '0'

/-- Digits with the point behind the first `place` of them. -/
def positional (digits : Text) (place : Int) : Text :=
  if place ≤ 0 then "0." ++ zeros (-place) ++ digits
  else if digits.length ≤ place.toNat then
    digits ++ zeros (place - digits.length) ++ ".0"
  else digits.take place.toNat ++ "." ++ digits.drop place.toNat

/-- An exponent with its sign and at least two digits. -/
def exponentText (exponent : Int) : Text :=
  let numeral := Text.natural exponent.natAbs
  (if exponent < 0 then "e-" else "e+" : Text) ++ zeros (2 - numeral.length) ++ numeral

/-- One digit, the other digits behind a point and the exponent. -/
def scientific (digits : Text) (place : Int) : Text :=
  digits.take 1 ++ (if digits.length = 1 then [] else '.' :: digits.drop 1)
    ++ exponentText (place - 1)

/-- The digits are written out if the point stands up to 16 places behind the first digit
or up to three places in front of it. -/
def Decimal.text (decimal : Decimal) : Text :=
  let written := Text.natural decimal.digits
  let place := (written.length : Int) + decimal.exponent
  let digits := significant written
  if -4 < place ∧ place ≤ 16 then positional digits place else scientific digits place

def signed (negative : Bool) (text : Text) : Text :=
  if negative then '-' :: text else text

/-- The number in decimal notation, with the words for what is not finite. -/
def text (infinity none : Text) : Binary64 → Text
  | .finite negative 0 _ => signed negative "0.0"
  | .finite negative mantissa exponent => signed negative (shortest mantissa exponent).text
  | .infinite negative => signed negative infinity
  | .notANumber => none

end TreeGrammar.Binary64
