/-
# TreeGrammar.Number.Binary64 -- binary floating point numbers of 64 bits

A finite number is a mantissa below 2^53 times a power of two, the least of which
is 2^-1074.  `nearest` rounds a quotient to the nearest number, a half to the one
with the even mantissa, and `ofDecimal` does so for a decimal numeral.
-/

set_option autoImplicit false

namespace TreeGrammar

inductive Binary64 where
  | finite (negative : Bool) (mantissa : Nat) (exponent : Int)
  | infinite (negative : Bool)
  | notANumber
  deriving DecidableEq

namespace Binary64

/-- The integer that a number is. -/
def integer? : Binary64 → Option Int
  | .finite negative mantissa exponent =>
      let divisor := Nat.pow 2 (-exponent).toNat
      if mantissa % divisor = 0 then
        let value := mantissa / divisor * Nat.pow 2 exponent.toNat
        some (if negative then -value else value)
      else none
  | _ => none

/-- The quotient rounded to an integer, a half to the even one. -/
def roundHalfEven (numerator denominator : Nat) : Nat :=
  let whole := numerator / denominator
  let rest := 2 * (numerator % denominator)
  if rest < denominator then whole
  else if denominator < rest then whole + 1
  else whole + whole % 2

/-- A numerator and a denominator of their quotient times a power of the base. -/
def scaled (base numerator denominator : Nat) : Int → Nat × Nat
  | .ofNat n => (numerator * Nat.pow base n, denominator)
  | .negSucc n => (numerator, denominator * Nat.pow base (n + 1))

/-- The bound of the mantissas. -/
def mantissaLimit : Nat := Nat.pow 2 53

/-- The exponents of the numbers next to zero and of the greatest numbers. -/
def leastExponent : Int := -1074
def greatestExponent : Int := 971

/-- The exponent that gives a positive quotient the longest mantissa it can have. -/
def exponentFor (numerator denominator : Nat) : Int :=
  let low := (Nat.log2 numerator : Int) - (Nat.log2 denominator : Int) - 53
  if low < leastExponent then leastExponent
  else
    let (above, below) := scaled 2 numerator denominator (-low)
    if above / below < mantissaLimit then low else low + 1

/-- The number nearest to a quotient. -/
def nearest (negative : Bool) (numerator denominator : Nat) : Binary64 :=
  if numerator = 0 then .finite negative 0 leastExponent
  else
    let exponent := exponentFor numerator denominator
    let (above, below) := scaled 2 numerator denominator (-exponent)
    let mantissa := roundHalfEven above below
    let number : Nat × Int :=
      if mantissa < mantissaLimit then (mantissa, exponent)
      else (mantissa / 2, exponent + 1)
    if greatestExponent < number.2 then .infinite negative
    else .finite negative number.1 number.2

/-- The number nearest to digits times a power of ten.  Powers beyond the least and the
greatest number are not computed. -/
def ofDecimal (negative : Bool) (digits : Nat) (exponent : Int) : Binary64 :=
  let size := ((Nat.toDigits 10 digits).length : Int) + exponent
  if digits = 0 ∨ size < -330 then .finite negative 0 leastExponent
  else if 310 < size then .infinite negative
  else
    let (numerator, denominator) := scaled 10 digits 1 exponent
    nearest negative numerator denominator

end Binary64

end TreeGrammar
