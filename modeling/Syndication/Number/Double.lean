import Syndication.Text.Decimal
/-!
# Numbers of double precision

A number of double precision is a mantissa of at most 53 bits times a power of two that is at
least `2 ^ -1074`, with a sign; or it is infinite, or no number at all. `ofDecimal` rounds a
decimal to the nearest one and `toNat64` rounds one to a natural number of 64 bits.
-/

namespace Syndication

/-- A number of double precision. -/
inductive Double
  /-- The mantissa times two to the exponent. -/
  | finite (negative : Bool) (mantissa : Nat) (exponent : Int)
  | infinite (negative : Bool)
  | nan
  deriving DecidableEq

namespace Double

/-! ## Rounding -/

/-- The natural number nearest to a quotient, the even one of two. -/
def roundToEven (num den : Nat) : Nat :=
  let floor := num / den
  let rest := 2 * (num % den)
  if den < rest ∨ (den = rest ∧ floor % 2 = 1) then floor + 1 else floor

/-- A quotient times a power of a base. -/
def scaled (base : Nat) (quotient : Nat × Nat) : Int → Nat × Nat
  | .ofNat n => (quotient.1 * Nat.pow base n, quotient.2)
  | .negSucc n => (quotient.1, quotient.2 * Nat.pow base (n + 1))

/-- The least exponent. -/
def minExponent : Int := -1074

/-- The greatest exponent. -/
def maxExponent : Int := 971

/-- The bound of mantissas. -/
def mantissaBound : Nat := Nat.pow 2 53

/-- The exponent at which a quotient has 53 bits, or the least one. -/
def exponentOf (quotient : Nat × Nat) : Int :=
  let low := (Nat.log2 quotient.1 : Int) - Nat.log2 quotient.2 - 53
  let (num, den) := scaled 2 quotient (-low)
  max minExponent (if num / den < mantissaBound then low else low + 1)

/-- The number of double precision nearest to a quotient. -/
def nearest (negative : Bool) (quotient : Nat × Nat) : Double :=
  let exponent := exponentOf quotient
  let (num, den) := scaled 2 quotient (-exponent)
  let mantissa := roundToEven num den
  let (mantissa, exponent) :=
    if mantissa = mantissaBound then (mantissaBound / 2, exponent + 1) else (mantissa, exponent)
  if maxExponent < exponent then .infinite negative else .finite negative mantissa exponent

/-- Zero. -/
def zero (negative : Bool) : Double := .finite negative 0 minExponent

/-- The number of double precision nearest to digits times a power of ten. Far beyond the greatest
and below the least number, the power itself does not matter. -/
def ofDecimal (negative : Bool) (digits : Nat) (exponent : Int) : Double :=
  let magnitude := ((Decimal.ofNat digits).length : Int) + exponent
  if digits = 0 ∨ magnitude < -400 then zero negative
  else if 400 < magnitude then .infinite negative
  else nearest negative (scaled 10 (digits, 1) exponent)

/-! ## Rounding to natural numbers -/

/-- The greatest natural number of 64 bits. -/
def maxNat64 : Nat := 18446744073709551615

/-- The nearest natural number, the greater one of two. -/
def roundUp (mantissa : Nat) (exponent : Int) : Nat :=
  let (num, den) := scaled 2 (mantissa, 1) exponent
  (2 * num + den) / (2 * den)

/-- The nearest natural number of 64 bits. -/
def toNat64 : Double → Nat
  | .finite false mantissa exponent => min (roundUp mantissa exponent) maxNat64
  | .infinite false => maxNat64
  | _ => 0

end Double

end Syndication
