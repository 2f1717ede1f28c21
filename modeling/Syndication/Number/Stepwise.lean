import Syndication.Number.Reading
/-!
# Reading numbers in steps

Another reading of the same digits, which need not give the nearest number: it takes as many
digits as 64 bits hold, rounds them, and multiplies or divides the result by a power of ten, which
is rounded itself. Each step gives the nearest number, all of them together may miss it by a bit.
A number that is too great is none.
-/

namespace Syndication.Double

/-! ## Steps -/

/-- The number nearest to a quotient, which may be zero. -/
def rounded (negative : Bool) (quotient : Nat × Nat) : Double :=
  if quotient.1 = 0 then zero negative else nearest negative quotient

/-- The number nearest to the product of two finite numbers. -/
def mul : Double → Double → Double
  | .finite a m e, .finite b n f => rounded (a != b) (scaled 2 (m * n, 1) (e + f))
  | _, _ => .nan

/-- The number nearest to the quotient of two finite numbers, the second of which is not zero. -/
def div : Double → Double → Double
  | .finite a m e, .finite b n f => rounded (a != b) (scaled 2 (m, n) (e - f))
  | _, _ => .nan

/-- Whether a number is zero. -/
def isZero : Double → Bool
  | .finite _ 0 _ => true
  | _ => false

/-- The number nearest to a power of ten. -/
def tenTo (n : Nat) : Double := ofDecimal false 1 n

/-- The greatest power of ten that is not infinite. -/
def maxTens : Nat := 308

/-- A number times a power of ten; smaller powers than the inverse of the greatest are taken in
several steps, until nothing is left. -/
def shift? (x : Double) (tens : Int) : Option Double :=
  if x.isZero then some x
  else if maxTens < tens then none
  else if 0 ≤ tens then
    match x.mul (tenTo tens.toNat) with
    | .infinite _ => none
    | y => some y
  else if -maxTens ≤ tens then some (x.div (tenTo tens.natAbs))
  else shift? (x.div (tenTo maxTens)) (tens + maxTens)
  termination_by tens.natAbs
  decreasing_by simp only [maxTens] at *; omega

/-! ## Digits -/

/-- Takes digits as long as the number they stand for has 64 bits, and gives the others. -/
def takeDigits (significand : Nat) : List Char → Nat × List Char
  | [] => (significand, [])
  | c :: rest =>
    if 10 * significand + Decimal.value c ≤ maxNat64 then
      takeDigits (10 * significand + Decimal.value c) rest
    else (significand, c :: rest)

/-- The number that a text without a sign stands for. Digits before the point that are not taken
count as zeros, those after it not at all. -/
def unsignedStepwise? (negative : Bool) (text : List Char) : Option Double := do
  let parts ← parts? text
  let (significand, zeros) := takeDigits 0 parts.whole
  let (significand, dropped) := takeDigits significand parts.places
  let taken : Int := parts.places.length - dropped.length
  shift? (rounded negative (significand, 1)) (parts.exponent + zeros.length - taken)

/-- The number that a text stands for, read in steps. -/
def stepwise? : List Char → Option Double
  | '-' :: rest => unsignedStepwise? true rest
  | text => unsignedStepwise? false text

end Syndication.Double
