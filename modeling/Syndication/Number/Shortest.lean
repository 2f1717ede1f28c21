import Syndication.Number.Double
/-!
# Numbers of double precision as text

`Double.toText` writes a number with the fewest digits that are read back as the same number, and
without an exponent. Such digits are found on the coarsest decimal grid that has a point among the
decimals which round to the number.
-/

namespace Syndication.Double

/-- Digits times a power of ten. -/
structure Decimals where
  digits : Nat
  exponent : Int

/-- The decimals that round to a number lie around it; the ends count if the mantissa is even.
Everything is counted in quarters of the last bit. -/
structure Around where
  low : Nat
  value : Nat
  high : Nat
  closed : Bool

/-- The decimals that round to a mantissa. Below a power of two numbers lie closer. -/
def Around.of (mantissa : Nat) (exponent : Int) : Around where
  low := if mantissa = mantissaBound / 2 ∧ minExponent < exponent then 4 * mantissa - 1
    else 4 * mantissa - 2
  value := 4 * mantissa
  high := 4 * mantissa + 2
  closed := mantissa % 2 = 0

/-- Whether a point of a grid rounds to the number; a grid step is `den / num` quarters. -/
def Around.holds (a : Around) (num den point : Nat) : Bool :=
  if a.closed then a.low * num ≤ point * den && point * den ≤ a.high * num
  else a.low * num < point * den && point * den < a.high * num

/-- The point of a grid that rounds to the number, the nearer one of two. -/
def Around.point? (a : Around) (num den : Nat) : Option Nat :=
  let below := a.value * num / den
  let rest := a.value * num % den
  let nearer := if 2 * rest < den then [below, below + 1] else [below + 1, below]
  nearer.find? (a.holds num den)

/-- The coarsest grid, from `10 ^ top` on downward, with a point that rounds to the number. -/
def coarsest (a : Around) (exponent : Int) : (steps : Nat) → (top : Int) → Decimals
  | 0, top => ⟨0, top⟩
  | steps + 1, top =>
    let (num, den) := scaled 10 (scaled 2 (1, 1) (exponent - 2)) (-top)
    match a.point? num den with
    | some digits => ⟨digits, top⟩
    | none => coarsest a exponent steps (top - 1)

/-- The fewest digits that are read back as a mantissa times a power of two. -/
def shortest (mantissa : Nat) (exponent : Int) : Decimals :=
  coarsest (.of mantissa exponent) exponent 660 310

/-- Decimals without an exponent. -/
def Decimals.positional (d : Decimals) : List Char :=
  let digits := Decimal.ofNat d.digits
  match d.exponent with
  | .ofNat zeros => digits ++ List.replicate zeros '0'
  | .negSucc n =>
    let places := n + 1
    let padded := List.replicate (places + 1 - digits.length) '0' ++ digits
    padded.take (padded.length - places) ++ '.' :: padded.drop (padded.length - places)

/-- A sign, if it is negative. -/
def signed (negative : Bool) (text : List Char) : List Char :=
  if negative then '-' :: text else text

/-- A number as text. -/
def toText : Double → List Char
  | .finite negative 0 _ => signed negative ['0']
  | .finite negative mantissa exponent => signed negative (shortest mantissa exponent).positional
  | .infinite negative => signed negative ['i', 'n', 'f']
  | .nan => ['N', 'a', 'N']

end Syndication.Double
