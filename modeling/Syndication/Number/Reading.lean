import Syndication.Number.Double
/-!
# Reading numbers of double precision

A number is digits with at most one point among or around them, and possibly an exponent; or the
name of what is infinite or no number, in letters of any case. A sign may stand in front. The
number of double precision is the nearest one.
-/

namespace Syndication.Double

/-- What a number without a sign is written with. -/
structure Parts where
  /-- The digits before the point. -/
  whole : List Char
  /-- The digits after the point. -/
  places : List Char
  exponent : Int

/-- The exponent that a text ends with, zero without one. -/
def exponent? : List Char → Option Int
  | [] => some 0
  | c :: rest => if c = 'e' ∨ c = 'E' then Decimal.toInt? rest else none

/-- Digits, a point and an exponent. -/
def parts? (text : List Char) : Option Parts :=
  let whole := text.takeWhile Char.isDigit
  let rest := text.dropWhile Char.isDigit
  let places := match rest with
    | '.' :: rest => rest.takeWhile Char.isDigit
    | _ => []
  let rest := match rest with
    | '.' :: rest => rest.dropWhile Char.isDigit
    | rest => rest
  if (whole ++ places).isEmpty then none
  else (exponent? rest).map fun exponent => ⟨whole, places, exponent⟩

/-- The number that digits, a point and an exponent stand for. -/
def digits? (negative : Bool) (text : List Char) : Option Double :=
  (parts? text).map fun parts =>
    ofDecimal negative (Decimal.toNat (parts.whole ++ parts.places))
      (parts.exponent - parts.places.length)

/-- The number that a text without a sign stands for. -/
def unsigned? (negative : Bool) (text : List Char) : Option Double :=
  let name := String.ofList (text.map Char.toLower)
  if name = "inf" ∨ name = "infinity" then some (.infinite negative)
  else if name = "nan" then some .nan
  else digits? negative text

/-- The number that a text stands for. -/
def parse? : List Char → Option Double
  | '-' :: rest => unsigned? true rest
  | '+' :: rest => unsigned? false rest
  | text => unsigned? false text

end Syndication.Double
