import Syndication.Text.Decimal
import Syndication.Time.Instant
/-!
# Instants as text

Both written forms are RFC 3339 in universal time and differ in the fraction. Stores keep
`stamp`, with six digits always: stamps of the years 0 to 9999 are equally long and their order as
text is the order in time. Records show `written`, with as few groups of three digits as are exact.
-/

namespace Syndication.Instant

/-- A year: four digits from 0 to 9999, else with a sign. -/
def yearText (year : Int) : List Char :=
  if 0 ≤ year ∧ year ≤ 9999 then Decimal.padded 4 year.toNat
  else (if year < 0 then '-' else '+') :: Decimal.atLeast 4 year.natAbs

/-- Date and time up to the second. -/
def toSecond (t : Instant) : List Char :=
  let date := t.date
  yearText date.year ++ '-' :: Decimal.padded 2 date.month ++ '-' :: Decimal.padded 2 date.day ++
    'T' :: Decimal.padded 2 t.hour ++ ':' :: Decimal.padded 2 t.minute ++
    ':' :: Decimal.padded 2 t.secondOfMinute

/-- The form that stores keep; what is finer than a microsecond is dropped. -/
def stamp (t : Instant) : String :=
  String.ofList (t.toSecond ++ '.' :: Decimal.padded 6 (t.fraction / 1000) ++ ['Z'])

/-- No, three, six or nine digits of the fraction, whichever is exact first. -/
def fractionText (nano : Nat) : List Char :=
  if nano = 0 then []
  else if nano % 1000000 = 0 then '.' :: Decimal.padded 3 (nano / 1000000)
  else if nano % 1000 = 0 then '.' :: Decimal.padded 6 (nano / 1000)
  else '.' :: Decimal.padded 9 nano

/-- The form that records show. -/
def written (t : Instant) : String :=
  String.ofList (t.toSecond ++ fractionText t.fraction ++ ['Z'])

end Syndication.Instant
