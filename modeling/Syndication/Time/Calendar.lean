/-!
# The proleptic Gregorian calendar

Dates and day numbers. `Date.toDay` counts the days from 1970-01-01 and `Date.ofDay` finds the
date of a day number; the year is estimated from the mean length of a year and corrected by one
either way.
-/

namespace Syndication.Time

/-- A year, a month from 1 on and a day of the month from 1 on. -/
structure Date where
  year : Int
  month : Nat
  day : Nat
  deriving DecidableEq, Repr

/-- Whether a year has 366 days. -/
def isLeap (year : Int) : Bool := year % 4 = 0 && (year % 100 ≠ 0 || year % 400 = 0)

/-- The lengths of the twelve months. -/
def monthLengths (leap : Bool) : List Nat :=
  [31, if leap then 29 else 28, 31, 30, 31, 30, 31, 31, 30, 31, 30, 31]

/-- Month and day exist in the year. -/
def Date.IsValid (d : Date) : Prop :=
  1 ≤ d.month ∧ d.month ≤ 12 ∧ 1 ≤ d.day ∧
    d.day ≤ (monthLengths (isLeap d.year)).getD (d.month - 1) 0

instance (d : Date) : Decidable d.IsValid := by unfold Date.IsValid; infer_instance

/-! ## Counting days -/

/-- The days from 0001-01-01 to the first day of a year. -/
def daysBeforeYear (year : Int) : Int :=
  365 * (year - 1) + (year - 1) / 4 - (year - 1) / 100 + (year - 1) / 400

/-- The days from 0001-01-01 to 1970-01-01. -/
def daysToEpoch : Int := 719162

/-- The days before a month of a year. -/
def daysBeforeMonth (leap : Bool) (month : Nat) : Nat :=
  ((monthLengths leap).take (month - 1)).foldr (· + ·) 0

/-- The number of a date, counted from 1970-01-01. -/
def Date.toDay (d : Date) : Int :=
  daysBeforeYear d.year + daysBeforeMonth (isLeap d.year) d.month + (d.day - 1) - daysToEpoch

/-! ## Finding dates -/

/-- The year of a day counted from 0001-01-01. -/
def yearOf (n : Int) : Int :=
  let guess := n * 400 / 146097 + 1
  if n < daysBeforeYear guess then guess - 1
  else if daysBeforeYear (guess + 1) ≤ n then guess + 1
  else guess

/-- The month and the day, both from 1 on, of a day `n` of the year, counted from 0, when the
months before `month` have been passed. -/
def monthOf : (lengths : List Nat) → (month n : Nat) → Nat × Nat
  | [], month, n => (month, n + 1)
  | length :: lengths, month, n =>
    if n < length then (month, n + 1) else monthOf lengths (month + 1) (n - length)

/-- The date of a day counted from 1970-01-01. -/
def Date.ofDay (day : Int) : Date :=
  let n := day + daysToEpoch
  let year := yearOf n
  let (month, dayOfMonth) := monthOf (monthLengths (isLeap year)) 1 (n - daysBeforeYear year).toNat
  ⟨year, month, dayOfMonth⟩

end Syndication.Time
