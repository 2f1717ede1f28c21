import Syndication.Time.Instant
/-!
# Local times

A date, a time of day and an offset from universal time, as a text may give them, and the instant
they stand for. Second 60 of any minute is a leap second.
-/

namespace Syndication.Time

/-- A time of day as a text gives it. -/
structure Clock where
  hour : Nat
  minute : Nat
  second : Nat
  nano : Nat

/-- The time exists. -/
def Clock.IsValid (c : Clock) : Prop :=
  c.hour ≤ 23 ∧ c.minute ≤ 59 ∧ c.second ≤ 60 ∧ c.nano < 1000000000

instance (c : Clock) : Decidable c.IsValid := by unfold Clock.IsValid; infer_instance

/-- The second of the day; a leap second belongs to the second before it. -/
def Clock.secondOfDay (c : Clock) : Nat := c.hour * 3600 + c.minute * 60 + min c.second 59

/-- The nanoseconds, a leap second's counted on from those of the second before it. -/
def Clock.nanoOfSecond (c : Clock) : Nat := if c.second = 60 then 1000000000 + c.nano else c.nano

/-- The instant of a local date and time at an offset of so many minutes east. The local date has
to exist just as the date in universal time. -/
def toInstant? (date : Date) (clock : Clock) (offset : Int) : Option Instant :=
  if date.IsValid ∧ clock.IsValid then
    let day := date.toDay
    if Instant.firstDay ≤ day ∧ day ≤ Instant.lastDay then
      let seconds : Int := clock.secondOfDay - 60 * offset
      Instant.of? (day + seconds / 86400) (seconds % 86400).toNat clock.nanoOfSecond
    else none
  else none

/-- The offsets that exist are less than a day, in minutes. -/
def isOffset (offset : Int) : Bool := -1440 < offset && offset < 1440

end Syndication.Time
