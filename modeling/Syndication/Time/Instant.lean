import Syndication.Time.Calendar
/-!
# Instants

A point of universal time: a day, a second of that day and nanoseconds. In a leap second, which
may follow any full minute, the nanoseconds run on from `10 ^ 9` in the minute's last second; so
the order of instants is the order of the three fields. The days that exist are those of the years
-262143 to 262142.
-/

namespace Syndication

open Time

/-- The first day there is, -262143-01-01. -/
def Instant.firstDay : Int := -96465292

/-- The last day there is, 262142-12-31. -/
def Instant.lastDay : Int := 95026236

/-- A point of universal time. -/
structure Instant where
  /-- Days since 1970-01-01. -/
  day : Int
  /-- Seconds since midnight. -/
  second : Nat
  /-- Nanoseconds of the second; from `10 ^ 9` on, of the leap second after it. -/
  nano : Nat
  firstDay_le : Instant.firstDay ≤ day
  le_lastDay : day ≤ Instant.lastDay
  second_lt : second < 86400
  nano_lt : nano < 1000000000 ∨ nano < 2000000000 ∧ second % 60 = 59
  deriving DecidableEq

namespace Instant

/-- The instant with the given fields, if there is one. -/
def of? (day : Int) (second nano : Nat) : Option Instant :=
  if h : (firstDay ≤ day ∧ day ≤ lastDay) ∧ second < 86400 ∧
      (nano < 1000000000 ∨ nano < 2000000000 ∧ second % 60 = 59) then
    some ⟨day, second, nano, h.1.1, h.1.2, h.2.1, h.2.2⟩
  else none

/-- The instant so many seconds and nanoseconds after 1970-01-01T00:00:00Z. -/
def ofUnix? (seconds : Int) (nano : Nat) : Option Instant :=
  of? (seconds / 86400) (seconds % 86400).toNat nano

/-- 1970-01-01T00:00:00Z. -/
def epoch : Instant := ⟨0, 0, 0, by decide, by decide, by decide, by decide⟩

instance : Inhabited Instant := ⟨epoch⟩

/-! ## Order -/

/-- One instant is earlier than another. -/
protected def Lt (a b : Instant) : Prop :=
  a.day < b.day ∨ a.day = b.day ∧
    (a.second < b.second ∨ a.second = b.second ∧ a.nano < b.nano)

instance : LT Instant := ⟨Instant.Lt⟩

instance : LE Instant := ⟨fun a b => ¬ b < a⟩

instance (a b : Instant) : Decidable (a < b) :=
  inferInstanceAs (Decidable (_ ∨ _ ∧ (_ ∨ _ ∧ _)))

instance (a b : Instant) : Decidable (a ≤ b) := inferInstanceAs (Decidable (¬ _))

/-! ## Fields -/

/-- The date. -/
def date (t : Instant) : Date := Date.ofDay t.day

/-- The hour of the day. -/
def hour (t : Instant) : Nat := t.second / 3600

/-- The minute of the hour. -/
def minute (t : Instant) : Nat := t.second / 60 % 60

/-- The second of the minute, 60 in a leap second. -/
def secondOfMinute (t : Instant) : Nat := t.second % 60 + t.nano / 1000000000

/-- The nanoseconds of the second or the leap second. -/
def fraction (t : Instant) : Nat := t.nano % 1000000000

/-! ## Clocks -/

/-- The instant without what is finer than a microsecond, the precision of a store. -/
def truncate (t : Instant) : Instant where
  day := t.day
  second := t.second
  nano := t.nano - t.nano % 1000
  firstDay_le := t.firstDay_le
  le_lastDay := t.le_lastDay
  second_lt := t.second_lt
  nano_lt := by have := t.nano_lt; omega

/-- The start of the next second plus some nanoseconds, if there is such an instant. -/
def nextSecond? (t : Instant) (nano : Nat) : Option Instant :=
  if t.second + 1 < 86400 then of? t.day (t.second + 1) nano else of? (t.day + 1) 0 nano

/-- One microsecond later. A leap second is left at its end. -/
def tick? (t : Instant) : Option Instant :=
  if t.nano < 1000000000 then
    if t.nano + 1000 < 1000000000 then of? t.day t.second (t.nano + 1000)
    else t.nextSecond? (t.nano + 1000 - 1000000000)
  else if t.nano + 1000 < 2000000000 then of? t.day t.second (t.nano + 1000)
  else t.nextSecond? (t.nano + 1000 - 2000000000)

/-- The clock value that follows `previous` when the time is `now`: `now` if that is later, else
one microsecond past `previous`. There is none after the last instant. -/
def advance? (previous now : Instant) : Option Instant :=
  if previous < now then some now else previous.tick?

end Instant

end Syndication
