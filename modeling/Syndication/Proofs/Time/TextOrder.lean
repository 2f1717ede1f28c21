import Syndication.Proofs.Time.Stamp
/-!
# Stamps in the order of texts

Stores compare stamps as texts. Stamps of the years 0 to 9999 are of one width, field by field, so
that their order as texts is the order of the instants at the precision of a store
(`Instant.stamp_lt_stamp`, `Stamp.Holds.lt_iff`).
-/

namespace Syndication

open Time Decimal

/-! ## Texts of one width -/

/-- Texts that begin with texts of one width are in order by these, and then by the rest. -/
theorem append_lt_append {a b c d : List Char} (h : a.length = c.length) :
    a ++ b < c ++ d ↔ a < c ∨ a = c ∧ b < d := by
  induction a generalizing c with
  | nil =>
    obtain rfl : c = [] := List.length_eq_zero_iff.1 h.symm
    simp
  | cons x a ih =>
    cases c with
    | nil => cases h
    | cons y c =>
      have hac : a.length = c.length := by simpa using h
      rw [List.cons_append, List.cons_append, List.cons_lt_cons_iff, List.cons_lt_cons_iff, ih hac,
        List.cons.injEq]
      tauto

theorem cons_lt_cons_self {c : Char} {a b : List Char} : c :: a < c :: b ↔ a < b := by
  rw [List.cons_lt_cons_iff]
  simp

namespace Decimal

theorem digit_lt_digit {m n : Nat} (hm : m < 10) (hn : n < 10) : digit m < digit n ↔ m < n := by
  have all : ∀ m < 10, ∀ n < 10, (digit m < digit n ↔ m < n) := by decide
  exact all m hm n hn

/-- **Digits of one width are in the order of the numbers.** -/
theorem padded_lt_padded {width m n : Nat} (hm : m < Nat.pow 10 width)
    (hn : n < Nat.pow 10 width) : padded width m < padded width n ↔ m < n := by
  induction width generalizing m n with
  | zero =>
    obtain rfl : m = 0 := by simpa using hm
    obtain rfl : n = 0 := by simpa using hn
    simp
  | succ width ih =>
    change m < Nat.pow 10 width * 10 at hm
    change n < Nat.pow 10 width * 10 at hn
    have hmdiv : m / 10 < Nat.pow 10 width := by omega
    have hndiv : n / 10 < Nat.pow 10 width := by omega
    have hdigits : padded width (m / 10) = padded width (n / 10) ↔ m / 10 = n / 10 :=
      ⟨padded_injective width hmdiv hndiv, fun h => h ▸ rfl⟩
    have hlast : [digit (m % 10)] < [digit (n % 10)] ↔ m % 10 < n % 10 := by
      rw [List.cons_lt_cons_iff, digit_lt_digit (by omega) (by omega)]
      simp
    rw [padded, padded, append_lt_append (by simp), ih hmdiv hndiv, hdigits, hlast]
    omega

/-- Digits of one width with more text after them. -/
theorem padded_append_lt (width : Nat) {m n : Nat} (hm : m < Nat.pow 10 width)
    (hn : n < Nat.pow 10 width) {a b : List Char} :
    padded width m ++ a < padded width n ++ b ↔ m < n ∨ m = n ∧ a < b := by
  rw [append_lt_append (by simp), padded_lt_padded hm hn]
  exact or_congr_right (and_congr_left fun _ =>
    ⟨padded_injective width hm hn, fun h => h ▸ rfl⟩)

end Decimal

/-! ## Dates in order -/

namespace Time

theorem daysBeforeYear_mono {a b : Int} (h : a ≤ b) : daysBeforeYear a ≤ daysBeforeYear b := by
  unfold daysBeforeYear
  omega

/-- Dates are in order by year, then by month, then by day. -/
theorem ofDay_lt_ofDay {m n : Int} (h : m < n) :
    (Date.ofDay m).year < (Date.ofDay n).year ∨ (Date.ofDay m).year = (Date.ofDay n).year ∧
      ((Date.ofDay m).month < (Date.ofDay n).month ∨
        (Date.ofDay m).month = (Date.ofDay n).month ∧ (Date.ofDay m).day < (Date.ofDay n).day) := by
  obtain ⟨i, hi, hyear, hmonth, hpos, hle, hsum⟩ := ofDay_spec m
  obtain ⟨j, hj, hyear', hmonth', hpos', hle', hsum'⟩ := ofDay_spec n
  have hm := daysBeforeYear_yearOf (m + daysToEpoch)
  have hn := daysBeforeYear_yearOf (n + daysToEpoch)
  rw [← hyear] at hm
  rw [← hyear'] at hn
  rcases lt_trichotomy (Date.ofDay m).year (Date.ofDay n).year with hlt | heq | hgt
  · exact .inl hlt
  · refine .inr ⟨heq, ?_⟩
    rw [heq] at hle hsum hm
    generalize isLeap (Date.ofDay n).year = leap at *
    have before : ∀ leap, ∀ j < 12, ∀ i < 12, j < i →
        ((monthLengths leap).take j).sum + (monthLengths leap).getD j 0 ≤
          ((monthLengths leap).take i).sum := by decide
    rcases lt_trichotomy i j with hij | rfl | hij
    · exact .inl (by omega)
    · exact .inr ⟨by omega, by omega⟩
    · have := before leap j hj i hi hij
      omega
  · have := daysBeforeYear_mono (show (Date.ofDay n).year + 1 ≤ (Date.ofDay m).year by omega)
    omega

/-- The order of dates is the order of days. -/
theorem ofDay_lt_iff {m n : Int} :
    (Date.ofDay m).year < (Date.ofDay n).year ∨ (Date.ofDay m).year = (Date.ofDay n).year ∧
      ((Date.ofDay m).month < (Date.ofDay n).month ∨ (Date.ofDay m).month = (Date.ofDay n).month ∧
        (Date.ofDay m).day < (Date.ofDay n).day) ↔ m < n := by
  refine ⟨fun h => ?_, ofDay_lt_ofDay⟩
  rcases lt_trichotomy m n with hlt | rfl | hgt
  · exact hlt
  · omega
  · have := ofDay_lt_ofDay hgt
    omega

end Time

/-! ## Stamps in order -/

namespace Instant

/-- Times of a day are in order by hour, minute, second and microsecond, a leap second included. -/
theorem timeOfDay_lt {t u : Instant} :
    t.hour < u.hour ∨ t.hour = u.hour ∧ (t.minute < u.minute ∨ t.minute = u.minute ∧
      (t.secondOfMinute < u.secondOfMinute ∨ t.secondOfMinute = u.secondOfMinute ∧
        t.fraction / 1000 < u.fraction / 1000)) ↔
    t.second < u.second ∨ t.second = u.second ∧ t.truncate.nano < u.truncate.nano := by
  have ht := t.nano_lt
  have hu := u.nano_lt
  simp only [hour, minute, secondOfMinute, fraction, truncate]
  omega

/-- What follows the year of a stamp is in the order of its fields. -/
theorem stampTail_lt {t u : Instant} : t.stampTail < u.stampTail ↔
    t.date.month < u.date.month ∨ t.date.month = u.date.month ∧
      (t.date.day < u.date.day ∨ t.date.day = u.date.day ∧
        (t.second < u.second ∨ t.second = u.second ∧ t.truncate.nano < u.truncate.nano)) := by
  have hhour (v : Instant) : v.hour < Nat.pow 10 2 := Nat.lt_of_le_of_lt v.hour_le (by decide)
  have hminute (v : Instant) : v.minute < Nat.pow 10 2 :=
    Nat.lt_of_le_of_lt v.minute_le (by decide)
  have hsecond (v : Instant) : v.secondOfMinute < Nat.pow 10 2 :=
    Nat.lt_of_le_of_lt v.secondOfMinute_le (by decide)
  simp only [stampTail, cons_lt_cons_self, padded_append_lt 2 t.month_lt u.month_lt,
    padded_append_lt 2 t.day_lt u.day_lt, padded_append_lt 2 (hhour t) (hhour u),
    padded_append_lt 2 (hminute t) (hminute u), padded_append_lt 2 (hsecond t) (hsecond u),
    padded_append_lt 6 t.fraction_div_lt u.fraction_div_lt, lt_irrefl, and_false, or_false,
    ← timeOfDay_lt]

/-- **The order of stamps as texts is the order in time**, in the years 0 to 9999 and at the
precision of a store. -/
theorem stamp_lt_stamp {t u : Instant} (ht : t.InYears) (hu : u.InYears) :
    t.stamp < u.stamp ↔ t.truncate < u.truncate := by
  have hyear (v : Instant) (hv : v.InYears) : v.date.year.toNat < Nat.pow 10 4 := by
    change v.date.year.toNat < 10000
    have := hv.2
    omega
  have hdays (v w : Instant) : v.date.year < w.date.year ∨ v.date.year = w.date.year ∧
      (v.date.month < w.date.month ∨ v.date.month = w.date.month ∧ v.date.day < w.date.day) ↔
      v.day < w.day := ofDay_lt_iff
  have hday : t.day = u.day → t.date = u.date := congrArg Date.ofDay
  have htruncate : t.truncate < u.truncate ↔ t.day < u.day ∨ t.day = u.day ∧
      (t.second < u.second ∨ t.second = u.second ∧ t.truncate.nano < u.truncate.nano) := Iff.rfl
  rw [htruncate, stamp_eq, stamp_eq, yearText_of_mem ht, yearText_of_mem hu, String.lt_iff,
    String.toList_ofList, String.toList_ofList, padded_append_lt 4 (hyear t ht) (hyear u hu),
    stampTail_lt]
  have hbefore := hdays t u
  have hafter := hdays u t
  have ht := ht.1
  have hu := hu.1
  constructor
  · omega
  · rintro (hlt | ⟨heq, hlt⟩)
    · omega
    · rw [hday heq]
      exact .inr ⟨rfl, .inr ⟨rfl, .inr ⟨rfl, hlt⟩⟩⟩

end Instant

/-- Columns of the years 0 to 9999 are in the order of what they hold. -/
theorem Stamp.Holds.lt_iff {a b : String} {t u : Instant} (ha : Holds a t) (hb : Holds b u)
    (ht : t.InYears) (hu : u.InYears) : a < b ↔ t < u := by
  rw [← ha.2, ← hb.2, Instant.stamp_lt_stamp ht hu, Instant.truncate_eq_self ha.1,
    Instant.truncate_eq_self hb.1]

end Syndication
