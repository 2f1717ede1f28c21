import Mathlib
import Syndication.Time.Calendar
/-!
# Days and dates

Every day has a date that exists (`isValid_ofDay`), and the date has the number of the day
(`toDay_ofDay`); so different days have different dates.
-/

namespace Syndication.Time

/-! ## Years -/

/-- A year has 365 or 366 days. -/
theorem daysBeforeYear_succ (year : Int) :
    daysBeforeYear (year + 1) = daysBeforeYear year + if isLeap year then 366 else 365 := by
  unfold daysBeforeYear isLeap
  simp only [Bool.and_eq_true, Bool.or_eq_true, decide_eq_true_eq]
  split <;> omega

/-- The estimate of the year is at most one too high or too low. -/
theorem daysBeforeYear_guess (n : Int) :
    daysBeforeYear (n * 400 / 146097) ≤ n ∧ n < daysBeforeYear (n * 400 / 146097 + 3) := by
  unfold daysBeforeYear
  omega

theorem daysBeforeYear_yearOf (n : Int) :
    daysBeforeYear (yearOf n) ≤ n ∧ n < daysBeforeYear (yearOf n + 1) := by
  have guess := daysBeforeYear_guess n
  unfold yearOf
  simp only
  split
  · next h =>
    rw [Int.add_sub_cancel]
    exact ⟨guess.1, h⟩
  · split
    · next h => exact ⟨h, by rw [Int.add_assoc, Int.add_assoc]; exact guess.2⟩
    · next h => exact ⟨by omega, by omega⟩

theorem sum_monthLengths (leap : Bool) : (monthLengths leap).sum = if leap then 366 else 365 := by
  cases leap <;> rfl

/-- The day of the year is one of its 365 or 366 days. -/
theorem sub_daysBeforeYear_lt (n : Int) :
    (n - daysBeforeYear (yearOf n)).toNat < (monthLengths (isLeap (yearOf n))).sum := by
  have h := daysBeforeYear_yearOf n
  rw [daysBeforeYear_succ] at h
  rw [sum_monthLengths]
  generalize isLeap (yearOf n) = leap at h ⊢
  cases leap with
  | false =>
    simp only [Bool.false_eq_true, if_false] at h ⊢
    omega
  | true =>
    simp only [if_true] at h ⊢
    omega

/-! ## Months -/

/-- The month found after the months before `month` have been passed, with the days of the months
between, and the day in it. -/
theorem monthOf_spec {lengths : List Nat} (month : Nat) {n : Nat} (h : n < lengths.sum) :
    ∃ i < lengths.length, (monthOf lengths month n).1 = month + i ∧
      1 ≤ (monthOf lengths month n).2 ∧ (monthOf lengths month n).2 ≤ lengths.getD i 0 ∧
      (lengths.take i).sum + (monthOf lengths month n).2 = n + 1 := by
  induction lengths generalizing month n with
  | nil => simp at h
  | cons length lengths ih =>
    unfold monthOf
    split
    · next hlt => exact ⟨0, by simp, by simp, by simp, hlt, by simp⟩
    · next hge =>
      rw [List.sum_cons] at h
      have hrest : n - length < lengths.sum := by omega
      obtain ⟨i, hi, hmonth, hpos, hle, hsum⟩ := ih (month + 1) hrest
      refine ⟨i + 1, by simpa using hi, by omega, hpos, by simpa using hle, ?_⟩
      rw [List.take_succ_cons, List.sum_cons]
      omega

/-- The fields of the date of a day. -/
theorem ofDay_spec (day : Int) :
    ∃ i < 12, (Date.ofDay day).year = yearOf (day + daysToEpoch) ∧ (Date.ofDay day).month = i + 1 ∧
      1 ≤ (Date.ofDay day).day ∧
      (Date.ofDay day).day ≤ (monthLengths (isLeap (Date.ofDay day).year)).getD i 0 ∧
      ((monthLengths (isLeap (Date.ofDay day).year)).take i).sum + (Date.ofDay day).day =
        (day + daysToEpoch - daysBeforeYear (Date.ofDay day).year).toNat + 1 := by
  obtain ⟨i, hi, hmonth, hpos, hle, hsum⟩ :=
    monthOf_spec 1 (sub_daysBeforeYear_lt (day + daysToEpoch))
  exact ⟨i, hi, rfl, by rw [Nat.add_comm]; exact hmonth, hpos, hle, hsum⟩

/-! ## Dates -/

/-- **The date of a day exists.** -/
theorem isValid_ofDay (day : Int) : (Date.ofDay day).IsValid := by
  obtain ⟨i, hi, -, hmonth, hpos, hle, -⟩ := ofDay_spec day
  refine ⟨by omega, by omega, hpos, ?_⟩
  rw [hmonth, Nat.add_sub_cancel]
  exact hle

/-- **The date of a day has its number.** -/
theorem toDay_ofDay (day : Int) : (Date.ofDay day).toDay = day := by
  obtain ⟨i, hi, hyear, hmonth, hpos, hle, hsum⟩ := ofDay_spec day
  have hfirst := (daysBeforeYear_yearOf (day + daysToEpoch)).1
  rw [← hyear] at hfirst
  have hmonths (leap : Bool) (month : Nat) :
      daysBeforeMonth leap month = ((monthLengths leap).take (month - 1)).sum := rfl
  unfold Date.toDay
  rw [hmonths, hmonth, Nat.add_sub_cancel]
  omega

theorem ofDay_injective {m n : Int} (h : Date.ofDay m = Date.ofDay n) : m = n := by
  rw [← toDay_ofDay m, h, toDay_ofDay]

theorem month_lt_ofDay (day : Int) : (Date.ofDay day).month < 100 := by
  have := (isValid_ofDay day).2.1
  omega

theorem day_lt_ofDay (day : Int) : (Date.ofDay day).day < 100 := by
  obtain ⟨i, hi, -, -, -, hle, -⟩ := ofDay_spec day
  have all : ∀ leap, ∀ i < 12, (monthLengths leap).getD i 0 < 100 := by decide
  exact Nat.lt_of_le_of_lt hle (all _ i hi)

end Syndication.Time
