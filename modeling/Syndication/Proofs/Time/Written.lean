import Mathlib
import Syndication.Proofs.Text.Blank
import Syndication.Proofs.Text.Decimal
import Syndication.Proofs.Time.Stamp
import Syndication.Time.Relaxed
/-!
# Written instants read back

What records show of an instant reads back as the instant (`Instant.parse?_written`), in every
year, in a leap second and to the nanosecond: the relaxed reader skips blanks, of which the text has
none, takes a year with a sign to its last digit and counts the fraction by its length.
-/

namespace Syndication.Instant

open Time Text Decimal

namespace Scan

/-! ## Steps -/

/-- A step that can be read goes on with what it leaves. -/
theorem bind_of {α β : Type} {step : Scan α} {next : α → Scan β} {text rest : List Char} {a : α}
    (h : step text = some (a, rest)) : (step >>= next) text = next a rest := by
  simp [bind, StateT.bind, h]

theorem get_nil : (get : Scan (List Char)) [] = some ([], []) := rfl

theorem between_T (rest : List Char) : between ('T' :: rest) = some ((), rest) := rfl

theorem offset_Z (rest : List Char) : offset ('Z' :: rest) = some (0, rest) := rfl

/-! ## Blanks -/

theorem isBlank_of_isDigit {c : Char} (h : c.isDigit = true) : isBlank c = false := by
  obtain ⟨hlow, hhigh⟩ : 48 ≤ c.toNat ∧ c.toNat ≤ 57 := by
    simpa [Char.isDigit, UInt32.le_iff_toNat_le] using h
  rw [← Char.ofNat_toNat c]
  generalize c.toNat = n at hlow hhigh
  interval_cases n <;> decide

theorem blanks_Z (rest : List Char) : blanks ('Z' :: rest) = some ((), 'Z' :: rest) := rfl

theorem blanks_nil : blanks [] = some ((), []) := rfl

/-- Digits do not begin with a blank. -/
theorem trimStart_digits {found : List Char} (h : ∀ c ∈ found, c.isDigit = true)
    (hne : found ≠ []) (rest : List Char) : trimStart (found ++ rest) = found ++ rest := by
  obtain ⟨c, cs, rfl⟩ := List.exists_cons_of_ne_nil hne
  exact trimStart_cons (isBlank_of_isDigit (h c List.mem_cons_self)) _

/-! ## Numbers -/

/-- Digits are read to the end of the width. -/
theorem digits_of_length {found : List Char} (h : ∀ c ∈ found, c.isDigit = true)
    (hne : found ≠ []) {most : Nat} (hmost : found.length = most) (rest : List Char) :
    digits most (found ++ rest) = some (toNat found, rest) := by
  have htake : ((found ++ rest).take most).takeWhile Char.isDigit = found := by
    rw [← hmost, List.take_left]
    exact List.takeWhile_eq_self_iff.2 h
  rw [digits, htake]
  simp [hne]

/-- Digits are read to the first character that is none. -/
theorem digits_of_end {found : List Char} (h : ∀ c ∈ found, c.isDigit = true)
    (hne : found ≠ []) {c : Char} (hc : c.isDigit = false) (rest : List Char) :
    digits (found ++ c :: rest).length (found ++ c :: rest) = some (toNat found, c :: rest) := by
  have htake : (found ++ c :: rest).takeWhile Char.isDigit = found := by
    rw [List.takeWhile_append_of_pos h, List.takeWhile_cons_of_neg (by simp [hc]), List.append_nil]
  rw [digits, List.take_length, htake]
  simp [hne]

theorem short_padded {n : Nat} (h : n < 100) (rest : List Char) :
    short (padded 2 n ++ rest) = some (n, rest) := by
  have hdigits : ∀ c ∈ padded 2 n, c.isDigit = true := fun c => isDigit_of_mem_padded
  have hne : padded 2 n ≠ [] := List.ne_nil_of_length_eq_add_one (length_padded 2 n)
  have hread := digits_of_length hdigits hne (length_padded 2 n) rest
  rw [toNat_padded h] at hread
  simp [short, blanks, bind, StateT.bind, trimStart_digits hdigits hne, hread]

theorem separator_cons {c : Char} (h : isBlank c = false) (rest : List Char) :
    separator c (c :: rest) = some ((), rest) := by
  simp [separator, blanks, char, bind, StateT.bind, trimStart_cons h]

/-! ## Years -/

theorem isDigit_of_mem_atLeast {width n : Nat} {c : Char} (h : c ∈ atLeast width n) :
    c.isDigit = true := by
  unfold atLeast at h
  split at h
  · exact isDigit_of_mem_padded h
  · exact isDigit_of_mem_ofNat h

theorem atLeast_ne_nil {width : Nat} (hwidth : 0 < width) (n : Nat) : atLeast width n ≠ [] := by
  unfold atLeast
  split
  · exact List.ne_nil_of_length_pos (by simpa using hwidth)
  · obtain ⟨c, digits, heq, -⟩ := ofNat_eq_cons n
    simp [heq]

/-- A year with its sign is read to its last digit. -/
theorem year_signed {y : Int} {c : Char} (hc : c.isDigit = false) (rest : List Char) :
    year ((if y < 0 then '-' else '+') :: (atLeast 4 y.natAbs ++ c :: rest)) =
      some (y, c :: rest) := by
  have hne : atLeast 4 y.natAbs ≠ [] := atLeast_ne_nil (by decide) _
  have hread := digits_of_end (fun _ => isDigit_of_mem_atLeast) hne hc rest
  rw [toNat_atLeast] at hread
  split
  · next h =>
    rw [year, trimStart_cons (by decide)]
    simp only [hread, Option.bind_eq_bind, Option.bind_some]
    congr 2
    omega
  · next h =>
    rw [year, trimStart_cons (by decide)]
    simp only [hread, Option.bind_eq_bind, Option.bind_some]
    congr 2
    omega

theorem year_padded {n : Nat} (h : n < 10000) (rest : List Char) :
    year (padded 4 n ++ rest) = some ((n : Int), rest) := by
  have hdigits : ∀ c ∈ padded 4 n, c.isDigit = true := fun c => isDigit_of_mem_padded
  have hne : padded 4 n ≠ [] := List.ne_nil_of_length_eq_add_one (length_padded 4 n)
  have hread := digits_of_length hdigits hne (length_padded 4 n) rest
  rw [toNat_padded h] at hread
  -- a digit is no sign
  obtain ⟨c, cs, hcons⟩ := List.exists_cons_of_ne_nil hne
  have hc : c.isDigit = true := hdigits c (hcons ▸ List.mem_cons_self)
  rw [year, trimStart_digits hdigits hne]
  rw [hcons, List.cons_append] at hread ⊢
  split
  · next heq =>
    rw [(List.cons.inj heq).1] at hc
    cases hc
  · next heq =>
    rw [(List.cons.inj heq).1] at hc
    cases hc
  · simp only [hread, Option.bind_eq_bind, Option.bind_some]

theorem year_yearText (y : Int) {c : Char} (hc : c.isDigit = false) (rest : List Char) :
    year (yearText y ++ c :: rest) = some (y, c :: rest) := by
  by_cases h : 0 ≤ y ∧ y ≤ 9999
  · rw [yearText_of_mem h, year_padded (by omega), Int.toNat_of_nonneg h.1]
  · rw [yearText_of_not_mem h, List.cons_append, year_signed hc]

/-! ## Fractions -/

theorem fraction_padded {width n : Nat} (hpos : 0 < width) (hwidth : width ≤ 9)
    (h : n < Nat.pow 10 width) {c : Char} (hc : c.isDigit = false) (rest : List Char) :
    fraction ('.' :: padded width n ++ c :: rest) =
      some (n * Nat.pow 10 (9 - width), c :: rest) := by
  have hne : padded width n ≠ [] := List.ne_nil_of_length_pos (by simpa using hpos)
  have htake : (padded width n).take 9 = padded width n :=
    List.take_of_length_le (by simpa using hwidth)
  simp [fraction, Stamp.takeWhile_padded width n hc, hne, htake, toNat_padded h]

/-- The fraction is read to the end of its digits, of which there may be none. -/
theorem fraction_fractionText {nano : Nat} (h : nano < 1000000000) (rest : List Char) :
    fraction (fractionText nano ++ 'Z' :: rest) = some (nano, 'Z' :: rest) := by
  unfold fractionText
  split
  · next hzero =>
    rw [hzero]
    rfl
  · split
    · next hmilli =>
      rw [fraction_padded (by decide) (by decide) (by change _ < 1000; omega) (by decide)]
      congr 2
      change _ * 1000000 = _
      omega
    · split
      · next hmicro =>
        rw [fraction_padded (by decide) (by decide) (by change _ < 1000000; omega) (by decide)]
        congr 2
        change _ * 1000 = _
        omega
      · rw [fraction_padded (by decide) (by decide) h (by decide)]
        congr 2
        exact Nat.mul_one nano

end Scan

/-! ## Instants -/

open Scan

theorem written_eq (t : Instant) : t.written = String.ofList (yearText t.date.year ++
    '-' :: (padded 2 t.date.month ++ '-' :: (padded 2 t.date.day ++ 'T' :: (padded 2 t.hour ++
      ':' :: (padded 2 t.minute ++ ':' :: (padded 2 t.secondOfMinute ++
        (fractionText t.fraction ++ ['Z']))))))) := by
  simp [written, toSecond]

/-- **Instants read back** from the form that records show. -/
theorem parse?_written (t : Instant) : parse? t.written = some t := by
  have hhour : t.hour < 100 := Nat.lt_of_le_of_lt t.hour_le (by decide)
  have hminute : t.minute < 100 := Nat.lt_of_le_of_lt t.minute_le (by decide)
  have hsecond : t.secondOfMinute < 100 := Nat.lt_of_le_of_lt t.secondOfMinute_le (by decide)
  rw [parse?, written_eq, String.toList_ofList, Scan.instant, StateT.run]
  rw [bind_of (year_yearText _ (by decide) _), bind_of (separator_cons (by decide) _),
    bind_of (short_padded t.month_lt _), bind_of (separator_cons (by decide) _),
    bind_of (short_padded t.day_lt _), bind_of (between_T _),
    bind_of (short_padded hhour _), bind_of (separator_cons (by decide) _),
    bind_of (short_padded hminute _), bind_of (separator_cons (by decide) _),
    bind_of (short_padded hsecond _), bind_of (fraction_fractionText t.fraction_lt _),
    bind_of (blanks_Z []), bind_of (offset_Z []), bind_of blanks_nil, bind_of get_nil,
    if_pos (by decide), toInstant?_fields]
  rfl

end Syndication.Instant
