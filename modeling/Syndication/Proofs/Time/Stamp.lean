import Syndication.Proofs.Text.Decimal
import Syndication.Proofs.Time.Calendar
import Syndication.Proofs.Time.Order
import Syndication.Time.Strict
import Syndication.Time.Written
/-!
# Stamps read back

The stamp of an instant of the years 0 to 9999 reads back as the instant at the precision of a
store (`decode_stamp`); a stamp of any other year cannot be read (`inYears_of_decode`). In every
year the stamp determines the instant at that precision (`truncate_eq_of_stamp_eq`), so that columns
have an order in time, `Stamp.Before`, whether or not they can be read.
-/

namespace Syndication

open Time Decimal

namespace Stamp

/-! ## Pieces -/

theorem digits_padded {width n : Nat} (h : n < Nat.pow 10 width) (rest : List Char) :
    digits width (padded width n ++ rest) = .ok (n, rest) := by
  simp [digits, length_padded, all_isDigit_padded, toNat_padded h]

theorem oneOf_cons {allowed : List Char} {c : Char} (h : c ∈ allowed) (rest : List Char) :
    oneOf allowed (c :: rest) = .ok ((), rest) := by
  simp [oneOf, h]

theorem takeWhile_padded (width n : Nat) {c : Char} (hc : c.isDigit = false) (rest : List Char) :
    (padded width n ++ c :: rest).takeWhile Char.isDigit = padded width n := by
  rw [List.takeWhile_append_of_pos fun c hc => isDigit_of_mem_padded hc]
  simp [hc]

theorem dropWhile_padded (width n : Nat) {c : Char} (hc : c.isDigit = false) (rest : List Char) :
    (padded width n ++ c :: rest).dropWhile Char.isDigit = c :: rest := by
  rw [List.dropWhile_append_of_pos fun c hc => isDigit_of_mem_padded hc]
  simp [hc]

/-- Six digits of a fraction are microseconds. -/
theorem fraction_padded {n : Nat} (h : n < 1000000) {c : Char} (hc : c.isDigit = false)
    (rest : List Char) :
    fraction ('.' :: padded 6 n ++ c :: rest) = .ok (n * 1000, c :: rest) := by
  obtain ⟨d, ds, hds⟩ : ∃ d ds, padded 6 n = d :: ds :=
    List.exists_cons_of_length_eq_add_one (length_padded 6 n)
  have hd : d.isDigit = true := isDigit_of_mem_padded (hds ▸ List.mem_cons_self)
  have htake := takeWhile_padded 6 n hc rest
  have hdrop := dropWhile_padded 6 n hc rest
  have hvalue : toNat ((padded 6 n).take 9) * Nat.pow 10 (9 - ((padded 6 n).take 9).length) =
      n * 1000 := by
    rw [List.take_of_length_le (by simp), toNat_padded h, length_padded]
  rw [hds] at htake hdrop hvalue
  simp only [List.cons_append] at htake hdrop
  simp only [hds, List.cons_append, fraction, hd, if_true, htake, hdrop, hvalue]

theorem date_padded {year month day : Nat} (hy : year < 10000) (hm : month < 100)
    (hd : day < 100) (hvalid : (⟨year, month, day⟩ : Date).IsValid) (rest : List Char) :
    date (padded 4 year ++ '-' :: (padded 2 month ++ '-' :: (padded 2 day ++ rest))) =
      .ok (⟨year, month, day⟩, rest) := by
  simp [date, bind, StateT.bind, Except.bind, digits_padded, oneOf_cons, hy, hm, hd, hvalid,
    pure, StateT.pure, Except.pure]

theorem clock_padded {hour minute second micro : Nat} (hh : hour ≤ 23) (hm : minute ≤ 59)
    (hs : second ≤ 60) (hmicro : micro < 1000000) (rest : List Char) :
    clock (padded 2 hour ++ ':' :: (padded 2 minute ++ ':' :: (padded 2 second ++
        '.' :: (padded 6 micro ++ 'Z' :: rest)))) =
      .ok (⟨hour, minute, second, micro * 1000⟩, 'Z' :: rest) := by
  have hfraction := fraction_padded hmicro (show 'Z'.isDigit = false by decide) rest
  rw [List.cons_append] at hfraction
  have hvalid : (⟨hour, minute, second, micro * 1000⟩ : Clock).IsValid :=
    ⟨hh, hm, hs, by simp only; omega⟩
  have hhour : hour < 100 := by omega
  have hminute : minute < 100 := by omega
  have hsecond : second < 100 := by omega
  simp [clock, bind, StateT.bind, Except.bind, digits_padded, oneOf_cons, hhour, hminute, hsecond,
    hfraction, hvalid, pure, StateT.pure, Except.pure]

theorem length_le_utf8ByteSize (text : List Char) :
    text.length ≤ (String.ofList text).utf8ByteSize := by
  induction text with
  | nil => simp
  | cons c text ih =>
    rw [String.ofList_cons, String.utf8ByteSize_append, String.utf8ByteSize_singleton]
    have := c.utf8Size_pos
    simp only [List.length_cons]
    omega

end Stamp

namespace Instant

/-- The instant lies in the years 0 to 9999, in universal time. -/
def InYears (t : Instant) : Prop := 0 ≤ t.date.year ∧ t.date.year ≤ 9999

instance (t : Instant) : Decidable t.InYears := inferInstanceAs (Decidable (_ ∧ _))

/-! ## The text of a stamp -/

/-- Month, day and time of a stamp, all of fixed width. -/
def stampTail (t : Instant) : List Char :=
  '-' :: (padded 2 t.date.month ++ '-' :: (padded 2 t.date.day ++ 'T' :: (padded 2 t.hour ++
    ':' :: (padded 2 t.minute ++ ':' :: (padded 2 t.secondOfMinute ++
      '.' :: (padded 6 (t.fraction / 1000) ++ ['Z']))))))

theorem stamp_eq (t : Instant) : t.stamp = String.ofList (yearText t.date.year ++ t.stampTail) := by
  simp [stamp, toSecond, stampTail]

theorem length_stampTail (t : Instant) : t.stampTail.length = 23 := by
  simp [stampTail]

theorem month_lt (t : Instant) : t.date.month < 100 := month_lt_ofDay t.day

theorem day_lt (t : Instant) : t.date.day < 100 := day_lt_ofDay t.day

theorem hour_le (t : Instant) : t.hour ≤ 23 := by
  have := t.second_lt
  unfold hour
  omega

theorem minute_le (t : Instant) : t.minute ≤ 59 := by
  unfold minute
  omega

theorem secondOfMinute_le (t : Instant) : t.secondOfMinute ≤ 60 := by
  have := t.nano_lt
  unfold secondOfMinute
  omega

theorem fraction_lt (t : Instant) : t.fraction < 1000000000 := Nat.mod_lt _ (by omega)

theorem fraction_div_lt (t : Instant) : t.fraction / 1000 < 1000000 := by
  unfold fraction
  omega

theorem yearText_of_mem {year : Int} (h : 0 ≤ year ∧ year ≤ 9999) :
    yearText year = padded 4 year.toNat := by
  rw [yearText, if_pos h]

/-- A year of more than four digits or before 0 has a sign. -/
theorem yearText_of_not_mem {year : Int} (h : ¬ (0 ≤ year ∧ year ≤ 9999)) :
    yearText year = (if year < 0 then '-' else '+') :: atLeast 4 year.natAbs := by
  rw [yearText, if_neg h]

theorem isDigit_sign (year : Int) : (if year < 0 then '-' else '+').isDigit = false := by
  split <;> rfl

/-- Digits do not begin with a sign. -/
theorem padded_ne_cons {width n : Nat} {c : Char} (hc : c.isDigit = false) (rest : List Char) :
    padded width n ≠ c :: rest := by
  intro h
  have := isDigit_of_mem_padded (h ▸ List.mem_cons_self)
  simp [hc] at this

theorem yearText_injective {x y : Int} (h : yearText x = yearText y) : x = y := by
  by_cases hx : 0 ≤ x ∧ x ≤ 9999 <;> by_cases hy : 0 ≤ y ∧ y ≤ 9999
  · rw [yearText_of_mem hx, yearText_of_mem hy] at h
    have hlt (z : Int) (hz : 0 ≤ z ∧ z ≤ 9999) : z.toNat < Nat.pow 10 4 := by
      change z.toNat < 10000
      omega
    have := padded_injective 4 (hlt x hx) (hlt y hy) h
    omega
  · rw [yearText_of_mem hx, yearText_of_not_mem hy] at h
    exact absurd h (padded_ne_cons (isDigit_sign y) _)
  · rw [yearText_of_not_mem hx, yearText_of_mem hy] at h
    exact absurd h.symm (padded_ne_cons (isDigit_sign x) _)
  · rw [yearText_of_not_mem hx, yearText_of_not_mem hy] at h
    obtain ⟨hsign, habs⟩ := List.cons.inj h
    have := atLeast_injective habs
    split at hsign <;> split at hsign <;> first | omega | simp at hsign

/-! ## Reading a stamp -/

/-- A local time taken from an instant is the instant again. -/
theorem toInstant?_fields (t : Instant) :
    toInstant? t.date ⟨t.hour, t.minute, t.secondOfMinute, t.fraction⟩ 0 = some t := by
  have hs := t.second_lt
  have hn := t.nano_lt
  have hclock : (⟨t.hour, t.minute, t.secondOfMinute, t.fraction⟩ : Clock).IsValid :=
    ⟨t.hour_le, t.minute_le, t.secondOfMinute_le, t.fraction_lt⟩
  have hseconds : (⟨t.hour, t.minute, t.secondOfMinute, t.fraction⟩ :
      Clock).secondOfDay = t.second := by
    simp only [Clock.secondOfDay, hour, minute, secondOfMinute]
    omega
  have hnanos : (⟨t.hour, t.minute, t.secondOfMinute, t.fraction⟩ :
      Clock).nanoOfSecond = t.nano := by
    unfold Clock.nanoOfSecond
    split
    · next h =>
      simp only [secondOfMinute, fraction] at h ⊢
      omega
    · next h =>
      simp only [secondOfMinute, fraction] at h ⊢
      omega
  unfold toInstant?
  rw [if_pos ⟨isValid_ofDay t.day, hclock⟩]
  simp only [date, toDay_ofDay, hseconds, hnanos]
  rw [if_pos ⟨t.firstDay_le, t.le_lastDay⟩]
  have hday : t.day + ((t.second : Int) - 60 * 0) / 86400 = t.day := by omega
  have hsecond : (((t.second : Int) - 60 * 0) % 86400).toNat = t.second := by omega
  rw [hday, hsecond, of?, dif_pos ⟨⟨t.firstDay_le, t.le_lastDay⟩, hs, hn⟩]

theorem secondOfMinute_truncate (t : Instant) :
    t.truncate.secondOfMinute = t.secondOfMinute := by
  have := t.nano_lt
  simp only [secondOfMinute, truncate]
  omega

theorem fraction_truncate (t : Instant) : t.truncate.fraction = t.fraction / 1000 * 1000 := by
  have := t.nano_lt
  simp only [fraction, truncate]
  omega

/-- A local time taken from an instant up to the microsecond. -/
theorem toInstant?_truncate (t : Instant) :
    toInstant? t.date ⟨t.hour, t.minute, t.secondOfMinute, t.fraction / 1000 * 1000⟩ 0 =
      some t.truncate := by
  rw [← secondOfMinute_truncate, ← fraction_truncate]
  exact toInstant?_fields t.truncate

/-- The date of an instant of the years 0 to 9999, with the year as it is written. -/
theorem date_eq {t : Instant} (h : t.InYears) :
    (⟨t.date.year.toNat, t.date.month, t.date.day⟩ : Date) = t.date :=
  congrArg (fun year => (⟨year, t.date.month, t.date.day⟩ : Date)) (Int.toNat_of_nonneg h.1)

/-- **Stamps of the years 0 to 9999 read back**, at the precision of a store. -/
theorem decode_stamp {t : Instant} (h : t.InYears) : Stamp.decode t.stamp = .ok t.truncate := by
  have hyear : yearText t.date.year = padded 4 t.date.year.toNat := yearText_of_mem h
  have hsize : ¬ (String.ofList (yearText t.date.year ++ t.stampTail)).utf8ByteSize < 19 := by
    have := Stamp.length_le_utf8ByteSize (yearText t.date.year ++ t.stampTail)
    rw [List.length_append, length_stampTail] at this
    omega
  have hvalid : (⟨t.date.year.toNat, t.date.month, t.date.day⟩ : Date).IsValid := by
    rw [date_eq h]
    exact isValid_ofDay t.day
  have hdate := Stamp.date_padded (by have := h.2; omega) t.month_lt t.day_lt hvalid
  have hclock := Stamp.clock_padded t.hour_le t.minute_le t.secondOfMinute_le t.fraction_div_lt []
  have hoffset : Stamp.offset ['Z'] = .ok (0, []) := rfl
  rw [stamp_eq]
  unfold Stamp.decode
  rw [if_neg hsize, String.toList_ofList, hyear, stampTail]
  simp only [bind, Except.bind, hdate, Stamp.oneOf_cons (List.mem_cons_self), hclock, hoffset,
    date_eq h, toInstant?_truncate, pure, Except.pure]
  rfl

/-- The sign of a year beyond four digits is no digit. -/
theorem decode_stamp_of_not {t : Instant} (h : ¬ t.InYears) :
    Stamp.decode t.stamp = .error .invalid := by
  have hsize : ¬ (String.ofList (yearText t.date.year ++ t.stampTail)).utf8ByteSize < 19 := by
    have := Stamp.length_le_utf8ByteSize (yearText t.date.year ++ t.stampTail)
    rw [List.length_append, length_stampTail] at this
    omega
  have hdigits (rest : List Char) : Stamp.digits 4 (yearText t.date.year ++ rest) =
      .error .invalid := by
    rw [yearText_of_not_mem h]
    unfold Stamp.digits
    rw [if_neg]
    rintro ⟨-, hall⟩
    simp [isDigit_sign] at hall
  rw [stamp_eq]
  unfold Stamp.decode
  rw [if_neg hsize, String.toList_ofList]
  simp only [Stamp.date, bind, StateT.bind, Except.bind, hdigits]

/-- **A stamp that can be read is of the years 0 to 9999.** -/
theorem inYears_of_decode {t u : Instant} (h : Stamp.decode t.stamp = .ok u) :
    t.InYears ∧ u = t.truncate := by
  by_cases ht : t.InYears
  · rw [decode_stamp ht] at h
    exact ⟨ht, (Except.ok.inj h).symm⟩
  · rw [decode_stamp_of_not ht] at h
    cases h

/-- The years 0 to 9999 end long before the last day. -/
theorem InYears.day_lt {t : Instant} (h : t.InYears) : t.day < lastDay := by
  have hle := t.le_lastDay
  have hne : t.day ≠ lastDay := by
    intro heq
    have hyear : (Date.ofDay lastDay).year ≤ 9999 := heq ▸ h.2
    exact absurd hyear (by decide)
  omega

/-! ## One instant for a stamp -/

@[simp] theorem stamp_truncate (t : Instant) : t.truncate.stamp = t.stamp := by
  have hmicro : t.fraction / 1000 * 1000 / 1000 = t.fraction / 1000 :=
    Nat.mul_div_cancel _ (by omega)
  simp only [stamp_eq, stampTail, secondOfMinute_truncate, fraction_truncate, hmicro]
  rfl

/-- **A stamp determines the instant** at the precision of a store, in every year. -/
theorem truncate_eq_of_stamp_eq {t u : Instant} (h : t.stamp = u.stamp) :
    t.truncate = u.truncate := by
  rw [stamp_eq, stamp_eq, String.ofList_inj] at h
  obtain ⟨hyear, htail⟩ := List.append_inj' h (by rw [length_stampTail, length_stampTail])
  have hyear := yearText_injective hyear
  -- every field has its width, so equal texts have equal fields
  simp only [stampTail, List.cons.injEq, true_and] at htail
  obtain ⟨hmonth, htail⟩ := List.append_inj htail (by simp)
  simp only [List.cons.injEq, true_and] at htail
  obtain ⟨hday, htail⟩ := List.append_inj htail (by simp)
  simp only [List.cons.injEq, true_and] at htail
  obtain ⟨hhour, htail⟩ := List.append_inj htail (by simp)
  simp only [List.cons.injEq, true_and] at htail
  obtain ⟨hminute, htail⟩ := List.append_inj htail (by simp)
  simp only [List.cons.injEq, true_and] at htail
  obtain ⟨hsecond, htail⟩ := List.append_inj htail (by simp)
  simp only [List.cons.injEq, true_and] at htail
  obtain ⟨hfraction, -⟩ := List.append_inj htail (by simp)
  have hmonth := padded_injective 2 t.month_lt u.month_lt hmonth
  have hday := padded_injective 2 t.day_lt u.day_lt hday
  have hhour := padded_injective 2 (Nat.lt_of_le_of_lt t.hour_le (by decide))
    (Nat.lt_of_le_of_lt u.hour_le (by decide)) hhour
  have hminute := padded_injective 2 (Nat.lt_of_le_of_lt t.minute_le (by decide))
    (Nat.lt_of_le_of_lt u.minute_le (by decide)) hminute
  have hsecond := padded_injective 2 (Nat.lt_of_le_of_lt t.secondOfMinute_le (by decide))
    (Nat.lt_of_le_of_lt u.secondOfMinute_le (by decide)) hsecond
  have hfraction := padded_injective 6 t.fraction_div_lt u.fraction_div_lt hfraction
  have hdate : t.day = u.day := by
    apply ofDay_injective
    change t.date = u.date
    generalize t.date = d at *
    generalize u.date = e at *
    obtain ⟨year, month, day⟩ := d
    obtain ⟨year', month', day'⟩ := e
    simp only at hyear hmonth hday
    rw [hyear, hmonth, hday]
  have ht := t.nano_lt
  have hu := u.nano_lt
  have hts := t.second_lt
  have hus := u.second_lt
  simp only [hour, minute, secondOfMinute, fraction] at hhour hminute hsecond hfraction
  apply ticks_injective
  simp only [ticks, truncate]
  omega

end Instant

/-! ## Columns in order -/

namespace Stamp

/-- A column holds the stamp of an instant at the precision of a store. -/
def Holds (text : String) (t : Instant) : Prop := t.IsWhole ∧ t.stamp = text

/-- A column holds a stamp. -/
def IsWritten (text : String) : Prop := ∃ t, Holds text t

/-- A column holds an earlier instant than another. -/
def Before (a b : String) : Prop := ∃ t u, Holds a t ∧ Holds b u ∧ t < u

theorem holds_stamp (t : Instant) : Holds t.stamp t.truncate :=
  ⟨t.isWhole_truncate, t.stamp_truncate⟩

theorem isWritten_stamp (t : Instant) : IsWritten t.stamp := ⟨_, holds_stamp t⟩

theorem Holds.unique {text : String} {t u : Instant} (ht : Holds text t) (hu : Holds text u) :
    t = u := by
  rw [← Instant.truncate_eq_self ht.1, ← Instant.truncate_eq_self hu.1]
  exact Instant.truncate_eq_of_stamp_eq (ht.2.trans hu.2.symm)

/-- What a column with a stamp reads as is what it holds. -/
theorem Holds.of_decode {text : String} (h : IsWritten text) {t : Instant}
    (ht : decode text = .ok t) : Holds text t := by
  obtain ⟨u, hu, rfl⟩ := h
  obtain ⟨-, rfl⟩ := Instant.inYears_of_decode ht
  exact holds_stamp u

theorem Holds.decode {text : String} {t : Instant} (h : Holds text t) (ht : t.InYears) :
    decode text = .ok t := by
  rw [← h.2, Instant.decode_stamp ht, Instant.truncate_eq_self h.1]

/-- A clock that can be read has a next value, whatever the time. -/
theorem exists_advance? {text : String} (h : IsWritten text) {t : Instant}
    (ht : decode text = .ok t) (now : Instant) : ∃ u, Instant.advance? t now = some u := by
  obtain ⟨u, hu⟩ := h
  rw [← hu.2] at ht
  obtain ⟨hyears, rfl⟩ := Instant.inYears_of_decode ht
  have hday : u.truncate.day < Instant.lastDay := hyears.day_lt
  exact Instant.exists_advance? hday now

theorem Before.iff_lt {a b : String} {t u : Instant} (ha : Holds a t) (hb : Holds b u) :
    Before a b ↔ t < u := by
  refine ⟨?_, fun h => ⟨t, u, ha, hb, h⟩⟩
  rintro ⟨t', u', ha', hb', h⟩
  rwa [ha.unique ha', hb.unique hb']

theorem Before.irrefl (a : String) : ¬ Before a a := by
  rintro ⟨t, u, ha, hb, h⟩
  rw [ha.unique hb] at h
  exact Instant.lt_irrefl _ h

theorem Before.trans {a b c : String} (hab : Before a b) (hbc : Before b c) : Before a c := by
  obtain ⟨t, u, ha, hb, htu⟩ := hab
  obtain ⟨u', v, hb', hc, huv⟩ := hbc
  obtain rfl := hb.unique hb'
  exact ⟨t, v, ha, hc, Instant.lt_trans htu huv⟩

theorem Before.left {a b : String} (h : Before a b) : IsWritten a :=
  let ⟨t, _, ha, _, _⟩ := h; ⟨t, ha⟩

theorem Before.right {a b : String} (h : Before a b) : IsWritten b :=
  let ⟨_, u, _, hb, _⟩ := h; ⟨u, hb⟩

/-- The stamp of the value that follows is later. -/
theorem Before.of_advance? {t now u : Instant} (hnow : now.IsWhole)
    (h : Instant.advance? t now = some u) : Before t.stamp u.stamp :=
  ⟨_, _, holds_stamp t, holds_stamp u, Instant.truncate_lt_of_advance? hnow h⟩

end Stamp

end Syndication
