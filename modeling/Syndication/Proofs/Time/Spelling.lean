import Syndication.Proofs.Time.Stamp
/-!
# The spellings of stamps

The strict reader takes more texts than stores write: the letters in either case, a blank or a
letter between date and time, a fraction of any length or none, and any offset. A `Spelling` is one
such text with its parts, and what it means is said by arithmetic on days and seconds alone
(`Spelling.Means`). The reader takes exactly the spellings that mean an instant, each for that
instant (`Stamp.decode_eq_ok_iff`).
-/

namespace Syndication

open Time Decimal

/-! ## Digits -/

namespace Decimal

theorem digit_value {c : Char} (h : c.isDigit = true) : value c < 10 ∧ digit (value c) = c := by
  obtain ⟨hlow, hhigh⟩ : 48 ≤ c.toNat ∧ c.toNat ≤ 57 := by
    simpa [Char.isDigit, UInt32.le_iff_toNat_le] using h
  have hzero : '0'.toNat = 48 := rfl
  refine ⟨by unfold value; omega, ?_⟩
  rw [digit, value, hzero, show 48 + (c.toNat - 48) = c.toNat by omega, Char.ofNat_toNat]

theorem toNat_append (a b : List Char) : toNat (a ++ b) = toNat a * 10 ^ b.length + toNat b := by
  induction b using List.reverseRecOn with
  | nil => simp [toNat]
  | append_singleton b c ih =>
    rw [← List.append_assoc, toNat_concat, ih, toNat_concat, List.length_append,
      List.length_singleton, Nat.pow_succ]
    ring

theorem toNat_lt {digits : List Char} (h : ∀ c ∈ digits, c.isDigit = true) :
    toNat digits < 10 ^ digits.length := by
  induction digits using List.reverseRecOn with
  | nil => simp [toNat]
  | append_singleton digits c ih =>
    have hc := (digit_value (h c (by simp))).1
    have hdigits := ih fun d hd => h d (List.mem_append_left _ hd)
    rw [toNat_concat, List.length_append, List.length_singleton, Nat.pow_succ]
    omega

/-- Digits are the text of their number at their width. -/
theorem padded_toNat {digits : List Char} (h : ∀ c ∈ digits, c.isDigit = true) :
    padded digits.length (toNat digits) = digits := by
  induction digits using List.reverseRecOn with
  | nil => rfl
  | append_singleton digits c ih =>
    obtain ⟨hlt, hc⟩ := digit_value (h c (by simp))
    have hdigits := ih fun d hd => h d (List.mem_append_left _ hd)
    rw [toNat_concat, List.length_append, List.length_singleton, padded,
      show (10 * toNat digits + value c) / 10 = toNat digits by omega,
      show (10 * toNat digits + value c) % 10 = value c by omega, hdigits, hc]

end Decimal

/-! ## Spellings -/

namespace Stamp

/-- How a stamp gives its offset from universal time. -/
inductive Zone
  /-- Universal time, as one letter. -/
  | universal (letter : Char)
  /-- East of it, in hours and minutes. -/
  | east (hours minutes : Nat)
  /-- West of it, with a hyphen or a minus sign. -/
  | west (sign : Char) (hours minutes : Nat)

namespace Zone

/-- An offset as it is written. -/
def text : Zone → List Char
  | universal letter => [letter]
  | east hours minutes => '+' :: (padded 2 hours ++ ':' :: padded 2 minutes)
  | west sign hours minutes => sign :: (padded 2 hours ++ ':' :: padded 2 minutes)

/-- The minutes to the east. -/
def minutes : Zone → Int
  | universal _ => 0
  | east hours minutes => hours * 60 + minutes
  | west _ hours minutes => -(hours * 60 + minutes)

/-- The letters, signs and widths are those of a stamp. -/
def IsProper : Zone → Prop
  | universal letter => letter ∈ ['Z', 'z']
  | east hours minutes => hours < 100 ∧ minutes < 60
  | west sign hours minutes => sign ∈ ['-', '\u2212'] ∧ hours < 100 ∧ minutes < 60

end Zone

/-- A text of the strict reader with its parts. -/
structure Spelling where
  year : Nat
  month : Nat
  day : Nat
  separator : Char
  hour : Nat
  minute : Nat
  second : Nat
  /-- The digits after the point; without digits there is no point. -/
  fraction : List Char
  zone : Zone

namespace Spelling

/-- The fraction with its point. -/
def fractionText (s : Spelling) : List Char :=
  if s.fraction = [] then [] else '.' :: s.fraction

/-- What follows the separator. -/
def timeText (s : Spelling) : List Char :=
  padded 2 s.hour ++ ':' :: (padded 2 s.minute ++ ':' :: (padded 2 s.second ++
    (s.fractionText ++ s.zone.text)))

/-- The whole text. -/
def text (s : Spelling) : List Char :=
  padded 4 s.year ++ '-' :: (padded 2 s.month ++ '-' :: (padded 2 s.day ++
    s.separator :: s.timeText))

/-- The parts have their widths and characters. -/
structure IsProper (s : Spelling) : Prop where
  year : s.year < 10000
  separator : s.separator ∈ ['T', 't', ' ']
  fraction : ∀ c ∈ s.fraction, c.isDigit = true
  zone : s.zone.IsProper

/-- The date that is written, which need not exist. -/
def date (s : Spelling) : Date := ⟨s.year, s.month, s.day⟩

/-- The local time. Of the fraction, what is finer than a nanosecond is dropped. -/
def clock (s : Spelling) : Clock :=
  ⟨s.hour, s.minute, s.second, toNat s.fraction * 1000000000 / 10 ^ s.fraction.length⟩

/-- The instant that the spelling stands for: the local date and time exist, the offset is less
than a day, and the instant has as many seconds less than the local time as the offset says. -/
structure Means (s : Spelling) (t : Instant) : Prop where
  date : s.date.IsValid
  clock : s.clock.IsValid
  offset : -1440 < s.zone.minutes ∧ s.zone.minutes < 1440
  seconds : t.day * 86400 + t.second =
    s.date.toDay * 86400 + s.clock.secondOfDay - s.zone.minutes * 60
  nano : t.nano = s.clock.nanoOfSecond

end Spelling

/-! ## Reading a part -/

theorem step_eq_ok {α β : Type} {x : Except Fault (α × List Char)}
    {f : α × List Char → Except Fault β} {b : β} :
    (x >>= f) = .ok b ↔ ∃ a left, x = .ok (a, left) ∧ f (a, left) = .ok b := by
  cases x with
  | error e => simp [bind, Except.bind]
  | ok r =>
    obtain ⟨a, left⟩ := r
    simp [bind, Except.bind]

theorem reader_bind_eq_ok {α β : Type} {x : Reader α} {f : α → Reader β} {text rest : List Char}
    {b : β} : (x >>= f) text = .ok (b, rest) ↔
      ∃ a left, x text = .ok (a, left) ∧ f a left = .ok (b, rest) := step_eq_ok

theorem digits_eq_ok {width n : Nat} {text rest : List Char} :
    digits width text = .ok (n, rest) ↔ n < 10 ^ width ∧ text = padded width n ++ rest := by
  constructor
  · intro h
    unfold digits at h
    simp only at h
    split at h
    · next hfound =>
      obtain ⟨rfl, rfl⟩ := Prod.mk.inj (Except.ok.inj h)
      have hall := List.all_eq_true.1 hfound.2
      have hlt := toNat_lt hall
      have htext := padded_toNat hall
      rw [hfound.1] at hlt htext
      exact ⟨hlt, by rw [htext, List.take_append_drop]⟩
    · cases h
  · rintro ⟨hlt, rfl⟩
    exact digits_padded hlt rest

theorem oneOf_eq_ok {allowed text rest : List Char} :
    oneOf allowed text = .ok ((), rest) ↔ ∃ c ∈ allowed, text = c :: rest := by
  constructor
  · intro h
    unfold oneOf at h
    split at h
    · next c left =>
      split at h
      · next hc =>
        obtain ⟨-, rfl⟩ := Prod.mk.inj (Except.ok.inj h)
        exact ⟨c, hc, rfl⟩
      · cases h
    · cases h
  · rintro ⟨c, hc, rfl⟩
    exact oneOf_cons hc rest

/-- Nine digits of a fraction are nanoseconds, zeros appended and further digits dropped. -/
theorem nanos_eq {found : List Char} (h : ∀ c ∈ found, c.isDigit = true) :
    toNat (found.take 9) * Nat.pow 10 (9 - (found.take 9).length) =
      toNat found * 1000000000 / 10 ^ found.length := by
  change _ * 10 ^ _ = _ * 10 ^ 9 / _
  by_cases hlen : found.length ≤ 9
  · rw [List.take_of_length_le hlen]
    have hpow : 10 ^ 9 = 10 ^ (9 - found.length) * 10 ^ found.length := by
      rw [← Nat.pow_add, Nat.sub_add_cancel hlen]
    rw [hpow, ← Nat.mul_assoc, Nat.mul_div_cancel _ (by positivity)]
  · have hkept : (found.take 9).length = 9 := by
      rw [List.length_take]
      omega
    have hdropped : toNat (found.drop 9) < 10 ^ (found.drop 9).length :=
      toNat_lt fun c hc => h c (List.mem_of_mem_drop hc)
    have hsplit := toNat_append (found.take 9) (found.drop 9)
    rw [List.take_append_drop] at hsplit
    have hpow : 10 ^ found.length = 10 ^ (found.drop 9).length * 10 ^ 9 := by
      rw [← Nat.pow_add, List.length_drop, Nat.sub_add_cancel (by omega)]
    rw [hkept, Nat.sub_self, Nat.pow_zero, Nat.mul_one, hpow,
      Nat.mul_div_mul_right _ _ (by positivity), hsplit]
    rw [Nat.mul_comm, Nat.mul_add_div (by positivity), Nat.div_eq_of_lt hdropped, Nat.add_zero]

theorem fraction_eq_ok {text rest : List Char} {nano : Nat} (h : fraction text = .ok (nano, rest)) :
    ∃ found : List Char, (∀ c ∈ found, c.isDigit = true) ∧
      nano = toNat found * 1000000000 / 10 ^ found.length ∧
      text = (if found = [] then [] else '.' :: found) ++ rest := by
  unfold fraction at h
  split at h
  · next after =>
    split at h
    · cases h
    · next c left =>
      split at h
      · next hc =>
        have hall : ∀ d ∈ (c :: left).takeWhile Char.isDigit, d.isDigit = true :=
          fun d hd => List.mem_takeWhile_imp hd
        have hne : (c :: left).takeWhile Char.isDigit ≠ [] := by simp [hc]
        obtain ⟨rfl, rfl⟩ := Prod.mk.inj (Except.ok.inj h)
        exact ⟨_, hall, nanos_eq hall, by
          rw [if_neg hne, List.cons_append, List.takeWhile_append_dropWhile]⟩
      · cases h
  · obtain ⟨rfl, rfl⟩ := Prod.mk.inj (Except.ok.inj h)
    exact ⟨[], by simp, by simp [Decimal.toNat], rfl⟩

/-- A fraction is read to its last digit. -/
theorem fraction_spelled {found : List Char} (h : ∀ c ∈ found, c.isDigit = true) {c : Char}
    (hc : c.isDigit = false) (hpoint : c ≠ '.') (rest : List Char) :
    fraction ((if found = [] then [] else '.' :: found) ++ c :: rest) =
      .ok (toNat found * 1000000000 / 10 ^ found.length, c :: rest) := by
  cases found with
  | nil =>
    have hzero : fraction (c :: rest) = .ok (0, c :: rest) := by
      unfold fraction
      split
      · next heq => exact absurd (List.cons.inj heq).1 hpoint
      · rfl
    simpa [Decimal.toNat] using hzero
  | cons d found =>
    have hd : d.isDigit = true := h d List.mem_cons_self
    have htake : (d :: (found ++ c :: rest)).takeWhile Char.isDigit = d :: found := by
      rw [← List.cons_append, List.takeWhile_append_of_pos h,
        List.takeWhile_cons_of_neg (by simp [hc]), List.append_nil]
    have hdrop : (d :: (found ++ c :: rest)).dropWhile Char.isDigit = c :: rest := by
      rw [← List.cons_append, List.dropWhile_append_of_pos h,
        List.dropWhile_cons_of_neg (by simp [hc])]
    rw [if_neg (List.cons_ne_nil d found), ← nanos_eq h]
    simp only [List.cons_append, fraction, hd, if_true, htake, hdrop]

theorem offsetPair_eq_ok {a b : Nat} {text rest : List Char} :
    offsetPair text = .ok ((a, b), rest) ↔
      (a < 10 ∧ b < 10) ∧ text = digit a :: digit b :: rest := by
  constructor
  · intro h
    unfold offsetPair at h
    split at h
    · next x y left =>
      split at h
      · next hdigit =>
        rw [Bool.and_eq_true] at hdigit
        obtain ⟨hpair, rfl⟩ := Prod.mk.inj (Except.ok.inj h)
        obtain ⟨rfl, rfl⟩ := Prod.mk.inj hpair
        have hx := digit_value hdigit.1
        have hy := digit_value hdigit.2
        exact ⟨⟨hx.1, hy.1⟩, by rw [hx.2, hy.2]⟩
      · cases h
    · cases h
    · cases h
  · rintro ⟨⟨ha, hb⟩, rfl⟩
    simp [offsetPair, isDigit_digit ha, isDigit_digit hb, value_digit ha, value_digit hb]

theorem offsetColon_eq_ok {text rest : List Char} :
    offsetColon text = .ok ((), rest) ↔ text = ':' :: rest := by
  constructor
  · intro h
    unfold offsetColon at h
    split at h
    · next left => rw [(Prod.mk.inj (Except.ok.inj h)).2]
    · cases h
    · cases h
  · rintro rfl
    rfl

theorem padded_two {a b : Nat} (ha : a < 10) (hb : b < 10) :
    padded 2 (10 * a + b) = [digit a, digit b] := by
  simp [padded, show (10 * a + b) / 10 = a by omega, show (10 * a + b) % 10 = b by omega,
    Nat.mod_eq_of_lt ha]

theorem offsetMinutes_eq_ok {n : Nat} {text rest : List Char} :
    offsetMinutes text = .ok (n, rest) ↔ ∃ hours minutes, (hours < 100 ∧ minutes < 60) ∧
      n = hours * 60 + minutes ∧ text = padded 2 hours ++ ':' :: padded 2 minutes ++ rest := by
  unfold offsetMinutes
  constructor
  · intro h
    obtain ⟨⟨a, b⟩, left₁, hhours, h₁⟩ := reader_bind_eq_ok.1 h
    obtain ⟨_, left₂, hcolon, h₂⟩ := reader_bind_eq_ok.1 h₁
    obtain ⟨⟨c, d⟩, left₃, hminutes, h₃⟩ := reader_bind_eq_ok.1 h₂
    obtain ⟨⟨ha, hb⟩, rfl⟩ := offsetPair_eq_ok.1 hhours
    obtain rfl := offsetColon_eq_ok.1 hcolon
    obtain ⟨⟨hc, hd⟩, rfl⟩ := offsetPair_eq_ok.1 hminutes
    simp only at h₃
    split at h₃
    · cases h₃
    · next hlt =>
      obtain ⟨rfl, rfl⟩ := Prod.mk.inj (Except.ok.inj h₃)
      exact ⟨10 * a + b, 10 * c + d, ⟨by omega, by omega⟩, rfl, by
        rw [padded_two ha hb, padded_two hc hd]; rfl⟩
  · rintro ⟨hours, minutes, ⟨hhours, hminutes⟩, rfl, rfl⟩
    have hours_eq : 10 * (hours / 10) + hours % 10 = hours := Nat.div_add_mod hours 10
    have minutes_eq : 10 * (minutes / 10) + minutes % 10 = minutes := Nat.div_add_mod minutes 10
    have htext := padded_two (show hours / 10 < 10 by omega) (show hours % 10 < 10 by omega)
    have htext' := padded_two (show minutes / 10 < 10 by omega) (show minutes % 10 < 10 by omega)
    rw [hours_eq] at htext
    rw [minutes_eq] at htext'
    refine reader_bind_eq_ok.2 ⟨(hours / 10, hours % 10), _, offsetPair_eq_ok.2
      ⟨⟨by omega, by omega⟩, by rw [htext]; rfl⟩, ?_⟩
    refine reader_bind_eq_ok.2 ⟨(), _, rfl, ?_⟩
    refine reader_bind_eq_ok.2 ⟨(minutes / 10, minutes % 10), rest, offsetPair_eq_ok.2
      ⟨⟨by omega, by omega⟩, by rw [htext']; rfl⟩, ?_⟩
    simp only [hours_eq, minutes_eq]
    rw [if_neg (by omega)]
    rfl

/-- The offset after its sign. -/
theorem signed_eq_ok {f : Nat → Int} {minutes : Int} {text rest : List Char} :
    (offsetMinutes >>= fun n => pure (f n)) text = .ok (minutes, rest) ↔
      ∃ hours mins, (hours < 100 ∧ mins < 60) ∧ f (hours * 60 + mins) = minutes ∧
        text = padded 2 hours ++ ':' :: padded 2 mins ++ rest := by
  rw [reader_bind_eq_ok]
  constructor
  · rintro ⟨n, left, hread, h⟩
    obtain ⟨rfl, rfl⟩ := Prod.mk.inj (Except.ok.inj h)
    obtain ⟨hours, mins, hbounds, rfl, rfl⟩ := offsetMinutes_eq_ok.1 hread
    exact ⟨hours, mins, hbounds, rfl, rfl⟩
  · rintro ⟨hours, mins, hbounds, rfl, rfl⟩
    exact ⟨_, rest, offsetMinutes_eq_ok.2 ⟨hours, mins, hbounds, rfl, rfl⟩, rfl⟩

theorem offset_plus (text : List Char) :
    offset ('+' :: text) = (offsetMinutes >>= fun n => pure (n : Int)) text := rfl

theorem offset_minus {sign : Char} (h : sign ∈ ['-', '\u2212']) (text : List Char) :
    offset (sign :: text) = (offsetMinutes >>= fun n => pure (-(n : Int))) text := by
  rcases List.mem_pair.1 h with rfl | rfl <;> rfl

theorem offset_eq_ok {minutes : Int} {text rest : List Char} :
    offset text = .ok (minutes, rest) ↔
      ∃ zone : Zone, zone.IsProper ∧ zone.minutes = minutes ∧ text = zone.text ++ rest := by
  have west {sign : Char} (hsign : sign ∈ ['-', '\u2212']) {left : List Char}
      (h : offset (sign :: left) = .ok (minutes, rest)) : ∃ zone : Zone,
        zone.IsProper ∧ zone.minutes = minutes ∧ sign :: left = zone.text ++ rest := by
    rw [offset_minus hsign, signed_eq_ok] at h
    obtain ⟨hours, mins, hbounds, rfl, rfl⟩ := h
    exact ⟨.west sign hours mins, ⟨hsign, hbounds⟩, by simp [Zone.minutes], by simp [Zone.text]⟩
  constructor
  · intro h
    have hread := h
    unfold offset at h
    split at h
    · obtain ⟨rfl, rfl⟩ := Prod.mk.inj (Except.ok.inj h)
      exact ⟨.universal 'Z', by simp [Zone.IsProper], rfl, rfl⟩
    · obtain ⟨rfl, rfl⟩ := Prod.mk.inj (Except.ok.inj h)
      exact ⟨.universal 'z', by simp [Zone.IsProper], rfl, rfl⟩
    · rw [offset_plus, signed_eq_ok] at hread
      obtain ⟨hours, mins, hbounds, rfl, rfl⟩ := hread
      exact ⟨.east hours mins, hbounds, by simp [Zone.minutes], by simp [Zone.text]⟩
    · exact west (by simp) hread
    · exact west (by simp) hread
    · cases h
    · cases h
  · rintro ⟨zone, hzone, rfl, rfl⟩
    cases zone with
    | universal letter => rcases List.mem_pair.1 hzone with rfl | rfl <;> rfl
    | east hours mins =>
      have htext : (Zone.east hours mins).text ++ rest =
          '+' :: (padded 2 hours ++ ':' :: padded 2 mins ++ rest) := rfl
      rw [htext, offset_plus, signed_eq_ok]
      exact ⟨hours, mins, hzone, by simp [Zone.minutes], rfl⟩
    | west sign hours mins =>
      have htext : (Zone.west sign hours mins).text ++ rest =
          sign :: (padded 2 hours ++ ':' :: padded 2 mins ++ rest) := rfl
      rw [htext, offset_minus hzone.1, signed_eq_ok]
      exact ⟨hours, mins, hzone.2, by simp [Zone.minutes], rfl⟩

/-! ## Reading date and time -/

theorem date_eq_ok {d : Date} {text rest : List Char} (h : date text = .ok (d, rest)) :
    ∃ year month day : Nat, year < 10000 ∧ d = ⟨year, month, day⟩ ∧ d.IsValid ∧
      text = padded 4 year ++ '-' :: (padded 2 month ++ '-' :: (padded 2 day ++ rest)) := by
  unfold date at h
  obtain ⟨year, left₁, hyear, h⟩ := reader_bind_eq_ok.1 h
  obtain ⟨_, left₂, hhyphen, h⟩ := reader_bind_eq_ok.1 h
  obtain ⟨month, left₃, hmonth, h⟩ := reader_bind_eq_ok.1 h
  obtain ⟨_, left₄, hhyphen', h⟩ := reader_bind_eq_ok.1 h
  obtain ⟨day, left₅, hday, h⟩ := reader_bind_eq_ok.1 h
  simp only at h
  split at h
  · next hvalid =>
    obtain ⟨rfl, rfl⟩ := Prod.mk.inj (Except.ok.inj h)
    obtain ⟨hlt, rfl⟩ := digits_eq_ok.1 hyear
    obtain ⟨_, hc, rfl⟩ := oneOf_eq_ok.1 hhyphen
    obtain ⟨-, rfl⟩ := digits_eq_ok.1 hmonth
    obtain ⟨_, hc', rfl⟩ := oneOf_eq_ok.1 hhyphen'
    obtain ⟨-, rfl⟩ := digits_eq_ok.1 hday
    obtain rfl := List.mem_singleton.1 hc
    obtain rfl := List.mem_singleton.1 hc'
    exact ⟨year, month, day, hlt, rfl, hvalid, rfl⟩
  · cases h

theorem clock_eq_ok {c : Clock} {text rest : List Char} (h : clock text = .ok (c, rest)) :
    ∃ (hour minute second : Nat) (found : List Char), (∀ d ∈ found, d.isDigit = true) ∧
      c = ⟨hour, minute, second, Decimal.toNat found * 1000000000 / 10 ^ found.length⟩ ∧
      c.IsValid ∧ text = padded 2 hour ++ ':' :: (padded 2 minute ++ ':' :: (padded 2 second ++
        ((if found = [] then [] else '.' :: found) ++ rest))) := by
  unfold clock at h
  obtain ⟨hour, left₁, hhour, h⟩ := reader_bind_eq_ok.1 h
  obtain ⟨_, left₂, hcolon, h⟩ := reader_bind_eq_ok.1 h
  obtain ⟨minute, left₃, hminute, h⟩ := reader_bind_eq_ok.1 h
  obtain ⟨_, left₄, hcolon', h⟩ := reader_bind_eq_ok.1 h
  obtain ⟨second, left₅, hsecond, h⟩ := reader_bind_eq_ok.1 h
  obtain ⟨nano, left₆, hfraction, h⟩ := reader_bind_eq_ok.1 h
  simp only at h
  split at h
  · next hvalid =>
    obtain ⟨rfl, rfl⟩ := Prod.mk.inj (Except.ok.inj h)
    obtain ⟨-, rfl⟩ := digits_eq_ok.1 hhour
    obtain ⟨_, hc, rfl⟩ := oneOf_eq_ok.1 hcolon
    obtain ⟨-, rfl⟩ := digits_eq_ok.1 hminute
    obtain ⟨_, hc', rfl⟩ := oneOf_eq_ok.1 hcolon'
    obtain ⟨-, rfl⟩ := digits_eq_ok.1 hsecond
    obtain ⟨found, hfound, rfl, rfl⟩ := fraction_eq_ok hfraction
    obtain rfl := List.mem_singleton.1 hc
    obtain rfl := List.mem_singleton.1 hc'
    exact ⟨hour, minute, second, found, hfound, rfl, hvalid, rfl⟩
  · cases h

theorem clock_spelled {hour minute second : Nat} {found : List Char}
    (h : ∀ d ∈ found, d.isDigit = true)
    (hvalid : (⟨hour, minute, second, Decimal.toNat found * 1000000000 / 10 ^ found.length⟩ :
      Clock).IsValid)
    {c : Char} (hc : c.isDigit = false) (hpoint : c ≠ '.') (rest : List Char) :
    clock (padded 2 hour ++ ':' :: (padded 2 minute ++ ':' :: (padded 2 second ++
        ((if found = [] then [] else '.' :: found) ++ c :: rest)))) =
      .ok (⟨hour, minute, second, Decimal.toNat found * 1000000000 / 10 ^ found.length⟩,
        c :: rest) := by
  obtain ⟨hhour, hminute, hsecond, hnano⟩ := hvalid
  have colon (left : List Char) : oneOf [':'] (':' :: left) = .ok ((), left) :=
    oneOf_cons List.mem_cons_self left
  have two {n : Nat} (hn : n < 100) (left : List Char) :
      digits 2 (padded 2 n ++ left) = .ok (n, left) := digits_padded hn left
  simp only at hhour hminute hsecond
  unfold clock
  refine reader_bind_eq_ok.2 ⟨hour, _, two (by omega) _, ?_⟩
  refine reader_bind_eq_ok.2 ⟨(), _, colon _, ?_⟩
  refine reader_bind_eq_ok.2 ⟨minute, _, two (by omega) _, ?_⟩
  refine reader_bind_eq_ok.2 ⟨(), _, colon _, ?_⟩
  refine reader_bind_eq_ok.2 ⟨second, _, two (by omega) _, ?_⟩
  refine reader_bind_eq_ok.2 ⟨_, _, fraction_spelled h hc hpoint rest, ?_⟩
  simp only
  rw [if_pos ⟨hhour, hminute, hsecond, hnano⟩]
  rfl

end Stamp

/-! ## Local times -/

namespace Time

/-- The days of the years 0 to 9999 lie far from the first and the last day. -/
theorem toDay_bounds {d : Date} (hvalid : d.IsValid) (hyear : 0 ≤ d.year ∧ d.year ≤ 9999) :
    -800000 < d.toDay ∧ d.toDay < 4000000 := by
  obtain ⟨-, hmonth, hday, hle⟩ := hvalid
  have months : ∀ leap, ∀ month ≤ 12, daysBeforeMonth leap month ≤ 366 := by decide
  have days : ∀ leap, ∀ i < 12, (monthLengths leap).getD i 0 ≤ 31 := by decide
  have hmonths := months (isLeap d.year) d.month hmonth
  have hdays := days (isLeap d.year) (d.month - 1) (by omega)
  unfold Date.toDay daysBeforeYear daysToEpoch
  omega

/-- The instant of a local time of the years 0 to 9999, counted in seconds. -/
theorem toInstant?_eq_some {d : Date} {c : Clock} {offset : Int} {t : Instant}
    (hyear : 0 ≤ d.year ∧ d.year ≤ 9999) (hoffset : -1440 < offset ∧ offset < 1440) :
    toInstant? d c offset = some t ↔ (d.IsValid ∧ c.IsValid) ∧
      t.day * 86400 + t.second = d.toDay * 86400 + c.secondOfDay - offset * 60 ∧
      t.nano = c.nanoOfSecond := by
  unfold toInstant?
  by_cases hvalid : d.IsValid ∧ c.IsValid
  · have hday := toDay_bounds hvalid.1 hyear
    have hfirst : Instant.firstDay = -96465292 := rfl
    have hlast : Instant.lastDay = 95026236 := rfl
    obtain ⟨hhour, hminute, hsecond, hnano⟩ := hvalid.2
    have hseconds : c.secondOfDay < 86400 := by
      unfold Clock.secondOfDay
      omega
    have hsecond' : (((c.secondOfDay : Int) - 60 * offset) % 86400).toNat < 86400 := by omega
    -- offsets are whole minutes, so that a leap second stays at the end of a minute
    have hleap : c.nanoOfSecond < 1000000000 ∨ c.nanoOfSecond < 2000000000 ∧
        (((c.secondOfDay : Int) - 60 * offset) % 86400).toNat % 60 = 59 := by
      unfold Clock.nanoOfSecond Clock.secondOfDay
      split <;> omega
    rw [if_pos hvalid]
    simp only
    rw [if_pos (by omega), Instant.of?, dif_pos ⟨by omega, hsecond', hleap⟩, Option.some.injEq]
    have ht := t.second_lt
    constructor
    · rintro rfl
      refine ⟨hvalid, ?_, rfl⟩
      simp only
      omega
    · rintro ⟨-, hsum, hnanos⟩
      apply Instant.ticks_injective
      simp only [Instant.ticks]
      omega
  · simp [hvalid]

end Time

namespace Stamp

/-! ## Reading a stamp -/

theorem decode_steps {text : String} {t : Instant} : decode text = .ok t ↔
    ¬ text.utf8ByteSize < 19 ∧ ∃ d c offset left₁ left₂ left₃,
      date text.toList = .ok (d, left₁) ∧ oneOf ['T', 't', ' '] left₁ = .ok ((), left₂) ∧
      clock left₂ = .ok (c, left₃) ∧ Stamp.offset left₃ = .ok (offset, []) ∧
      isOffset offset = true ∧ toInstant? d c offset = some t := by
  unfold decode
  constructor
  · intro h
    split at h
    · cases h
    · next hsize =>
      obtain ⟨d, left₁, hdate, h⟩ := step_eq_ok.1 h
      obtain ⟨_, left₂, hseparator, h⟩ := step_eq_ok.1 h
      obtain ⟨c, left₃, hclock, h⟩ := step_eq_ok.1 h
      obtain ⟨minutes, left₄, hoffset, h⟩ := step_eq_ok.1 h
      simp only at h
      split at h
      · next hend =>
        split at h
        · next hless =>
          split at h
          · next u hinstant =>
            obtain rfl := Except.ok.inj h
            obtain rfl := List.isEmpty_iff.1 hend
            exact ⟨hsize, d, c, minutes, left₁, left₂, left₃, hdate, hseparator, hclock, hoffset,
              hless, hinstant⟩
          · cases h
        · cases h
      · cases h
  · rintro ⟨hsize, d, c, minutes, left₁, left₂, left₃, hdate, hseparator, hclock, hoffset, hless,
      hinstant⟩
    rw [if_neg hsize]
    refine step_eq_ok.2 ⟨d, left₁, hdate, step_eq_ok.2 ⟨(), left₂, hseparator, ?_⟩⟩
    refine step_eq_ok.2 ⟨c, left₃, hclock, step_eq_ok.2 ⟨minutes, [], hoffset, ?_⟩⟩
    simp [hless, hinstant, pure, Except.pure]

theorem Spelling.length_text (s : Spelling) : 19 ≤ s.text.length := by
  simp only [text, timeText, List.length_append, List.length_cons, length_padded]
  omega

/-- An offset begins with no digit and no point, so that the fraction ends before it. -/
theorem Zone.text_eq_cons {zone : Zone} (h : zone.IsProper) :
    ∃ c rest, zone.text = c :: rest ∧ c.isDigit = false ∧ c ≠ '.' := by
  cases zone with
  | universal letter =>
    refine ⟨letter, [], rfl, ?_⟩
    rcases List.mem_pair.1 h with rfl | rfl <;> exact ⟨rfl, by decide⟩
  | east hours mins => exact ⟨'+', _, rfl, rfl, by decide⟩
  | west sign hours mins =>
    refine ⟨sign, _, rfl, ?_⟩
    rcases List.mem_pair.1 h.1 with rfl | rfl <;> exact ⟨rfl, by decide⟩

theorem isOffset_iff {offset : Int} : isOffset offset = true ↔ -1440 < offset ∧ offset < 1440 := by
  simp [isOffset]

/-- **The strict reader takes exactly the spellings** that mean an instant, for that instant. -/
theorem decode_eq_ok_iff {text : String} {t : Instant} :
    decode text = .ok t ↔ ∃ s : Spelling, s.IsProper ∧ s.text = text.toList ∧ s.Means t := by
  rw [decode_steps]
  constructor
  · rintro ⟨-, d, c, minutes, left₁, left₂, left₃, hdate, hseparator, hclock, hoffset, hless,
      hinstant⟩
    obtain ⟨year, month, day, hyear, rfl, -, htext⟩ := date_eq_ok hdate
    obtain ⟨separator, hallowed, rfl⟩ := oneOf_eq_ok.1 hseparator
    obtain ⟨hour, minute, second, found, hfound, rfl, -, rfl⟩ := clock_eq_ok hclock
    obtain ⟨zone, hzone, rfl, rfl⟩ := offset_eq_ok.1 hoffset
    have hless := isOffset_iff.1 hless
    have hyear' : (0 : Int) ≤ year ∧ (year : Int) ≤ 9999 := by omega
    obtain ⟨⟨hvalid, hvalid'⟩, hseconds, hnano⟩ := (toInstant?_eq_some hyear' hless).1 hinstant
    refine ⟨⟨year, month, day, separator, hour, minute, second, found, zone⟩,
      ⟨hyear, hallowed, hfound, hzone⟩, ?_, ⟨hvalid, hvalid', hless, hseconds, hnano⟩⟩
    rw [htext, List.append_nil]
    rfl
  · rintro ⟨s, hproper, htext, hmeans⟩
    have hlength := length_le_utf8ByteSize text.toList
    rw [String.ofList_toList, ← htext] at hlength
    have hlong := s.length_text
    have hvalid := hmeans.date
    obtain ⟨c, rest, hzone, hc, hpoint⟩ := Zone.text_eq_cons hproper.zone
    have hyear := hproper.year
    have hyear' : 0 ≤ s.date.year ∧ s.date.year ≤ 9999 := by
      simp only [Spelling.date]
      omega
    have days : ∀ leap, ∀ i < 12, (monthLengths leap).getD i 0 ≤ 31 := by decide
    obtain ⟨-, hmonth, -, hday⟩ := hvalid
    have hday := hday.trans (days _ _ (by omega))
    refine ⟨by omega, s.date, s.clock, s.zone.minutes, s.separator :: s.timeText, s.timeText,
      s.zone.text, ?_, oneOf_cons hproper.separator _, ?_, ?_, isOffset_iff.2 hmeans.offset, ?_⟩
    · have hmonth' : s.month < 100 := Nat.lt_of_le_of_lt hmonth (by decide)
      have hday' : s.day < 100 := Nat.lt_of_le_of_lt hday (by decide)
      rw [← htext]
      exact date_padded hyear hmonth' hday' hmeans.date _
    · rw [Spelling.timeText, hzone]
      exact clock_spelled hproper.fraction hmeans.clock hc hpoint rest
    · exact offset_eq_ok.2 ⟨s.zone, hproper.zone, rfl, (List.append_nil _).symm⟩
    · exact (toInstant?_eq_some hyear' hmeans.offset).2
        ⟨⟨hmeans.date, hmeans.clock⟩, hmeans.seconds, hmeans.nano⟩

end Stamp

end Syndication
