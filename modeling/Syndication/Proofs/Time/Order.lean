import Mathlib
import Syndication.Time.Instant
/-!
# Instants in order

The order of instants is that of one number, `Instant.ticks`, so that facts about it are facts of
arithmetic. Truncation keeps the order weakly, and the clock value that follows another is strictly
later, also when both are seen at the precision of a store (`truncate_lt_of_advance?`).
-/

namespace Syndication.Instant

/-! ## One number for an instant -/

/-- The place of an instant in the order. A second has room for the leap second after it. -/
def ticks (t : Instant) : Int := (t.day * 86400 + t.second) * 2000000000 + t.nano

theorem nano_lt_two (t : Instant) : t.nano < 2000000000 := by
  have := t.nano_lt
  omega

theorem ticks_injective {a b : Instant} (h : a.ticks = b.ticks) : a = b := by
  have ha := a.second_lt
  have hb := b.second_lt
  have ha' := a.nano_lt_two
  have hb' := b.nano_lt_two
  unfold ticks at h
  obtain ⟨day, second, nano, _, _, _, _⟩ := a
  obtain ⟨day', second', nano', _, _, _, _⟩ := b
  obtain ⟨rfl, rfl, rfl⟩ : day = day' ∧ second = second' ∧ nano = nano' := by
    simp only at *
    omega
  rfl

theorem lt_iff_ticks {a b : Instant} : a < b ↔ a.ticks < b.ticks := by
  have ha := a.second_lt
  have hb := b.second_lt
  have ha' := a.nano_lt_two
  have hb' := b.nano_lt_two
  change a.day < b.day ∨ a.day = b.day ∧
    (a.second < b.second ∨ a.second = b.second ∧ a.nano < b.nano) ↔ _
  unfold ticks
  omega

theorem le_iff_ticks {a b : Instant} : a ≤ b ↔ a.ticks ≤ b.ticks := by
  change ¬ b < a ↔ _
  rw [lt_iff_ticks]
  omega

protected theorem lt_irrefl (a : Instant) : ¬ a < a := by
  rw [lt_iff_ticks]
  omega

protected theorem lt_trans {a b c : Instant} (hab : a < b) (hbc : b < c) : a < c := by
  rw [lt_iff_ticks] at *
  omega

protected theorem lt_of_le_of_lt {a b c : Instant} (hab : a ≤ b) (hbc : b < c) : a < c := by
  rw [le_iff_ticks] at hab
  rw [lt_iff_ticks] at *
  omega

protected theorem le_refl (a : Instant) : a ≤ a := Instant.lt_irrefl a

protected theorem le_trans {a b c : Instant} (hab : a ≤ b) (hbc : b ≤ c) : a ≤ c := by
  rw [le_iff_ticks] at *
  omega

protected theorem le_antisymm {a b : Instant} (hab : a ≤ b) (hba : b ≤ a) : a = b := by
  rw [le_iff_ticks] at hab hba
  exact ticks_injective (by omega)

/-! ## Whole microseconds -/

/-- The instant has no part finer than a microsecond. -/
def IsWhole (t : Instant) : Prop := t.nano % 1000 = 0

instance (t : Instant) : Decidable t.IsWhole := inferInstanceAs (Decidable (_ = _))

theorem isWhole_truncate (t : Instant) : t.truncate.IsWhole := by
  change (t.nano - t.nano % 1000) % 1000 = 0
  omega

theorem truncate_eq_self {t : Instant} (h : t.IsWhole) : t.truncate = t := by
  apply ticks_injective
  change t.nano % 1000 = 0 at h
  simp [ticks, truncate, h]

theorem truncate_le (t : Instant) : t.truncate ≤ t := by
  rw [le_iff_ticks]
  simp only [ticks, truncate]
  omega

theorem truncate_mono {t u : Instant} (h : t ≤ u) : t.truncate ≤ u.truncate := by
  have ht := t.nano_lt_two
  have hu := u.nano_lt_two
  rw [le_iff_ticks] at *
  simp only [ticks, truncate] at *
  omega

/-! ## The clock value that follows -/

theorem of?_eq_some {day : Int} {second nano : Nat} {t : Instant}
    (h : of? day second nano = some t) : t.day = day ∧ t.second = second ∧ t.nano = nano := by
  unfold of? at h
  split at h
  · obtain rfl := Option.some.inj h
    exact ⟨rfl, rfl, rfl⟩
  · cases h

theorem ticks_of_of? {day : Int} {second nano : Nat} {t : Instant}
    (h : of? day second nano = some t) :
    t.ticks = (day * 86400 + second) * 2000000000 + nano := by
  obtain ⟨rfl, rfl, rfl⟩ := of?_eq_some h
  rfl

/-- The second after `t`, whichever day it belongs to. -/
theorem ticks_of_nextSecond? {t u : Instant} {nano : Nat} (h : t.nextSecond? nano = some u) :
    u.ticks = (t.day * 86400 + t.second + 1) * 2000000000 + nano := by
  have hs := t.second_lt
  unfold nextSecond? at h
  split at h
  · rw [ticks_of_of? h]
    omega
  · rw [ticks_of_of? h]
    omega

theorem nano_of_nextSecond? {t u : Instant} {nano : Nat} (h : t.nextSecond? nano = some u) :
    u.nano = nano := by
  unfold nextSecond? at h
  split at h <;> exact (of?_eq_some h).2.2

/-- One microsecond later is within the second or in the next one. -/
theorem tick?_cases {t u : Instant} (h : t.tick? = some u) :
    (u.ticks = t.ticks + 1000 ∧ u.nano = t.nano + 1000) ∨
      u.ticks = (t.day * 86400 + t.second + 1) * 2000000000 + u.nano ∧
        (u.nano + 1000000000 = t.nano + 1000 ∨ u.nano + 2000000000 = t.nano + 1000) := by
  unfold tick? at h
  split at h
  · split at h
    · refine .inl ⟨?_, (of?_eq_some h).2.2⟩
      rw [ticks_of_of? h, ticks]
      omega
    · refine .inr ⟨?_, .inl ?_⟩
      · rw [ticks_of_nextSecond? h, nano_of_nextSecond? h]
      · rw [nano_of_nextSecond? h]
        omega
  · split at h
    · refine .inl ⟨?_, (of?_eq_some h).2.2⟩
      rw [ticks_of_of? h, ticks]
      omega
    · refine .inr ⟨?_, .inr ?_⟩
      · rw [ticks_of_nextSecond? h, nano_of_nextSecond? h]
      · rw [nano_of_nextSecond? h]
        omega

theorem exists_of? {day : Int} {second nano : Nat} (hday : firstDay ≤ day ∧ day ≤ lastDay)
    (hsecond : second < 86400)
    (hnano : nano < 1000000000 ∨ nano < 2000000000 ∧ second % 60 = 59) :
    ∃ t, of? day second nano = some t := by
  unfold of?
  rw [dif_pos ⟨hday, hsecond, hnano⟩]
  exact ⟨_, rfl⟩

/-- Only the last day has an instant without a next one. -/
theorem exists_tick? {t : Instant} (h : t.day < lastDay) : ∃ u, t.tick? = some u := by
  have hfirst := t.firstDay_le
  have hlast := t.le_lastDay
  have hsecond := t.second_lt
  have hnano := t.nano_lt
  have hnext {nano : Nat} (hnano : nano < 1000000000) : ∃ u, t.nextSecond? nano = some u := by
    unfold nextSecond?
    split
    · next hlt => exact exists_of? ⟨hfirst, hlast⟩ hlt (.inl hnano)
    · exact exists_of? ⟨by omega, by omega⟩ (by decide) (.inl hnano)
  unfold tick?
  split
  · split
    · next hlt => exact exists_of? ⟨hfirst, hlast⟩ hsecond (.inl hlt)
    · exact hnext (by omega)
  · split
    · next hlt => exact exists_of? ⟨hfirst, hlast⟩ hsecond (.inr ⟨hlt, by omega⟩)
    · exact hnext (by omega)

theorem exists_advance? {t : Instant} (h : t.day < lastDay) (now : Instant) :
    ∃ u, advance? t now = some u := by
  unfold advance?
  split
  · exact ⟨now, rfl⟩
  · exact exists_tick? h

theorem lt_of_tick? {t u : Instant} (h : t.tick? = some u) : t < u := by
  have hn := t.nano_lt_two
  rw [lt_iff_ticks]
  rcases tick?_cases h with ⟨h, -⟩ | ⟨h, -⟩
  · omega
  · rw [h, ticks]
    omega

theorem truncate_lt_of_tick? {t u : Instant} (h : t.tick? = some u) :
    t.truncate < u.truncate := by
  have hn := t.nano_lt_two
  rw [lt_iff_ticks]
  have trunc (v : Instant) : v.truncate.ticks = v.ticks - (v.nano % 1000 : Nat) := by
    simp only [ticks, truncate]
    omega
  rw [trunc, trunc]
  rcases tick?_cases h with ⟨h, hnano⟩ | ⟨h, hnano⟩
  · omega
  · rw [h, ticks]
    omega

theorem isWhole_of_tick? {t u : Instant} (ht : t.IsWhole) (h : t.tick? = some u) :
    u.IsWhole := by
  unfold IsWhole at *
  rcases tick?_cases h with ⟨-, h⟩ | ⟨-, h⟩ <;> omega

theorem truncate_lt_of_advance? {t now u : Instant} (hnow : now.IsWhole)
    (h : advance? t now = some u) : t.truncate < u.truncate := by
  unfold advance? at h
  split at h
  · next hlt =>
    obtain rfl := Option.some.inj h
    rw [truncate_eq_self hnow]
    exact Instant.lt_of_le_of_lt t.truncate_le hlt
  · exact truncate_lt_of_tick? h

theorem isWhole_of_advance? {t now u : Instant} (ht : t.IsWhole) (hnow : now.IsWhole)
    (h : advance? t now = some u) : u.IsWhole := by
  unfold advance? at h
  split at h
  · exact Option.some.inj h ▸ hnow
  · exact isWhole_of_tick? ht h

theorem lt_of_advance? {t now u : Instant} (h : advance? t now = some u) : t < u := by
  unfold advance? at h
  split at h
  · next hlt => exact Option.some.inj h ▸ hlt
  · exact lt_of_tick? h

/-- When the value that follows `t` at the time `now` is past `old`: the time itself is, or the
clock has to tick and the tick is. -/
theorem lt_advance?_iff {t now u old : Instant} (h : advance? t now = some u) :
    old < u ↔ old < now ∨ now ≤ t ∧ ∃ next, t.tick? = some next ∧ old < next := by
  unfold advance? at h
  split at h
  · next hlt =>
    obtain rfl := Option.some.inj h
    exact ⟨.inl, fun h => h.elim id fun h => absurd hlt h.1⟩
  · next hle =>
    refine ⟨fun hu => .inr ⟨hle, u, h, hu⟩, ?_⟩
    rintro (hnow | ⟨-, next, hnext, hold⟩)
    · have := lt_of_tick? h
      rw [lt_iff_ticks] at *
      omega
    · obtain rfl := Option.some.inj (h.symm.trans hnext)
      exact hold

end Syndication.Instant
