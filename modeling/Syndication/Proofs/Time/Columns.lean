import Syndication.Proofs.Time.Spelling
import Syndication.Proofs.Time.TextOrder
/-!
# Columns of stamps

Stores keep instants as stamps and compare the columns byte by byte. In the years 0 to 9999, leap
seconds included, a stamp is 27 characters of one byte each; the order of the bytes is the order in
time at the precision of a store; and a stamp reads back at this precision, whether the instant was
taken from a clock or read from a text in any spelling (`Instant.stamps_faithful`).
-/

namespace Syndication

open Time Decimal

/-! ## Bytes -/

/-- The bytes of a text. -/
def bytes (text : String) : List UInt8 := text.toByteArray.data.toList

/-- Texts in the order of their bytes. -/
def compareBytes (a b : String) : Ordering := compareOfLessAndEq (bytes a) (bytes b)

theorem bytes_injective {a b : String} (h : bytes a = bytes b) : a = b :=
  String.toByteArray_inj.1 (ByteArray.ext (Array.toList_inj.1 h))

theorem length_bytes (text : String) : (bytes text).length = text.utf8ByteSize := rfl

/-- Characters below 128 are their bytes. -/
theorem bytes_ofList {text : List Char} (h : ∀ c ∈ text, c.toNat < 128) :
    bytes (String.ofList text) = text.map Char.toUInt8 := by
  have hbytes : bytes (String.ofList text) = text.flatMap String.utf8EncodeChar := by
    simp [bytes, List.utf8Encode]
  rw [hbytes]
  clear hbytes
  induction text with
  | nil => rfl
  | cons c text ih =>
    have hc : String.utf8EncodeChar c = [c.toUInt8] :=
      if_pos (Nat.lt_succ_iff.1 (h c List.mem_cons_self))
    rw [List.flatMap_cons, hc, ih fun d hd => h d (List.mem_cons_of_mem _ hd)]
    rfl

theorem toNat_toUInt8 {c : Char} (h : c.toNat < 128) : c.toUInt8.toNat = c.toNat := by
  have : c.toUInt8.toNat = c.toNat % 256 := rfl
  omega

theorem toUInt8_lt_toUInt8 {c d : Char} (hc : c.toNat < 128) (hd : d.toNat < 128) :
    c.toUInt8 < d.toUInt8 ↔ c < d := by
  rw [UInt8.lt_iff_toNat_lt, toNat_toUInt8 hc, toNat_toUInt8 hd]
  rfl

theorem toUInt8_inj {c d : Char} (hc : c.toNat < 128) (hd : d.toNat < 128) :
    c.toUInt8 = d.toUInt8 ↔ c = d := by
  rw [← UInt8.toNat_inj, toNat_toUInt8 hc, toNat_toUInt8 hd, Char.toNat_inj]

/-- Bytes of characters below 128 are in the order of the characters. -/
theorem map_toUInt8_lt {a b : List Char} (ha : ∀ c ∈ a, c.toNat < 128)
    (hb : ∀ c ∈ b, c.toNat < 128) :
    a.map Char.toUInt8 < b.map Char.toUInt8 ↔ a < b := by
  induction a generalizing b with
  | nil => cases b <;> simp
  | cons c a ih =>
    cases b with
    | nil => simp
    | cons d b =>
      have hc := ha c List.mem_cons_self
      have hd := hb d List.mem_cons_self
      have hrest := ih (fun x hx => ha x (List.mem_cons_of_mem _ hx))
        fun x hx => hb x (List.mem_cons_of_mem _ hx)
      rw [List.map_cons, List.map_cons, List.cons_lt_cons_iff, List.cons_lt_cons_iff,
        toUInt8_lt_toUInt8 hc hd, toUInt8_inj hc hd, hrest]

/-! ## Stamps -/

namespace Instant

theorem toNat_lt_of_isDigit {c : Char} (h : c.isDigit = true) : c.toNat < 128 := by
  obtain ⟨-, hhigh⟩ : 48 ≤ c.toNat ∧ c.toNat ≤ 57 := by
    simpa [Char.isDigit, UInt32.le_iff_toNat_le] using h
  omega

/-- A stamp consists of digits and a few marks. -/
theorem toNat_lt_of_mem_stamp {t : Instant} (h : t.InYears) :
    ∀ c ∈ t.stamp.toList, c.toNat < 128 := by
  have digits (width n : Nat) : ∀ c ∈ padded width n, c.toNat < 128 := fun c hc =>
    toNat_lt_of_isDigit (isDigit_of_mem_padded hc)
  rw [stamp_eq, String.toList_ofList, yearText_of_mem h, stampTail]
  simp only [List.forall_mem_append, List.forall_mem_cons]
  exact ⟨digits _ _, by decide, digits _ _, by decide, digits _ _, by decide, digits _ _, by decide,
    digits _ _, by decide, digits _ _, by decide, digits _ _, by decide, by simp⟩

theorem bytes_stamp {t : Instant} (h : t.InYears) :
    bytes t.stamp = t.stamp.toList.map Char.toUInt8 := by
  conv_lhs => rw [← String.ofList_toList (s := t.stamp)]
  exact bytes_ofList (toNat_lt_of_mem_stamp h)

theorem length_stamp {t : Instant} (h : t.InYears) : t.stamp.length = 27 := by
  rw [← String.length_toList, stamp_eq, String.toList_ofList, yearText_of_mem h,
    List.length_append, length_padded, length_stampTail]

theorem utf8ByteSize_stamp {t : Instant} (h : t.InYears) : t.stamp.utf8ByteSize = 27 := by
  rw [← length_bytes, bytes_stamp h, List.length_map, String.length_toList, length_stamp h]

/-- The bytes of stamps compare as the instants do at the precision of a store. -/
theorem compareBytes_stamp {t u : Instant} (ht : t.InYears) (hu : u.InYears) :
    compareBytes t.stamp u.stamp = compareOfLessAndEq t.truncate u.truncate := by
  have hlt : bytes t.stamp < bytes u.stamp ↔ t.truncate < u.truncate := by
    rw [bytes_stamp ht, bytes_stamp hu,
      map_toUInt8_lt (toNat_lt_of_mem_stamp ht) (toNat_lt_of_mem_stamp hu), ← String.lt_iff,
      stamp_lt_stamp ht hu]
  have heq : bytes t.stamp = bytes u.stamp ↔ t.truncate = u.truncate :=
    ⟨fun h => truncate_eq_of_stamp_eq (bytes_injective h), fun h => by
      rw [← stamp_truncate t, h, stamp_truncate]⟩
  simp only [compareBytes, compareOfLessAndEq, hlt, heq]

/-- **Stamps are faithful columns.** In the years 0 to 9999 a stamp is 27 characters of one byte
each; stamps compare byte by byte as their instants do at the precision of a store; and a stamp
reads back at this precision. The strict reader takes a text exactly if the text spells an instant,
and the stamp of what it read reads back likewise. -/
theorem stamps_faithful {t u : Instant} (ht : t.InYears) (hu : u.InYears) (text : String)
    (v : Instant) :
    (t.stamp.length = 27 ∧ t.stamp.utf8ByteSize = 27) ∧
    compareBytes t.stamp u.stamp = compareOfLessAndEq t.truncate u.truncate ∧
    Stamp.decode t.stamp = .ok t.truncate ∧
    (Stamp.decode text = .ok v ↔
      ∃ s : Stamp.Spelling, s.IsProper ∧ s.text = text.toList ∧ s.Means v) ∧
    (Stamp.decode text = .ok v → v.InYears → Stamp.decode v.stamp = .ok v.truncate) :=
  ⟨⟨length_stamp ht, utf8ByteSize_stamp ht⟩, compareBytes_stamp ht hu, decode_stamp ht,
    Stamp.decode_eq_ok_iff, fun _ hv => decode_stamp hv⟩

/-- Within the leap second at the end of 2016. -/
def leapSecond : Instant :=
  ⟨17166, 86400 - 1, 1123456700, by decide, by decide, by decide, by decide⟩

/-- The second after it. -/
def afterLeapSecond : Instant :=
  { Instant.epoch with day := 17167, firstDay_le := by decide, le_lastDay := by decide }

/-- A leap second read in the evening before, five hours west, is stamped before the new year and
reads back. -/
theorem stamps_faithful_leapSecond :
    (leapSecond.InYears ∧ afterLeapSecond.InYears) ∧ leapSecond.stamp.utf8ByteSize = 27 ∧
    compareBytes leapSecond.stamp afterLeapSecond.stamp = .lt ∧
    Stamp.decode leapSecond.stamp = .ok leapSecond.truncate ∧
    Stamp.decode "2016-12-31t18:59:60.1234567-05:00" = .ok leapSecond ∧
    ∃ s : Stamp.Spelling, s.IsProper ∧ s.text = "2016-12-31t18:59:60.1234567-05:00".toList ∧
      s.Means leapSecond := by
  have ht : leapSecond.InYears := by decide +kernel
  have hu : afterLeapSecond.InYears := by decide +kernel
  have hread : Stamp.decode "2016-12-31t18:59:60.1234567-05:00" = .ok leapSecond := by
    decide +kernel
  obtain ⟨⟨-, hsize⟩, horder, hdecode, hspelled, -⟩ :=
    stamps_faithful ht hu "2016-12-31t18:59:60.1234567-05:00" leapSecond
  have hlt : compareOfLessAndEq leapSecond.truncate afterLeapSecond.truncate = .lt := by
    decide +kernel
  exact ⟨⟨ht, hu⟩, hsize, horder.trans hlt, hdecode, hread, hspelled.1 hread⟩

end Instant

end Syndication
