import Mathlib
import Syndication.Feed.Payload
import Syndication.Proofs.Codec.Member
/-!
# Payloads read back

A payload at rest is read back as it was, whatever its size (`Payload.roundTrips_ofRaw`). Which gzip
member of a large payload is stored does not matter: with any writer of members in the place of
`Gzip.write` the same is true (`Payload.roundTrips_ofRawWith`).
-/

namespace Syndication.Payload

open Codec

/-- A stored form gives the payload back: by its flag, by force if it has been compressed or is
empty, and as it is stored if nothing is to be decompressed. -/
structure RoundTrips (raw : List UInt8) (p : Payload) : Prop where
  isGzipped_iff : p.isGzipped ↔ 1024 ≤ raw.length
  contents_none : p.contents none = .ok raw
  contents_true : p.isGzipped ∨ raw = [] → p.contents (some true) = .ok raw
  contents_false : p.contents (some false) = .ok p.bytes

theorem contents_false (p : Payload) : p.contents (some false) = .ok p.bytes := by
  simp [contents]

/-- A small payload is stored as it is. -/
theorem roundTrips_plain {raw : List UInt8} (h : raw.length < threshold) :
    RoundTrips raw ⟨raw, false⟩ where
  isGzipped_iff := by
    have hlt : raw.length < 1024 := h
    simp only [Bool.false_eq_true, false_iff]
    omega
  contents_none := by simp [contents]
  contents_true := by
    rintro (h | rfl)
    · cases h
    · rfl
  contents_false := contents_false _

/-- Members are not empty, so they are always decompressed. -/
theorem contents_member {raw member : List UInt8} (h : Gzip.IsMember raw member)
    {decompress : Option Bool} (hdecompress : decompress.getD true = true) :
    contents ⟨member, true⟩ decompress = .ok raw := by
  have hread := Gzip.read_member h []
  rw [List.append_nil] at hread
  rw [contents, h.isEmpty_eq, hdecompress]
  exact hread

/-- A large payload is stored as a member. -/
theorem roundTrips_member {raw member : List UInt8} (h : threshold ≤ raw.length)
    (hmember : Gzip.IsMember raw member) : RoundTrips raw ⟨member, true⟩ where
  isGzipped_iff := iff_of_true rfl h
  contents_none := contents_member hmember rfl
  contents_true _ := contents_member hmember rfl
  contents_false := contents_false _

theorem roundTrips_ofRawWith {compress : List UInt8 → List UInt8}
    (hcompress : Gzip.WritesMembers compress) (raw : List UInt8) :
    RoundTrips raw (ofRawWith compress raw) := by
  unfold ofRawWith
  split
  · next h => exact roundTrips_plain h
  · next h => exact roundTrips_member (Nat.le_of_not_lt h) (hcompress raw)

/-- **Payloads read back** as they were stored, whatever writes the members. -/
theorem roundTrips_ofRaw (raw : List UInt8) :
    RoundTrips raw (ofRaw raw) ∧ ∀ write : List UInt8 → List UInt8,
      (∀ data, Gzip.IsMember data (write data)) → RoundTrips raw (ofRawWith write raw) :=
  ⟨roundTrips_ofRawWith Gzip.isMember_write raw, fun _ hwrite => roundTrips_ofRawWith hwrite raw⟩

/-! ## A compressed payload -/

open Deflate Huffman Bits

/-- Zeros, as many as are compressed. -/
def zeros : List UInt8 := List.replicate 1024 0

/-- The stream that a compressor makes of the zeros: two literals and four matches. -/
def zerosStream : List UInt8 := [99, 96, 24, 5, 163, 96, 20, 140, 84, 0, 0]

/-- A writer that compresses the zeros and stores everything else. -/
def writeZeros (data : List UInt8) : List UInt8 :=
  if data = zeros then Gzip.plainHeader ++ (zerosStream ++ Gzip.trailer zeros)
  else Gzip.write data

/-- Equal bytes are copies of the one before them. -/
theorem isCopy_replicate {count : Nat} (hcount : 0 < count) (more : Nat) (byte : UInt8) :
    IsCopy 1 (List.replicate count byte) (List.replicate more byte) := by
  refine ⟨Nat.one_pos, by rwa [List.length_replicate], fun i hi => ?_⟩
  rw [List.length_replicate] at hi
  rw [List.replicate_append_replicate, List.length_replicate, List.getElem?_replicate,
    List.getElem?_replicate, if_pos (by omega), if_pos (by omega)]

/-- More zeros by one match. -/
theorem symbols_zeros {count more i : Nat} (hcount : 0 < count) {after : List UInt8}
    {word extra bits : List Bool} (hword : IsWord fixedCodes.literals (257 + i) word)
    (hlength : IsExtended lengths i more extra)
    (rest : Symbols fixedCodes (List.replicate (count + more) 0) bits after) :
    Symbols fixedCodes (List.replicate count 0)
      (word ++ (extra ++ (List.replicate 5 false ++ ([] ++ bits)))) after := by
  have hfar : IsWord fixedCodes.distances 0 (List.replicate 5 false) :=
    ⟨by decide, by decide, by decide, by decide⟩
  have hdistance : IsExtended distances 0 1 [] := @IsExtended.add _ _ 1 0 0 rfl (by decide)
  refine .copy hword ?_ hfar hdistance (isCopy_replicate hcount more 0) ?_
  · rwa [List.length_replicate]
  · rwa [List.replicate_append_replicate]

theorem isStream_zeros : IsStream zeros zerosStream := by
  have hzero : IsWord fixedCodes.literals (0 : UInt8).toNat
      [false, false, true, true, false, false, false, false] :=
    ⟨by decide +kernel, by decide, by decide, by decide +kernel⟩
  have hstop : IsWord fixedCodes.literals 256 (List.replicate 7 false) :=
    ⟨by decide +kernel, by decide, by decide, by decide +kernel⟩
  have hlongest : IsWord fixedCodes.literals (257 + 28)
      [true, true, false, false, false, true, false, true] :=
    ⟨by decide +kernel, by decide, by decide, by decide +kernel⟩
  have hlong : IsWord fixedCodes.literals (257 + 27)
      [true, true, false, false, false, true, false, false] :=
    ⟨by decide +kernel, by decide, by decide, by decide +kernel⟩
  have h258 : IsExtended lengths 28 258 [] := @IsExtended.add _ _ 258 0 0 rfl (by decide)
  have h248 : IsExtended lengths 27 248 (low 5 21) := @IsExtended.add _ _ 227 5 21 rfl (by decide)
  -- two literals, three matches of the greatest length and one of what is left
  have hmatches := @symbols_zeros 2 _ _ (by decide) _ _ _ _ hlongest h258
    (symbols_zeros (by decide) hlongest h258 (symbols_zeros (by decide) hlongest h258
      (symbols_zeros (by decide) hlong h248 (.stop hstop))))
  have hbody : Symbols fixedCodes [] _ zeros := .literal hzero (.literal hzero hmatches)
  exact @IsStream.blocks _ _ _ (List.replicate 5 false) rfl (by decide) (.last (.fixed hbody))

theorem isMember_writeZeros (data : List UInt8) : Gzip.IsMember data (writeZeros data) := by
  unfold writeZeros
  split
  · next h =>
    rw [h]
    exact .parts Gzip.isHeader_plainHeader isStream_zeros
  · exact Gzip.isMember_write data

theorem roundTrips_ofRaw_zeros : (∀ data, Gzip.IsMember data (writeZeros data)) ∧
    RoundTrips zeros (ofRawWith writeZeros zeros) :=
  ⟨isMember_writeZeros, (roundTrips_ofRaw zeros).2 writeZeros isMember_writeZeros⟩

end Syndication.Payload
