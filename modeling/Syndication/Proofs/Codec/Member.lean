import Mathlib
import Syndication.Codec.Gzip
import Syndication.Proofs.Codec.Stream
/-!
# Gzip members read back

A gzip member of some data (`Gzip.IsMember`) is a header, in which fields may stand as its flags say
(`Gzip.IsHeader`), a deflate stream of the data, the checksum of the data and its length. Reading it
gives the data, whatever follows (`Gzip.read_member`); what `Gzip.write` writes is one
(`Gzip.isMember_write`).
-/

namespace Syndication.Codec.Gzip

/-! ## Headers -/

/-- A field that is there if its flag is set. -/
def IsField (flag : Bool) (Is : List UInt8 → Prop) (field : List UInt8) : Prop :=
  if flag then Is field else field = []

/-- An extra field, which starts with its length. -/
inductive IsExtra : List UInt8 → Prop
  | bytes {low high : UInt8} {bytes : List UInt8} (hlength : Deflate.pair low high = bytes.length) :
      IsExtra (low :: high :: bytes)

/-- A text, which ends in its only zero byte. -/
inductive IsText : List UInt8 → Prop
  | ended {text : List UInt8} (hzero : 0 ∉ text) (hlength : text.length ≤ maxText) :
      IsText (text ++ [0])

/-- The checksum of the header before it, in two bytes. -/
inductive IsChecksum (header : List UInt8) : List UInt8 → Prop
  | bytes {low high : UInt8}
      (hvalue : Deflate.pair low high = (Crc32.checksum header).toNat % 65536) :
      IsChecksum header [low, high]

/-- The part of a header that is always there: the magic bytes, the method, the flags, a time, a
hint on the effort and the system. -/
def fixedPart (flags t₀ t₁ t₂ t₃ effort system : UInt8) : List UInt8 :=
  [31, 139, 8, flags, t₀, t₁, t₂, t₃, effort, system]

/-- A header, with the fields that its flags announce. -/
inductive IsHeader : List UInt8 → Prop
  | fields {flags t₀ t₁ t₂ t₃ effort system : UInt8} {extra name comment checksum : List UInt8}
      (hreserved : flags.toNat < 32)
      (hextra : IsField (flags.toNat.testBit 2) IsExtra extra)
      (hname : IsField (flags.toNat.testBit 3) IsText name)
      (hcomment : IsField (flags.toNat.testBit 4) IsText comment)
      (hchecksum : IsField (flags.toNat.testBit 1) (IsChecksum
        (fixedPart flags t₀ t₁ t₂ t₃ effort system ++ (extra ++ (name ++ comment)))) checksum) :
      IsHeader (fixedPart flags t₀ t₁ t₂ t₃ effort system ++
        (extra ++ (name ++ (comment ++ checksum))))

/-- A gzip member of some data. -/
inductive IsMember (data : List UInt8) : List UInt8 → Prop
  | parts {header stream : List UInt8} (hheader : IsHeader header)
      (hstream : Deflate.IsStream data stream) : IsMember data (header ++ (stream ++ trailer data))

/-- Whatever the data, a member of them is written. -/
def WritesMembers (compress : List UInt8 → List UInt8) : Prop :=
  ∀ data, IsMember data (compress data)

/-! ## Reading headers -/

theorem ofByte?_eq {flags : UInt8} (h : flags.toNat < 32) : Flags.ofByte? flags =
    some ⟨flags.toNat.testBit 1, flags.toNat.testBit 2, flags.toNat.testBit 3,
      flags.toNat.testBit 4⟩ := by
  have all : ∀ n < 32, (UInt8.ofNat n) &&& 0xe0 = 0 ∧
      decide ((UInt8.ofNat n) &&& 2 ≠ 0) = n.testBit 1 ∧
      decide ((UInt8.ofNat n) &&& 4 ≠ 0) = n.testBit 2 ∧
      decide ((UInt8.ofNat n) &&& 8 ≠ 0) = n.testBit 3 ∧
      decide ((UInt8.ofNat n) &&& 16 ≠ 0) = n.testBit 4 := by decide
  obtain ⟨hreserved, hchecksum, hextra, hname, hcomment⟩ := all flags.toNat h
  rw [UInt8.ofNat_toNat] at hreserved hchecksum hextra hname hcomment
  rw [Flags.ofByte?, if_neg (not_not.2 hreserved), hchecksum, hextra, hname, hcomment]

/-- A field is skipped if it is there. -/
theorem skip_field {flag : Bool} {Is : List UInt8 → Prop} {field rest : List UInt8}
    {skip : List UInt8 → Except Fault (List UInt8)} (h : IsField flag Is field)
    (hskip : Is field → skip (field ++ rest) = .ok rest) :
    (if flag then skip (field ++ rest) else pure (field ++ rest)) = .ok rest := by
  cases flag with
  | true => exact hskip h
  | false =>
    obtain rfl : field = [] := h
    rfl

/-- Reading goes on after a field, whether or not it is there. -/
theorem skip_field_bind {α : Type} {flag : Bool} {Is : List UInt8 → Prop} {field rest : List UInt8}
    {skip : List UInt8 → Except Fault (List UInt8)} {next : List UInt8 → Except Fault α}
    (h : IsField flag Is field) (hskip : Is field → skip (field ++ rest) = .ok rest) :
    (if flag then skip (field ++ rest) >>= next else pure (field ++ rest) >>= next) =
      next rest := by
  have hfield := skip_field h hskip
  cases flag with
  | true =>
    rw [if_pos rfl] at hfield ⊢
    rw [hfield]
    rfl
  | false =>
    rw [if_neg Bool.false_ne_true] at hfield ⊢
    rw [hfield]
    rfl

theorem skipExtra_append {field : List UInt8} (h : IsExtra field) (rest : List UInt8) :
    skipExtra (field ++ rest) = .ok rest := by
  obtain @⟨low, high, bytes, hlength⟩ := h
  rw [List.cons_append, List.cons_append, skipExtra]
  simp only [hlength]
  rw [if_pos (by simp), List.drop_left]

theorem skipText_append {room : Nat} {text : List UInt8} (hzero : 0 ∉ text)
    (hlength : text.length ≤ room) (rest : List UInt8) :
    skipText room (text ++ 0 :: rest) = .ok rest := by
  induction text generalizing room with
  | nil => cases room <;> rfl
  | cons byte text ih =>
    obtain ⟨room, rfl⟩ : ∃ n, room = n + 1 := ⟨room - 1, by rw [List.length_cons] at hlength; omega⟩
    rw [List.mem_cons, not_or] at hzero
    rw [List.cons_append, skipText]
    · exact ih hzero.2 (Nat.le_of_succ_le_succ hlength)
    · exact fun h => hzero.1 h.symm

theorem skipText_field {field : List UInt8} (h : IsText field) (rest : List UInt8) :
    skipText maxText (field ++ rest) = .ok rest := by
  obtain @⟨text, hzero, hlength⟩ := h
  rw [List.append_assoc]
  exact skipText_append hzero hlength rest

theorem skipChecksum_append {header field : List UInt8} (h : IsChecksum header field)
    (rest : List UInt8) : skipChecksum header (field ++ rest) = .ok rest := by
  obtain @⟨low, high, hvalue⟩ := h
  rw [List.cons_append, List.cons_append, List.nil_append, skipChecksum,
    if_pos hvalue]

/-- **A header is skipped.** -/
theorem skipHeader_append {header : List UInt8} (h : IsHeader header) (rest : List UInt8) :
    skipHeader (header ++ rest) = .ok rest := by
  obtain @⟨flags, t₀, t₁, t₂, t₃, effort, system, extra, name, comment, checksum, hreserved, hextra,
    hname, hcomment, hchecksum⟩ := h
  have hbytes : fixedPart flags t₀ t₁ t₂ t₃ effort system ++
      (extra ++ (name ++ (comment ++ checksum))) ++ rest =
      31 :: 139 :: 8 :: flags :: t₀ :: t₁ :: t₂ :: t₃ :: effort :: system ::
        (extra ++ (name ++ (comment ++ (checksum ++ rest)))) := by
    simp [fixedPart]
  -- what the checksum covers is what has been read when it comes
  have hcovered : 31 :: 139 :: 8 :: flags :: t₀ :: t₁ :: t₂ :: t₃ :: effort :: system ::
        (extra ++ (name ++ (comment ++ (checksum ++ rest)))) =
      fixedPart flags t₀ t₁ t₂ t₃ effort system ++ (extra ++ (name ++ comment)) ++
        (checksum ++ rest) := by
    simp [fixedPart]
  rw [hbytes, skipHeader, if_neg (by decide), ofByte?_eq hreserved]
  refine (skip_field_bind hextra fun h => skipExtra_append h _).trans ?_
  refine (skip_field_bind hname fun h => skipText_field h _).trans ?_
  refine (skip_field_bind hcomment fun h => skipText_field h _).trans ?_
  simp only
  rw [hcovered, List.length_append, Nat.add_sub_cancel, List.take_left]
  exact skip_field hchecksum fun h => skipChecksum_append h rest

/-! ## Reading members -/

theorem length_trailer (data : List UInt8) : (trailer data).length = 8 := rfl

/-- **A member reads as its data**, whatever follows it. -/
theorem read_member {data member : List UInt8} (h : IsMember data member) (rest : List UInt8) :
    read (member ++ rest) = .ok data := by
  obtain @⟨header, stream, hheader, hstream⟩ := h
  have hinflate := Deflate.inflate_stream hstream (trailer data ++ rest)
  have hlength : ¬ (trailer data ++ rest).length < 8 := by
    rw [List.length_append, length_trailer]
    omega
  have htake : (trailer data ++ rest).take 8 = trailer data :=
    List.take_left' (length_trailer data)
  rw [List.append_assoc, List.append_assoc, read, skipHeader_append hheader]
  simp only [bind, Except.bind, hinflate, if_neg hlength, if_pos htake]
  rfl

/-- A member begins with its header. -/
theorem IsMember.isEmpty_eq {data member : List UInt8} (h : IsMember data member) :
    member.isEmpty = false := by
  obtain ⟨hheader, -⟩ := h
  obtain ⟨-, -, -, -, -⟩ := hheader
  rfl

/-! ## Writing members -/

theorem isHeader_plainHeader : IsHeader plainHeader :=
  @IsHeader.fields 0 0 0 0 0 2 255 [] [] [] [] (by decide) rfl rfl rfl rfl

/-- **What is written is a member** of its data. -/
theorem isMember_write (data : List UInt8) : IsMember data (write data) :=
  .parts isHeader_plainHeader (Deflate.isStream_store data)

end Syndication.Codec.Gzip
