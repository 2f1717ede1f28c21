import Mathlib
import Syndication.Codec.Bits
/-!
# Bits as a list

A source is the list of the bits it has left (`Source.bits`). `Reads` says what a reader makes of
bits at the start of that list, whatever follows them; readers in sequence read one list after the
other (`Reads.bind`). The number of bits that have gone before counts, since some readers skip to
the next whole byte: a source at a position (`Source.IsAt`) ends with a byte.
-/

namespace Syndication.Codec.Bits

/-! ## Numbers as bits -/

/-- The `width` lowest bits of a number, low bit first. -/
def low : (width n : Nat) → List Bool
  | 0, _ => []
  | width + 1, n => decide (n % 2 = 1) :: low width (n / 2)

/-- The bits of a byte. -/
def bitsOfByte (byte : UInt8) : List Bool := low 8 byte.toNat

/-- The bits of a byte string. -/
def bitsOf (bytes : List UInt8) : List Bool := bytes.flatMap bitsOfByte

@[simp] theorem length_low (width n : Nat) : (low width n).length = width := by
  induction width generalizing n with
  | zero => rfl
  | succ width ih => simp [low, ih]

@[simp] theorem length_bitsOfByte (byte : UInt8) : (bitsOfByte byte).length = 8 := length_low 8 _

@[simp] theorem bitsOf_cons (byte : UInt8) (bytes : List UInt8) :
    bitsOf (byte :: bytes) = bitsOfByte byte ++ bitsOf bytes := rfl

@[simp] theorem bitsOf_append (xs ys : List UInt8) :
    bitsOf (xs ++ ys) = bitsOf xs ++ bitsOf ys := List.flatMap_append

@[simp] theorem length_bitsOf (bytes : List UInt8) : (bitsOf bytes).length = 8 * bytes.length := by
  induction bytes with
  | nil => rfl
  | cons byte bytes ih =>
    rw [bitsOf_cons, List.length_append, length_bitsOfByte, ih, List.length_cons]
    omega

theorem low_injective {width m n : Nat} (hm : m < Nat.pow 2 width) (hn : n < Nat.pow 2 width)
    (h : low width m = low width n) : m = n := by
  induction width generalizing m n with
  | zero =>
    have hm : m < 1 := hm
    have hn : n < 1 := hn
    omega
  | succ width ih =>
    have hm : m < Nat.pow 2 width * 2 := hm
    have hn : n < Nat.pow 2 width * 2 := hn
    obtain ⟨hbit, hrest⟩ := List.cons.inj h
    have hhalf := ih (by omega) (by omega) hrest
    have hparity : m % 2 = 1 ↔ n % 2 = 1 := decide_eq_decide.1 hbit
    omega

theorem bitsOfByte_injective {x y : UInt8} (h : bitsOfByte x = bitsOfByte y) : x = y :=
  UInt8.toNat_inj.1 (low_injective x.toNat_lt y.toNat_lt h)

theorem bitsOf_injective {xs ys : List UInt8} (h : bitsOf xs = bitsOf ys) : xs = ys := by
  induction xs generalizing ys with
  | nil =>
    have hlength := congrArg List.length h
    rw [length_bitsOf, length_bitsOf, List.length_nil] at hlength
    exact (List.eq_nil_of_length_eq_zero (by omega)).symm
  | cons x xs ih =>
    cases ys with
    | nil =>
      have hlength := congrArg List.length h
      rw [length_bitsOf, length_bitsOf, List.length_nil, List.length_cons] at hlength
      omega
    | cons y ys =>
      rw [bitsOf_cons, bitsOf_cons] at h
      obtain ⟨hbyte, hbytes⟩ := List.append_inj h (by simp)
      rw [bitsOfByte_injective hbyte, ih hbytes]

/-! ## Sources -/

/-- The bits that are left. -/
def Source.bits (s : Source) : List Bool := low s.count s.pending ++ bitsOf s.bytes

/-- The bits that are left of a byte string after `pos` bits of it; less than a byte is pending. -/
structure Source.IsAt (s : Source) (pos : Nat) (bits : List Bool) : Prop where
  bits_eq : s.bits = bits
  count_lt : s.count < 8
  ends : (pos + bits.length) % 8 = 0

theorem Source.isAt_ofBytes (bytes : List UInt8) :
    (Source.ofBytes bytes).IsAt 0 (bitsOf bytes) where
  bits_eq := rfl
  count_lt := Nat.zero_lt_succ 7
  ends := by rw [length_bitsOf]; omega

theorem Source.IsAt.remaining_eq {s : Source} {pos : Nat} {bits : List Bool}
    (h : s.IsAt pos bits) : s.remaining = bits.length := by
  rw [← h.bits_eq]
  simp [Source.bits, Source.remaining]

/-- What stands before the next whole byte is what is pending. -/
theorem Source.IsAt.count_eq {s : Source} {pos : Nat} {pad rest : List Bool}
    (h : s.IsAt pos (pad ++ rest)) (hpad : pad.length < 8) (haligned : (pos + pad.length) % 8 = 0) :
    s.count = pad.length := by
  have hlength := congrArg List.length h.bits_eq
  have hcount := h.count_lt
  have hends := h.ends
  simp only [Source.bits, List.length_append, length_low, length_bitsOf] at hlength hends
  omega

theorem Source.IsAt.bitsOf_eq {s : Source} {pos : Nat} {pad rest : List Bool}
    (h : s.IsAt pos (pad ++ rest)) (hpad : pad.length < 8) (haligned : (pos + pad.length) % 8 = 0) :
    bitsOf s.bytes = rest :=
  (List.append_inj h.bits_eq (by rw [length_low, h.count_eq hpad haligned])).2

theorem Source.IsAt.bytes_eq {s : Source} {pos : Nat} {pad : List Bool} {bytes : List UInt8}
    (h : s.IsAt pos (pad ++ bitsOf bytes)) (hpad : pad.length < 8) : s.bytes = bytes := by
  have hends := h.ends
  rw [List.length_append, length_bitsOf] at hends
  exact bitsOf_injective (h.bitsOf_eq hpad (by omega))

/-! ## Readers -/

/-- After `pos` bits, a reader takes the given bits and gives a value, whatever follows. -/
def Reads {α : Type} (pos : Nat) (read : Reader α) (bits : List Bool) (a : α) : Prop :=
  ∀ ⦃s : Source⦄ ⦃rest : List Bool⦄, s.IsAt pos (bits ++ rest) →
    ∃ s', read s = .ok (a, s') ∧ s'.IsAt (pos + bits.length) rest

variable {α β : Type} {pos : Nat}

theorem reads_pure (a : α) : Reads pos (pure a) [] a := fun s _ h => ⟨s, rfl, h⟩

/-- Readers in sequence read one list of bits after the other. -/
theorem Reads.bind {read : Reader α} {next : α → Reader β} {xs ys : List Bool} {a : α} {b : β}
    (hread : Reads pos read xs a) (hnext : Reads (pos + xs.length) (next a) ys b) :
    Reads pos (read >>= next) (xs ++ ys) b := by
  intro s rest h
  rw [List.append_assoc] at h
  obtain ⟨mid, hmid, hat⟩ := hread h
  obtain ⟨s', hs', hat'⟩ := hnext hat
  refine ⟨s', ?_, ?_⟩
  · change Except.bind (read s) _ = _
    rw [hmid]
    exact hs'
  · rwa [List.length_append, ← Nat.add_assoc]

/-- A reader whose last step reads nothing. -/
theorem Reads.bind_pure {read : Reader α} {next : α → Reader β} {xs : List Bool} {a : α} {b : β}
    (hread : Reads pos read xs a) (hnext : next a = pure b) : Reads pos (read >>= next) xs b := by
  rw [← List.append_nil xs]
  exact hread.bind (hnext ▸ reads_pure b)

/-- A step that reads nothing. -/
theorem Reads.pure_bind {next : α → Reader β} {xs : List Bool} {a : α} {b : β}
    (hnext : Reads pos (next a) xs b) : Reads pos (pure a >>= next) xs b := hnext

/-- A reader that first looks at its source. -/
theorem reads_get {next : Source → Reader α} {xs : List Bool} {a : α}
    (h : ∀ s rest, s.IsAt pos (xs ++ rest) → Reads pos (next s) xs a) :
    Reads pos (get >>= next) xs a := fun s rest hs => h s rest hs hs

theorem reads_bit (b : Bool) : Reads pos bit [b] b.toNat := by
  intro s rest h
  have hends := h.ends
  rw [List.length_append] at hends
  -- a bit is its own number, whether or not a byte has been begun
  have hbit (n : Nat) : n % 2 = (decide (n % 2 = 1)).toNat := by
    rcases Nat.mod_two_eq_zero_or_one n with hn | hn <;> simp [hn]
  obtain ⟨pending, count, bytes⟩ := s
  have hcount := h.count_lt
  have hbits := h.bits_eq
  cases count with
  | succ count =>
    obtain ⟨rfl, rfl⟩ := List.cons.inj hbits
    refine ⟨⟨pending / 2, count, bytes⟩, ?_, ⟨rfl, Nat.lt_of_succ_lt hcount, ?_⟩⟩
    · rw [← hbit]
      rfl
    · simp only [List.length_singleton] at hends ⊢
      omega
  | zero =>
    cases bytes with
    | nil => cases hbits
    | cons byte bytes =>
      obtain ⟨rfl, rfl⟩ := List.cons.inj hbits
      refine ⟨⟨byte.toNat / 2, 7, bytes⟩, ?_, ⟨rfl, Nat.lt_succ_self 7, ?_⟩⟩
      · rw [← hbit]
        rfl
      · simp only [List.length_singleton] at hends ⊢
        omega

theorem reads_number {width n : Nat} (h : n < Nat.pow 2 width) :
    Reads pos (number width) (low width n) n := by
  induction width generalizing pos n with
  | zero =>
    have hzero : n < 1 := h
    obtain rfl : n = 0 := by omega
    exact reads_pure 0
  | succ width ih =>
    have hhalf : n < Nat.pow 2 width * 2 := h
    refine (reads_bit _).bind ((ih (by omega)).bind_pure ?_)
    have hvalue : (decide (n % 2 = 1)).toNat + 2 * (n / 2) = n := by
      rcases Nat.mod_two_eq_zero_or_one n with hn | hn <;> simp [hn] <;> omega
    rw [hvalue]

/-- What is left of a byte is skipped. -/
theorem reads_align {pad : List Bool} (hpad : pad.length < 8)
    (haligned : (pos + pad.length) % 8 = 0) : Reads pos align pad () := by
  intro s rest h
  have hends := h.ends
  rw [List.length_append] at hends
  exact ⟨⟨0, 0, s.bytes⟩, rfl, h.bitsOf_eq hpad haligned, Nat.zero_lt_succ 7, by omega⟩

/-- Whole bytes are taken as they are, once the source is aligned. -/
theorem reads_take {bytes : List UInt8} (haligned : pos % 8 = 0) :
    Reads pos (take bytes.length) (bitsOf bytes) bytes := by
  intro s rest h
  have hstart : s.IsAt pos ([] ++ (bitsOf bytes ++ rest)) := h
  have hzero : s.count = 0 := hstart.count_eq (by decide) haligned
  have hbits := hstart.bitsOf_eq (by decide) haligned
  have hlength := congrArg List.length hbits
  have hends := h.ends
  simp only [List.length_append, length_bitsOf] at hlength hends
  have hle : bytes.length ≤ s.bytes.length := by omega
  rw [← List.take_append_drop bytes.length s.bytes, bitsOf_append] at hbits
  obtain ⟨htake, hdrop⟩ := List.append_inj hbits (by simp [hle])
  refine ⟨⟨s.pending, s.count, s.bytes.drop bytes.length⟩, ?_, ?_, h.count_lt, ?_⟩
  · rw [take, if_pos hle, bitsOf_injective htake]
  · rw [Source.bits, hzero, low, List.nil_append, hdrop]
  · rw [length_bitsOf]
    omega

end Syndication.Codec.Bits
