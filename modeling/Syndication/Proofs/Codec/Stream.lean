import Mathlib
import Syndication.Proofs.Codec.OwnCodes
/-!
# Deflate streams read back

A deflate stream of some data (`Deflate.IsStream`) is a sequence of blocks, the last one marked
(`Deflate.Blocks`): stored bytes, or a body in the fixed codes or in codes of its own
(`Deflate.Block`), filled up to a whole byte. Reading it gives the data and leaves what follows
(`Deflate.inflate_stream`); what `Deflate.store` writes is one (`Deflate.isStream_store`).
-/

namespace Syndication.Codec.Deflate

open Bits Huffman

/-! ## Blocks -/

/-- The fixed codes. -/
def fixedCodes : Codes where
  literals := List.replicate 144 8 ++ List.replicate 112 9 ++ List.replicate 24 7 ++
    List.replicate 8 8
  distances := List.replicate 32 5

/-- What follows the header of a block of a kind: after `pos` bits of the stream and the data
`before`, its bits make the data `after`. Stored bytes start with a whole byte, and their number
comes first, twice, the second time inverted. -/
inductive Block (pos : Nat) (before : List UInt8) :
    (kind : Nat) → List Bool → (after : List UInt8) → Prop
  | stored {pad : List Bool} {l₀ l₁ n₀ n₁ : UInt8} {bytes : List UInt8}
      (hpad : pad.length < 8) (haligned : (pos + pad.length) % 8 = 0)
      (hlength : pair l₀ l₁ = bytes.length) (hinverted : pair n₀ n₁ = maxStored - bytes.length) :
      Block pos before 0 (pad ++ (bitsOf [l₀, l₁, n₀, n₁] ++ bitsOf bytes)) (before ++ bytes)
  | fixed {bits : List Bool} {after : List UInt8} (hbody : Symbols fixedCodes before bits after) :
      Block pos before 1 bits after
  | own {codes : Codes} {header bits : List Bool} {after : List UInt8}
      (hcodes : Announces codes header) (hbody : Symbols codes before bits after) :
      Block pos before 2 (header ++ bits) after

/-- Blocks up to the last one, which has the first bit set. -/
inductive Blocks : (pos : Nat) → (before : List UInt8) → List Bool → (after : List UInt8) → Prop
  | last {pos kind : Nat} {before after : List UInt8} {bits : List Bool}
      (hblock : Block (pos + 3) before kind bits after) :
      Blocks pos before ([true] ++ (low 2 kind ++ bits)) after
  | next {pos kind : Nat} {before mid after : List UInt8} {bits more : List Bool}
      (hblock : Block (pos + 3) before kind bits mid)
      (rest : Blocks (pos + 3 + bits.length) mid more after) :
      Blocks pos before ([false] ++ (low 2 kind ++ (bits ++ more))) after

/-- The bytes of a deflate stream: blocks, filled up to a whole byte. -/
inductive IsStream (data : List UInt8) : List UInt8 → Prop
  | blocks {stream : List UInt8} {bits pad : List Bool} (hbits : bitsOf stream = bits ++ pad)
      (hpad : pad.length < 8) (hblocks : Blocks 0 [] bits data) : IsStream data stream

/-! ## Reading blocks -/

theorem pair_lt (low high : UInt8) : pair low high < 65536 := by
  have hlow := low.toNat_lt
  have hhigh := high.toNat_lt
  unfold pair
  omega

theorem reads_stored {pad : List Bool} {l₀ l₁ n₀ n₁ : UInt8} {bytes : List UInt8} {pos : Nat}
    (hpad : pad.length < 8) (haligned : (pos + pad.length) % 8 = 0)
    (hlength : pair l₀ l₁ = bytes.length) (hinverted : pair n₀ n₁ = maxStored - bytes.length) :
    Reads pos stored (pad ++ (bitsOf [l₀, l₁, n₀, n₁] ++ bitsOf bytes)) bytes := by
  have hlt := pair_lt l₀ l₁
  have hmax : maxStored = 65535 := rfl
  refine (reads_align hpad haligned).bind ?_
  refine (reads_take haligned).bind ?_
  simp only
  rw [if_pos (by omega), hlength]
  exact reads_take (by rw [length_bitsOf]; omega)

theorem reads_block {pos kind : Nat} {before after : List UInt8} {bits : List Bool}
    (h : Block pos before kind bits after) :
    Reads pos (block kind before.toArray) bits after.toArray := by
  cases h with
  | stored hpad haligned hlength hinverted =>
    rw [block]
    refine (reads_stored hpad haligned hlength hinverted).bind_pure ?_
    rw [List.append_toArray]
  | fixed hbody =>
    rw [block]
    refine reads_get fun s rest hs => ?_
    refine reads_symbols hbody ?_
    rw [hs.remaining_eq, List.length_append]
    exact Nat.le_add_right _ _
  | own hcodes hbody =>
    rw [block]
    refine (reads_ownCodes hcodes).bind ?_
    refine reads_get fun s rest hs => ?_
    refine reads_symbols hbody ?_
    rw [hs.remaining_eq, List.length_append]
    exact Nat.le_add_right _ _

theorem Block.kind_lt {pos kind : Nat} {before after : List UInt8} {bits : List Bool}
    (h : Block pos before kind bits after) : kind < Nat.pow 2 2 := by
  cases h <;> decide

/-- **Blocks read as the data they make.** -/
theorem reads_blocks {pos : Nat} {before after : List UInt8} {bits : List Bool}
    (h : Blocks pos before bits after) {steps : Nat} (hsteps : bits.length ≤ steps) :
    Reads pos (blocks steps before.toArray) bits after.toArray := by
  induction h generalizing steps with
  | last hblock =>
    simp only [List.length_append, List.length_singleton, length_low] at hsteps
    obtain ⟨steps, rfl⟩ : ∃ n, steps = n + 1 := ⟨steps - 1, by omega⟩
    rw [blocks]
    refine (reads_bit true).bind ((reads_number hblock.kind_lt).bind ?_)
    rw [length_low]
    exact (reads_block hblock).bind_pure rfl
  | next hblock _ ih =>
    simp only [List.length_append, List.length_singleton, length_low] at hsteps
    obtain ⟨steps, rfl⟩ : ∃ n, steps = n + 1 := ⟨steps - 1, by omega⟩
    rw [blocks]
    refine (reads_bit false).bind ((reads_number hblock.kind_lt).bind ?_)
    rw [length_low]
    refine (reads_block hblock).bind ?_
    exact ih (by omega)

/-- **A stream inflates to its data**, whatever follows it. -/
theorem inflate_stream {data stream : List UInt8} (h : IsStream data stream)
    (rest : List UInt8) : inflate (stream ++ rest) = .ok (data, rest) := by
  obtain @⟨bits, pad, hbits, hpad, hblocks⟩ := h
  have hlength := congrArg List.length hbits
  rw [length_bitsOf, List.length_append] at hlength
  have hsource : (Source.ofBytes (stream ++ rest)).IsAt 0 (bits ++ (pad ++ bitsOf rest)) := by
    rw [← List.append_assoc, ← hbits, ← bitsOf_append]
    exact Source.isAt_ofBytes _
  have hsteps : bits.length ≤ 8 * (stream ++ rest).length + 1 := by
    rw [List.length_append]
    omega
  obtain ⟨s, hs, hat⟩ := reads_blocks hblocks hsteps hsource
  rw [inflate, StateT.run, hs]
  simp only [bind, Except.bind, hat.bytes_eq hpad]
  rfl

/-! ## Stored streams -/

theorem pair_ofNat {n : Nat} (h : n < 65536) :
    pair (UInt8.ofNat (n % 256)) (UInt8.ofNat (n / 256)) = n := by
  rw [pair, UInt8.toNat_ofNat', UInt8.toNat_ofNat']
  omega

/-- What follows the header of a stored block. -/
def storedBody (bytes : List UInt8) : List Bool :=
  List.replicate 5 false ++ (bitsOf [UInt8.ofNat (bytes.length % 256),
    UInt8.ofNat (bytes.length / 256), UInt8.ofNat ((maxStored - bytes.length) % 256),
    UInt8.ofNat ((maxStored - bytes.length) / 256)] ++ bitsOf bytes)

/-- The first byte of a stored block is its header and the bits before the next byte. -/
theorem bitsOf_storedBlock (final : Bool) (bytes : List UInt8) :
    bitsOf (storedBlock final bytes) = [final] ++ (low 2 0 ++ storedBody bytes) := by
  cases final <;> rfl

theorem length_storedBody (bytes : List UInt8) :
    (storedBody bytes).length = 8 * bytes.length + 37 := by
  simp only [storedBody, List.length_append, List.length_replicate, length_bitsOf, List.length_cons,
    List.length_nil]
  omega

theorem block_storedBody {pos : Nat} (hpos : pos % 8 = 0) (before : List UInt8)
    {bytes : List UInt8} (h : bytes.length ≤ maxStored) :
    Block (pos + 3) before 0 (storedBody bytes) (before ++ bytes) := by
  have hmax : maxStored = 65535 := rfl
  refine .stored (by decide) ?_ (pair_ofNat (by omega)) (pair_ofNat (by omega))
  rw [List.length_replicate]
  omega

theorem blocks_store (bytes before : List UInt8) {pos : Nat} (hpos : pos % 8 = 0) :
    Blocks pos before (bitsOf (store bytes)) (before ++ bytes) := by
  fun_induction store bytes generalizing pos before with
  | case1 bytes hle =>
    rw [bitsOf_storedBlock]
    exact .last (block_storedBody hpos before hle)
  | case2 bytes hgt ih =>
    have hlength : (bytes.take maxStored).length ≤ maxStored := List.length_take_le _ _
    have hbytes : before ++ bytes = before ++ bytes.take maxStored ++ bytes.drop maxStored := by
      rw [List.append_assoc, List.take_append_drop]
    rw [bitsOf_append, bitsOf_storedBlock, List.append_assoc, List.append_assoc, hbytes]
    refine .next (block_storedBody hpos before hlength) (ih _ ?_)
    rw [length_storedBody]
    omega

/-- **What is stored is a stream** of its data. -/
theorem isStream_store (bytes : List UInt8) : IsStream bytes (store bytes) :=
  .blocks (List.append_nil _).symm (by decide) (blocks_store bytes [] rfl)

end Syndication.Codec.Deflate
