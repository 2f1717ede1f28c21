import Syndication.Codec.Huffman
/-!
# Deflate streams

`inflate` reads one deflate stream and leaves what follows it, byte aligned. `store` writes a
stream of stored blocks, the plainest form a reader accepts: data of any length is cut into blocks
of at most 65535 bytes, the last of which is marked as final.
-/

namespace Syndication.Codec.Deflate

open Bits (Source Reader)

/-! ## Matches -/

/-- Length symbols from 257 on: the shortest match and the number of extra bits. -/
def lengths : Array (Nat × Nat) := #[
  (3, 0), (4, 0), (5, 0), (6, 0), (7, 0), (8, 0), (9, 0), (10, 0), (11, 1), (13, 1), (15, 1),
  (17, 1), (19, 2), (23, 2), (27, 2), (31, 2), (35, 3), (43, 3), (51, 3), (59, 3), (67, 4),
  (83, 4), (99, 4), (115, 4), (131, 5), (163, 5), (195, 5), (227, 5), (258, 0)]

/-- Distance symbols: the nearest distance and the number of extra bits. -/
def distances : Array (Nat × Nat) := #[
  (1, 0), (2, 0), (3, 0), (4, 0), (5, 1), (7, 1), (9, 2), (13, 2), (17, 3), (25, 3), (33, 4),
  (49, 4), (65, 5), (97, 5), (129, 6), (193, 6), (257, 7), (385, 7), (513, 8), (769, 8),
  (1025, 9), (1537, 9), (2049, 10), (3073, 10), (4097, 11), (6145, 11), (8193, 12), (12289, 12),
  (16385, 13), (24577, 13)]

/-- A base from a table plus as many bits as the table says. -/
def extended (table : Array (Nat × Nat)) (i : Nat) : Reader Nat :=
  match table[i]? with
  | some (base, width) => do
    let extra ← Bits.number width
    pure (base + extra)
  | none => throw .malformed

/-- Repeats `length` bytes from `distance` bytes back. The window before the first byte holds
zeros. -/
def repeatBack (distance : Nat) : (length : Nat) → Array UInt8 → Array UInt8
  | 0, out => out
  | length + 1, out =>
    let byte := if distance ≤ out.size then out.getD (out.size - distance) 0 else 0
    repeatBack distance length (out.push byte)

/-! ## Compressed blocks -/

/-- Symbols up to the end of the block. A symbol takes at least one bit, so as many steps as bits
remain are enough. -/
def symbols (literals distanceCode : Huffman) :
    (steps : Nat) → Array UInt8 → Reader (Array UInt8)
  | 0, _ => throw .truncated
  | steps + 1, out => do
    let symbol ← literals.read
    if symbol < 256 then symbols literals distanceCode steps (out.push (UInt8.ofNat symbol))
    else if symbol = 256 then pure out
    else do
      let length ← extended lengths (symbol - 257)
      let far ← distanceCode.read
      let distance ← extended distances far
      symbols literals distanceCode steps (repeatBack distance length out)

/-- The fixed code of literals and lengths. -/
def fixedLiterals : Huffman :=
  .ofLengths (List.replicate 144 8 ++ List.replicate 112 9 ++ List.replicate 24 7 ++
    List.replicate 8 8)

/-- The fixed code of distances. -/
def fixedDistances : Huffman := .ofLengths (List.replicate 32 5)

/-- The order in which the lengths of the code for code lengths are written. -/
def lengthOrder : List Nat :=
  [16, 17, 18, 0, 8, 7, 9, 6, 10, 5, 11, 4, 12, 3, 13, 2, 14, 1, 15]

/-- `n` numbers of three bits. -/
def triples : (n : Nat) → Reader (List Nat)
  | 0 => pure []
  | n + 1 => do
    let first ← Bits.number 3
    let others ← triples n
    pure (first :: others)

/-- Adds a run to the lengths read so far, which must not grow past `total`. -/
def addRun (total : Nat) (lengths : Array Nat) (value count : Nat) : Except Fault (Array Nat) :=
  if lengths.size + count ≤ total then .ok (lengths ++ Array.replicate count value)
  else .error .malformed

/-- Code lengths until there are `total`, runs written out. -/
def codeLengths (code : Huffman) (total : Nat) :
    (steps : Nat) → Array Nat → Reader (Array Nat)
  | 0, read => pure read
  | steps + 1, read =>
    if total ≤ read.size then pure read
    else do
      let symbol ← code.read
      if symbol < 16 then codeLengths code total steps (read.push symbol)
      else if symbol = 16 then do
        let some last := read.back? | throw .malformed
        let count ← Bits.number 2
        codeLengths code total steps (← addRun total read last (count + 3))
      else if symbol = 17 then do
        let count ← Bits.number 3
        codeLengths code total steps (← addRun total read 0 (count + 3))
      else do
        let count ← Bits.number 7
        codeLengths code total steps (← addRun total read 0 (count + 11))

/-- The two codes that a block brings along: literals and lengths, then distances. -/
def ownCodes : Reader (Huffman × Huffman) := do
  let literals := (← Bits.number 5) + 257
  let distances := (← Bits.number 5) + 1
  let written := (← Bits.number 4) + 4
  if 286 < literals ∨ 30 < distances then throw .malformed
  let lengths ← triples written
  let named := lengthOrder.zip lengths
  let code := Huffman.ofLengths ((List.range 19).map fun s => (named.lookup s).getD 0)
  unless code.IsComplete do throw .malformed
  let total := literals + distances
  let all := (← codeLengths code total total #[]).toList
  let literalCode := Huffman.ofLengths (all.take literals)
  let distanceCode := Huffman.ofLengths (all.drop literals)
  unless literalCode.IsComplete ∨ literalCode.IsTrivial do throw .malformed
  unless distanceCode.IsComplete ∨ distanceCode.IsTrivial do throw .malformed
  pure (literalCode, distanceCode)

/-! ## Blocks -/

/-- Two bytes as a number, low byte first. -/
def pair (low high : UInt8) : Nat := low.toNat + 256 * high.toNat

/-- A stored block: its length twice, the second time inverted, then its bytes. -/
def stored : Reader (List UInt8) := do
  Bits.align
  match ← Bits.take 4 with
  | [l₀, l₁, n₀, n₁] =>
    if pair l₀ l₁ + pair n₀ n₁ = 65535 then Bits.take (pair l₀ l₁) else throw .malformed
  | _ => throw .truncated

/-- One block after its header of three bits. -/
def block (kind : Nat) (out : Array UInt8) : Reader (Array UInt8) :=
  match kind with
  | 0 => do
    let bytes ← stored
    pure (out ++ bytes.toArray)
  | 1 => do
    let source ← get
    symbols fixedLiterals fixedDistances source.remaining out
  | 2 => do
    let (literals, distanceCode) ← ownCodes
    let source ← get
    symbols literals distanceCode source.remaining out
  | _ => throw .malformed

/-- Blocks up to the final one. A block takes at least three bits. -/
def blocks : (steps : Nat) → Array UInt8 → Reader (Array UInt8)
  | 0, _ => throw .truncated
  | steps + 1, out => do
    let final ← Bits.bit
    let kind ← Bits.number 2
    let out ← block kind out
    if final = 1 then pure out else blocks steps out

/-- The data of the deflate stream at the start of `bytes`, and the bytes after the stream. -/
def inflate (bytes : List UInt8) : Except Fault (List UInt8 × List UInt8) := do
  let (out, source) ← (blocks (8 * bytes.length + 1) #[]).run (.ofBytes bytes)
  pure (out.toList, source.bytes)

/-! ## Writing -/

/-- The longest stored block. -/
def maxStored : Nat := 65535

/-- A stored block of at most `maxStored` bytes. -/
def storedBlock (final : Bool) (bytes : List UInt8) : List UInt8 :=
  let n := bytes.length
  let m := maxStored - n
  (if final then 1 else 0) :: UInt8.ofNat (n % 256) :: UInt8.ofNat (n / 256) ::
    UInt8.ofNat (m % 256) :: UInt8.ofNat (m / 256) :: bytes

/-- A stream of stored blocks. -/
def store (bytes : List UInt8) : List UInt8 :=
  if bytes.length ≤ maxStored then storedBlock true bytes
  else storedBlock false (bytes.take maxStored) ++ store (bytes.drop maxStored)
  termination_by bytes.length
  decreasing_by simp only [List.length_drop, maxStored] at *; omega

end Syndication.Codec.Deflate
