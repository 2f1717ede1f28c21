/-!
# Reading bits

A byte string read bit by bit, the low bit of each byte first. `Bits.Source` is the unread part;
a reader consumes some of it or ends in a `Fault`, which says whether the data ended too early or
says something no writer would have written.
-/

namespace Syndication.Codec

/-- Why compressed data cannot be read. -/
inductive Fault
  /-- The data ends before what it announced. -/
  | truncated
  /-- The data breaks a rule of the format. -/
  | malformed
  deriving DecidableEq, Repr

end Syndication.Codec

namespace Syndication.Codec.Bits

/-- The unread part: what is left of the byte being read, then whole bytes. -/
structure Source where
  /-- The bits left of the byte being read, low bit first. -/
  pending : Nat
  /-- How many bits `pending` holds. -/
  count : Nat
  /-- The bytes not yet begun. -/
  bytes : List UInt8

/-- A byte string of which nothing has been read. -/
def Source.ofBytes (bytes : List UInt8) : Source := ⟨0, 0, bytes⟩

/-- The number of bits left. -/
def Source.remaining (s : Source) : Nat := s.count + 8 * s.bytes.length

/-- Reads part of a source, or stops with a fault. -/
abbrev Reader := StateT Source (Except Fault)

/-- The next bit. -/
def bit : Reader Nat := fun s =>
  match s with
  | ⟨pending, count + 1, bytes⟩ => .ok (pending % 2, ⟨pending / 2, count, bytes⟩)
  | ⟨_, 0, byte :: bytes⟩ => .ok (byte.toNat % 2, ⟨byte.toNat / 2, 7, bytes⟩)
  | ⟨_, 0, []⟩ => .error .truncated

/-- A number of `width` bits, lowest first. -/
def number : (width : Nat) → Reader Nat
  | 0 => pure 0
  | width + 1 => do
    let b ← bit
    let rest ← number width
    pure (b + 2 * rest)

/-- Skips to the start of the next whole byte. -/
def align : Reader Unit := fun s => .ok ((), ⟨0, 0, s.bytes⟩)

/-- Whole bytes, from an aligned source. -/
def take (n : Nat) : Reader (List UInt8) := fun s =>
  if n ≤ s.bytes.length then .ok (s.bytes.take n, ⟨s.pending, s.count, s.bytes.drop n⟩)
  else .error .truncated

end Syndication.Codec.Bits
