import Syndication.Codec.Crc32
import Syndication.Codec.Deflate
/-!
# Gzip members

`write` wraps data as one member: a plain header, a deflate stream, the checksum and the length.
`read?` gives back the data of the first member and ignores what follows it; a member is refused
when its header, its stream, its checksum or its length is wrong.
-/

namespace Syndication.Codec.Gzip

/-! ## Writing -/

/-- The header of every member written: no optional field, no time, best compression. -/
def plainHeader : List UInt8 := [31, 139, 8, 0, 0, 0, 0, 0, 2, 255]

/-- A number modulo `2 ^ 32` in four bytes, low byte first. -/
def littleEndian (n : Nat) : List UInt8 :=
  [UInt8.ofNat (n % 256), UInt8.ofNat (n / 256 % 256), UInt8.ofNat (n / 65536 % 256),
    UInt8.ofNat (n / 16777216 % 256)]

/-- The checksum and the length of the data. -/
def trailer (data : List UInt8) : List UInt8 :=
  littleEndian (Crc32.checksum data).toNat ++ littleEndian data.length

/-- Data as one member. -/
def write (data : List UInt8) : List UInt8 :=
  plainHeader ++ (Deflate.store data ++ trailer data)

/-! ## Reading -/

/-- The flags of a header, one bit each. -/
structure Flags where
  checksum : Bool
  extra : Bool
  name : Bool
  comment : Bool

/-- The flags of a byte; the three high bits are reserved and stay clear. -/
def Flags.ofByte? (b : UInt8) : Option Flags :=
  if b &&& 0xe0 ≠ 0 then none
  else some
    { checksum := b &&& 2 ≠ 0, extra := b &&& 4 ≠ 0, name := b &&& 8 ≠ 0, comment := b &&& 16 ≠ 0 }

/-- The longest name or comment. -/
def maxText : Nat := 65535

/-- The bytes after a text that ends in a zero byte. -/
def skipText : (room : Nat) → List UInt8 → Except Fault (List UInt8)
  | _, [] => .error .truncated
  | _, 0 :: rest => .ok rest
  | 0, _ :: _ => .error .malformed
  | room + 1, _ :: rest => skipText room rest

/-- The bytes after an extra field, which starts with its length. -/
def skipExtra : List UInt8 → Except Fault (List UInt8)
  | low :: high :: rest =>
    let n := Deflate.pair low high
    if n ≤ rest.length then .ok (rest.drop n) else .error .truncated
  | _ => .error .truncated

/-- The bytes after the header checksum, which covers the header before it. -/
def skipChecksum (header rest : List UInt8) : Except Fault (List UInt8) :=
  match rest with
  | low :: high :: rest =>
    if Deflate.pair low high = (Crc32.checksum header).toNat % 65536 then .ok rest
    else .error .malformed
  | _ => .error .truncated

/-- The bytes after the header. -/
def skipHeader (bytes : List UInt8) : Except Fault (List UInt8) :=
  match bytes with
  | m₀ :: m₁ :: method :: flags :: _ :: _ :: _ :: _ :: _ :: _ :: rest => do
    if m₀ ≠ 31 ∨ m₁ ≠ 139 ∨ method ≠ 8 then throw .malformed
    let some flags := Flags.ofByte? flags | throw .malformed
    let rest ← if flags.extra then skipExtra rest else pure rest
    let rest ← if flags.name then skipText maxText rest else pure rest
    let rest ← if flags.comment then skipText maxText rest else pure rest
    if flags.checksum then skipChecksum (bytes.take (bytes.length - rest.length)) rest
    else pure rest
  | _ => .error .truncated

/-- The data of the first member. -/
def read (bytes : List UInt8) : Except Fault (List UInt8) := do
  let (data, rest) ← Deflate.inflate (← skipHeader bytes)
  if rest.length < 8 then throw .truncated
  if rest.take 8 = trailer data then pure data else throw .malformed

end Syndication.Codec.Gzip
