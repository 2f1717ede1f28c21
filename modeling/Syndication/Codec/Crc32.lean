/-!
# CRC-32

The checksum that closes a gzip member: the reflected polynomial `0xEDB88320`, started at all
ones and inverted at the end.
-/

namespace Syndication.Crc32

/-- One bit of the division. -/
def shift (c : UInt32) : UInt32 :=
  if c &&& 1 = 1 then (c >>> 1) ^^^ 0xEDB88320 else c >>> 1

/-- Eight bits of the division after a byte has been added. -/
def step (c : UInt32) (byte : UInt8) : UInt32 :=
  shift (shift (shift (shift (shift (shift (shift (shift (c ^^^ byte.toUInt32))))))))

/-- The checksum of a byte string. -/
def checksum (bytes : List UInt8) : UInt32 := ~~~ (bytes.foldl step 0xFFFFFFFF)

end Syndication.Crc32
