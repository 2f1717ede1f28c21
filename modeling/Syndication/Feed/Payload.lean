import Syndication.Codec.Gzip
/-!
# Payloads at rest

A payload of at least 1024 bytes is stored as a gzip member and a smaller one as it is. The flag
that tells the two apart travels with the bytes; whoever reads may overrule it. Any compressor may
write the members (`Payload.ofRawWith`).
-/

namespace Syndication

/-- A payload as it is stored. -/
structure Payload where
  bytes : List UInt8
  isGzipped : Bool
  deriving DecidableEq

namespace Payload

/-- Payloads shorter than this are stored as they are. -/
def threshold : Nat := 1024

/-- The stored form of a payload when `compress` writes the gzip members. -/
def ofRawWith (compress : List UInt8 → List UInt8) (raw : List UInt8) : Payload :=
  if raw.length < threshold then ⟨raw, false⟩ else ⟨compress raw, true⟩

/-- The stored form of a payload. -/
def ofRaw (raw : List UInt8) : Payload := ofRawWith Codec.Gzip.write raw

/-- The payload back. Without a wish of the reader's the flag decides whether to decompress; no
bytes are no bytes either way. -/
def contents (p : Payload) (decompress : Option Bool) : Except Codec.Fault (List UInt8) :=
  if p.bytes.isEmpty || !decompress.getD p.isGzipped then .ok p.bytes else Codec.Gzip.read p.bytes

end Payload

end Syndication
