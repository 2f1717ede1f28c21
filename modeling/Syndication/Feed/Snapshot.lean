import Syndication.Feed.Fingerprint
import Syndication.Feed.Headers
import Syndication.Feed.Payload
import Syndication.Time.Instant
/-!
# Snapshots

One fetch of a feed as it was recorded: what came back, and the payload at rest. Snapshots are
never changed.
-/

namespace Syndication

/-- What a fetch brings, before it is recorded. -/
structure Snapshot.Draft where
  feedId : Int
  url : String
  encoding : Option String
  statusCode : Option Int
  etag : Option String
  lastModified : Option String
  headers : Headers
  content : Option (List UInt8)
  /-- What writes the gzip member of a large payload. -/
  compress : List UInt8 → List UInt8 := Codec.Gzip.write

/-- A recorded fetch. -/
structure Snapshot where
  id : Int
  feedId : Int
  url : String
  encoding : Option String
  statusCode : Option Int
  headers : Headers
  payload : Option Payload
  /-- Length and digest of the payload before it was stored, and the validators. -/
  fingerprint : Fingerprint
  createdAt : Instant
  deriving DecidableEq

namespace Snapshot

/-- The stored form of a draft's payload. -/
def Draft.payload (d : Draft) : Option Payload := d.content.map (Payload.ofRawWith d.compress)

/-- The fingerprint of a draft: of its payload, if there is one, with its validators. -/
def Draft.fingerprint (d : Draft) : Fingerprint :=
  (d.content.elim .empty .ofContent : Fingerprint).withValidators d.etag d.lastModified

/-- The payload is stored as a gzip member. -/
def isGzipped (s : Snapshot) : Bool := s.payload.any (·.isGzipped)

/-- The payload, if there is one; `decompress` overrules the stored flag. -/
def contents (s : Snapshot) (decompress : Option Bool) :
    Except Codec.Fault (Option (List UInt8)) :=
  match s.payload with
  | some payload => (payload.contents decompress).map some
  | none => .ok none

end Snapshot

end Syndication
