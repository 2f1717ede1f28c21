import Syndication.Feed.Mapping
import Syndication.Feed.Snapshot
import Syndication.Json.Reader
import Syndication.Json.Writer
import Syndication.Record.Scalar
/-!
# Mappings, headers and snapshots as records

The record of a snapshot does not hold the payload, so a snapshot read from a record has none.
-/

namespace Syndication

open Json

/-! ## Mappings -/

/-- A mapping as a record. -/
def Mapping.toJson (m : Mapping) : Json :=
  .object [
    ("id", .int m.id),
    ("source", .text m.source),
    ("target", .text m.target),
    ("dt_created", m.createdAt.toJson)]

/-- A mapping from a record. -/
def Mapping.ofJson? (value : Json) : Option Mapping := do
  match ← fields? [
    ("id", .required),
    ("source", .required),
    ("target", .required),
    ("dt_created", .required)] value with
  | [id, source, target, created] =>
    some
      { id := ← present int64? id
        source := ← present text? source
        target := ← present text? target
        createdAt := ← present instant? created }
  | _ => none

/-! ## Headers -/

/-- Headers as an object. -/
def Headers.toJson (h : Headers) : Json :=
  .object (h.entries.map fun (name, value) => (name, .text value))

/-- One header. -/
def Headers.entry? : Option String × Json → Option (String × String)
  | (some name, .str (some value)) => some (name, value)
  | _ => none

/-- Headers from an object; the last value of a name counts. -/
def Headers.ofJson? : Json → Option Headers
  | .obj members => (members.mapM Headers.entry?).map Headers.ofList
  | _ => none

/-- Headers as text. -/
def Headers.encode (h : Headers) : String := h.toJson.toCompact

/-- Headers from text. -/
def Headers.decode? (text : String) : Option Headers := do Headers.ofJson? (← Json.parse? text)

/-! ## Snapshots -/

/-- A snapshot as a record. -/
def Snapshot.toJson (s : Snapshot) : Json :=
  .object [
    ("id", .int s.id),
    ("feed_id", .int s.feedId),
    ("url", .text s.url),
    ("encoding", nullable .text s.encoding),
    ("status_code", nullable .int s.statusCode),
    ("etag", nullable .text s.fingerprint.etag),
    ("last_modified", nullable .text s.fingerprint.lastModified),
    ("headers", s.headers.toJson),
    ("content_length", nullable .int s.fingerprint.length),
    ("content_hash_base64", nullable Record.hashToJson s.fingerprint.hash),
    ("dt_created", s.createdAt.toJson)]

/-- A snapshot from a record, without its payload. -/
def Snapshot.ofJson? (value : Json) : Option Snapshot := do
  match ← fields? [
    ("id", .required),
    ("feed_id", .required),
    ("url", .required),
    ("encoding", .nullable),
    ("status_code", .nullable),
    ("etag", .nullable),
    ("last_modified", .nullable),
    ("headers", .required),
    ("content_length", .nullable),
    ("content_hash_base64", .omissible),
    ("dt_created", .required)] value with
  | [id, feed, url, encoding, code, etag, lastModified, headers, length, hash, created] =>
    some
      { id := ← present int64? id
        feedId := ← present int64? feed
        url := ← present text? url
        encoding := ← optional text? encoding
        statusCode := ← optional int32? code
        headers := ← present Headers.ofJson? headers
        payload := none
        fingerprint :=
          { length := ← optional int64? length
            hash := ← optional Record.hash? hash
            etag := ← optional text? etag
            lastModified := ← optional text? lastModified }
        createdAt := ← present instant? created }
  | _ => none

end Syndication
