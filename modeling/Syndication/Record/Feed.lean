import Syndication.Feed.Basic
import Syndication.Record.Scalar
/-!
# Feeds as records

The JSON form of fingerprints, of the details of a feed and of feeds. `toJson` writes every field,
null where there is no value, except that a feed loaded without details has no member for them;
`ofJson?` reads an object or an array of the fields in order.
-/

namespace Syndication

open Json

/-! ## Fingerprints -/

/-- A fingerprint as a record. -/
def Fingerprint.toJson (f : Fingerprint) : Json :=
  .object [
    ("content_length", nullable .int f.length),
    ("content_hash_base64", nullable Record.hashToJson f.hash),
    ("etag", nullable .text f.etag),
    ("last_modified", nullable .text f.lastModified)]

/-- A fingerprint from a record. -/
def Fingerprint.ofJson? (value : Json) : Option Fingerprint := do
  match ← fields? [
    ("content_length", .nullable),
    ("content_hash_base64", .omissible),
    ("etag", .nullable),
    ("last_modified", .nullable)] value with
  | [length, hash, etag, lastModified] =>
    some
      { length := ← optional int64? length
        hash := ← optional Record.hash? hash
        etag := ← optional text? etag
        lastModified := ← optional text? lastModified }
  | _ => none

/-! ## Details -/

/-- The details of a feed as a record. -/
def Feed.Detail.toJson (d : Feed.Detail) : Json :=
  .object [
    ("total_storys", .int d.totalStories),
    ("encoding", nullable .text d.encoding),
    ("etag", nullable .text d.fingerprint.etag),
    ("last_modified", nullable .text d.fingerprint.lastModified),
    ("content_length", nullable .int d.fingerprint.length),
    ("content_hash_base64", nullable Record.hashToJson d.fingerprint.hash),
    ("dt_checked", nullable Instant.toJson d.checkedAt),
    ("dt_synced", nullable Instant.toJson d.syncedAt)]

/-- The details of a feed from a record. -/
def Feed.Detail.ofJson? (value : Json) : Option Feed.Detail := do
  match ← fields? [
    ("total_storys", .required),
    ("encoding", .nullable),
    ("etag", .nullable),
    ("last_modified", .nullable),
    ("content_length", .nullable),
    ("content_hash_base64", .omissible),
    ("dt_checked", .nullable),
    ("dt_synced", .nullable)] value with
  | [total, encoding, etag, lastModified, length, hash, checked, synced] =>
    some
      { totalStories := ← present int64? total
        encoding := ← optional text? encoding
        fingerprint :=
          { length := ← optional int64? length
            hash := ← optional Record.hash? hash
            etag := ← optional text? etag
            lastModified := ← optional text? lastModified }
        checkedAt := ← optional instant? checked
        syncedAt := ← optional instant? synced }
  | _ => none

/-! ## Feeds -/

/-- The members of a record that are there only if there is a value. -/
def Record.ifSome {α : Type} (name : String) (toJson : α → Json) :
    Option α → List (String × Json)
  | some a => [(name, toJson a)]
  | none => []

/-- A feed as a record. -/
def Feed.toJson (f : Feed) : Json :=
  .object ([
    ("id", .int f.id),
    ("url", .text f.url),
    ("status", f.status.toJson),
    ("title", nullable .text f.profile.title),
    ("link", nullable .text f.profile.link),
    ("author", nullable .text f.profile.author),
    ("icon", nullable .text f.profile.icon),
    ("description", nullable .text f.profile.description),
    ("version", nullable .text f.profile.version),
    ("dt_created", f.createdAt.toJson),
    ("dt_updated", f.updatedAt.toJson)] ++ Record.ifSome "detail" Feed.Detail.toJson f.detail)

/-- A feed from a record. -/
def Feed.ofJson? (value : Json) : Option Feed := do
  match ← fields? [
    ("id", .required),
    ("url", .required),
    ("status", .required),
    ("title", .nullable),
    ("link", .nullable),
    ("author", .nullable),
    ("icon", .nullable),
    ("description", .nullable),
    ("version", .nullable),
    ("dt_created", .required),
    ("dt_updated", .required),
    ("detail", .omissible)] value with
  | [id, url, status, title, link, author, icon, description, version, created, updated, detail] =>
    some
      { id := ← present int64? id
        url := ← present text? url
        status := ← present Status.ofJson? status
        profile :=
          { title := ← optional text? title
            link := ← optional text? link
            author := ← optional text? author
            icon := ← optional text? icon
            description := ← optional text? description
            version := ← optional text? version }
        createdAt := ← present instant? created
        updatedAt := ← present instant? updated
        detail := ← optional Feed.Detail.ofJson? detail }
  | _ => none

end Syndication
