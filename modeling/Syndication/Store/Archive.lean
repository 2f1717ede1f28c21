import Syndication.Record.Feed
import Syndication.Store.Tables
import Syndication.Json.Reader
import Syndication.Json.Writer
/-!
# Archives of stores

A store as one text: a record of its tables, each an array of rows, each an array of columns. Bytes
are in Base64. `Store.ofArchive?` reads what `Store.toArchive` writes; nothing at all stands for an
empty store.
-/

namespace Syndication

open Json

namespace Archive

/-- Bytes in Base64. -/
def bytes (b : List UInt8) : Json := Record.hashToJson b

/-- A truth value. -/
def flag? : Json → Option Bool
  | .bool b => some b
  | _ => none

/-! ## Rows -/

/-- The columns that describe a feed. -/
def profile (p : Feed.Profile) : Json :=
  .arr ([p.title, p.link, p.author, p.icon, p.description, p.version].map (nullable .text))

/-- The columns that describe a feed. -/
def profile? : Json → Option Feed.Profile
  | .arr columns => do
    match ← columns.mapM fun column => optional text? (some column) with
    | [title, link, author, icon, description, version] =>
      some ⟨title, link, author, icon, description, version⟩
    | _ => none
  | _ => none

/-- A row of the table of feeds. -/
def feed (r : FeedRow) : Json :=
  .arr [.int r.id, .text r.url, .text r.status, profile r.profile, .text r.createdAt,
    .text r.updatedAt, .int r.totalStories, nullable .text r.encoding, r.fingerprint.toJson,
    nullable .text r.checkedAt, nullable .text r.syncedAt]

/-- A row of the table of feeds. -/
def feed? : Json → Option FeedRow
  | .arr [id, url, status, profile, created, updated, total, encoding, fingerprint, checked,
      synced] => do
    some
      { id := ← int64? id
        url := ← text? url
        status := ← text? status
        profile := ← profile? profile
        createdAt := ← text? created
        updatedAt := ← text? updated
        totalStories := ← int64? total
        encoding := ← optional text? (some encoding)
        fingerprint := ← Fingerprint.ofJson? fingerprint
        checkedAt := ← optional text? (some checked)
        syncedAt := ← optional text? (some synced) }
  | _ => none

/-- A row of the table of snapshots. -/
def snapshot (r : SnapshotRow) : Json :=
  .arr [.int r.id, .int r.feedId, .text r.url, nullable .text r.encoding,
    nullable .int r.statusCode, .text r.headers, .bool r.isGzipped, nullable bytes r.content,
    r.fingerprint.toJson, .text r.createdAt]

/-- A row of the table of snapshots. -/
def snapshot? : Json → Option SnapshotRow
  | .arr [id, feed, url, encoding, code, headers, isGzipped, content, fingerprint, created] => do
    some
      { id := ← int64? id
        feedId := ← int64? feed
        url := ← text? url
        encoding := ← optional text? (some encoding)
        statusCode := ← optional int64? (some code)
        headers := ← text? headers
        isGzipped := ← flag? isGzipped
        content := ← optional Record.hash? (some content)
        fingerprint := ← Fingerprint.ofJson? fingerprint
        createdAt := ← text? created }
  | _ => none

/-- A row of the log of mappings. -/
def mapping (r : MappingRow) : Json :=
  .arr [.int r.id, .text r.source, .text r.target, .text r.createdAt]

/-- A row of the log of mappings. -/
def mapping? : Json → Option MappingRow
  | .arr [id, source, target, created] => do
    some ⟨← int64? id, ← text? source, ← text? target, ← text? created⟩
  | _ => none

/-- A row of the table of subscriptions. -/
def subscription (r : SubscriptionRow) : Json :=
  .arr [.int r.id, .int r.user, nullable .int r.feedId, .text r.status, .text r.url,
    nullable .text r.title, .int r.storyOffset, .text r.createdAt, .text r.updatedAt]

/-- A row of the table of subscriptions. -/
def subscription? : Json → Option SubscriptionRow
  | .arr [id, user, feed, status, url, title, offset, created, updated] => do
    some
      { id := ← int64? id
        user := ← int64? user
        feedId := ← optional int64? (some feed)
        status := ← text? status
        url := ← text? url
        title := ← optional text? (some title)
        storyOffset := ← int64? offset
        createdAt := ← text? created
        updatedAt := ← text? updated }
  | _ => none

end Archive

/-! ## Stores -/

/-- A store as text. -/
def Store.toArchive (s : Store) : String :=
  (Json.object [
    ("feeds", .arr (s.feeds.map Archive.feed)),
    ("snapshots", .arr (s.snapshots.map Archive.snapshot)),
    ("mappings", .arr (s.mappings.map Archive.mapping)),
    ("subscriptions", .arr (s.subscriptions.map Archive.subscription)),
    ("last_subscription_id", .int s.lastSubscriptionId)]).toCompact

/-- A store from text. -/
def Store.ofArchive? (text : String) : Option Store := do
  if text.isEmpty then some .empty
  else
    match ← fields? [
      ("feeds", .required),
      ("snapshots", .required),
      ("mappings", .required),
      ("subscriptions", .required),
      ("last_subscription_id", .required)] (← Json.parse? text) with
    | [feeds, snapshots, mappings, subscriptions, last] =>
      some
        { feeds := ← present (Json.list? Archive.feed?) feeds
          snapshots := ← present (Json.list? Archive.snapshot?) snapshots
          mappings := ← present (Json.list? Archive.mapping?) mappings
          subscriptions := ← present (Json.list? Archive.subscription?) subscriptions
          lastSubscriptionId := ← present int64? last }
    | _ => none

end Syndication
