import Syndication.Record.Snapshot
import Syndication.Store.Error
import Syndication.Store.Tables
import Syndication.Subscription.Basic
/-!
# From rows to values

A row is loaded by decoding its columns. Of several columns that cannot be decoded the first one
in a fixed order counts: for a feed the times of its details, then status, creation and change;
for a subscription status, creation and change, then its feed; for a snapshot headers, then time.
-/

namespace Syndication

/-- A timestamp column. -/
def Stamp.load (text : String) : Except StoreError Instant :=
  match Stamp.decode text with
  | .ok t => .ok t
  | .error fault => .error (.badStamp fault)

/-- A timestamp column that may be empty. -/
def Stamp.loadOptional : Option String → Except StoreError (Option Instant)
  | some text => (Stamp.load text).map some
  | none => .ok none

/-- A status column. -/
def Status.load (name : String) : Except StoreError Status :=
  match Status.ofName? name with
  | some s => .ok s
  | none => .error (.unknownStatus name)

/-- The details of a feed. -/
def FeedRow.loadDetail (r : FeedRow) : Except StoreError Feed.Detail := do
  let checkedAt ← Stamp.loadOptional r.checkedAt
  let syncedAt ← Stamp.loadOptional r.syncedAt
  pure
    { totalStories := r.totalStories
      encoding := r.encoding
      fingerprint := r.fingerprint
      checkedAt
      syncedAt }

/-- A feed, with its details if asked for. -/
def FeedRow.load (detail : Bool) (r : FeedRow) : Except StoreError Feed := do
  let detail ← if detail then r.loadDetail.map some else pure none
  let status ← Status.load r.status
  let createdAt ← Stamp.load r.createdAt
  let updatedAt ← Stamp.load r.updatedAt
  pure { id := r.id, url := r.url, status, profile := r.profile, createdAt, updatedAt, detail }

/-- A subscription with the feed it is bound to. -/
def SubscriptionRow.load (detail : Bool) (row : SubscriptionRow × Option FeedRow) :
    Except StoreError Subscription := do
  let r := row.1
  let status ← Status.load r.status
  let createdAt ← Stamp.load r.createdAt
  let updatedAt ← Stamp.load r.updatedAt
  let feed ← match row.2 with
    | some f => (f.load detail).map some
    | none => pure none
  pure
    { id := r.id
      user := r.user
      feedId := r.feedId
      status
      url := r.url
      title := r.title
      storyOffset := r.storyOffset
      createdAt
      updatedAt
      feed }

/-- A mapping. -/
def MappingRow.load (r : MappingRow) : Except StoreError Mapping := do
  let createdAt ← Stamp.load r.createdAt
  pure { id := r.id, source := r.source, target := r.target, createdAt }

/-- The headers of a snapshot. -/
def Headers.load (text : String) : Except StoreError Headers :=
  match Headers.decode? text with
  | some headers => .ok headers
  | none => .error .badHeaders

/-- A snapshot with its payload. -/
def SnapshotRow.load (r : SnapshotRow) : Except StoreError Snapshot := do
  let headers ← Headers.load r.headers
  let createdAt ← Stamp.load r.createdAt
  pure
    { id := r.id
      feedId := r.feedId
      url := r.url
      encoding := r.encoding
      statusCode := r.statusCode
      headers
      payload := r.content.map fun bytes => ⟨bytes, r.isGzipped⟩
      fingerprint := r.fingerprint
      createdAt }

end Syndication
