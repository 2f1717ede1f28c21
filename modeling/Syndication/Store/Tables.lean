import Syndication.Feed.Basic
/-!
# The tables of a store

A store is four tables of rows in the order of their ids. Rows hold columns, not values: a status
is kept by its name and an instant by its stamp, so that whoever reads a row has to decode it and
whoever compares stamps compares texts. Ids count up from one; those of subscriptions are never
used again.
-/

namespace Syndication

/-- A row of the table of feeds. -/
structure FeedRow where
  id : Int
  url : String
  status : String
  profile : Feed.Profile
  createdAt : String
  updatedAt : String
  totalStories : Int
  encoding : Option String
  fingerprint : Fingerprint
  checkedAt : Option String
  syncedAt : Option String
  deriving DecidableEq

/-- A row of the table of snapshots. -/
structure SnapshotRow where
  id : Int
  feedId : Int
  url : String
  encoding : Option String
  statusCode : Option Int
  headers : String
  isGzipped : Bool
  content : Option (List UInt8)
  fingerprint : Fingerprint
  createdAt : String
  deriving DecidableEq

/-- A row of the log of mappings. -/
structure MappingRow where
  id : Int
  source : String
  target : String
  createdAt : String
  deriving DecidableEq

/-- A row of the table of subscriptions. -/
structure SubscriptionRow where
  id : Int
  user : Int
  feedId : Option Int
  status : String
  url : String
  title : Option String
  storyOffset : Int
  createdAt : String
  updatedAt : String
  deriving DecidableEq

/-- The four tables, and the highest id that a subscription has ever had. -/
structure Store where
  feeds : List FeedRow
  snapshots : List SnapshotRow
  mappings : List MappingRow
  subscriptions : List SubscriptionRow
  lastSubscriptionId : Int
  deriving DecidableEq

namespace Store

/-- A store without rows. -/
def empty : Store := ⟨[], [], [], [], 0⟩

instance : Inhabited Store := ⟨empty⟩

/-- The id that follows the ids in use. -/
def nextId (ids : List Int) : Int := ids.foldl max 0 + 1

/-! ## Finding rows -/

/-- The feed with an id. -/
def feed? (s : Store) (id : Int) : Option FeedRow := s.feeds.find? fun f => f.id = id

/-- The feed at a canonical address. -/
def feedAt? (s : Store) (url : String) : Option FeedRow := s.feeds.find? fun f => f.url = url

/-- The subscription with an id. -/
def subscription? (s : Store) (id : Int) : Option SubscriptionRow :=
  s.subscriptions.find? fun r => r.id = id

/-- A user's subscription to a feed. -/
def holder? (s : Store) (user feed : Int) : Option SubscriptionRow :=
  s.subscriptions.find? fun r => r.user = user && r.feedId = some feed

/-- A subscription with the feed it is bound to. -/
def withFeed (s : Store) (r : SubscriptionRow) : SubscriptionRow × Option FeedRow :=
  (r, r.feedId.bind s.feed?)

/-- One row comes before another in the log of a user's clocks: by stamp, then by id. -/
def clockOrder (a b : SubscriptionRow) : Bool :=
  a.updatedAt < b.updatedAt || (a.updatedAt = b.updatedAt && a.id ≤ b.id)

/-- A user's subscriptions, pending ones only if asked for, in the order of their clocks. -/
def visible (s : Store) (user : Int) (showPending : Bool) : List SubscriptionRow :=
  (s.subscriptions.filter fun r =>
    r.user = user && (showPending || r.status ≠ Status.pending.name)).mergeSort clockOrder

/-- Of rows with stamps and ids the one with the greatest stamp and, of those, the greatest id. -/
def latest? {α : Type} (stamp : α → String) (id : α → Int) (rows : List α) : Option α :=
  rows.foldl (fun best row =>
    match best with
    | none => some row
    | some b =>
      if stamp b < stamp row ∨ stamp b = stamp row ∧ id b < id row then some row else some b) none

/-- The mapping of a source that counts. -/
def mapping? (s : Store) (source : String) : Option MappingRow :=
  latest? (·.createdAt) (·.id) (s.mappings.filter fun m => m.source = source)

/-- The place of a mapping among those of its source that are in `rows`, the latest first: by stamp,
then by id. -/
def recency (rows : List MappingRow) (m : MappingRow) : Nat :=
  rows.countP (fun n => n.source = m.source &&
    (m.createdAt < n.createdAt || m.createdAt = n.createdAt && m.id < n.id)) + 1

/-- The mappings that count of several sources: all of their mappings are ranked at once, and the
first of each source is taken. -/
def mappingsOf (s : Store) (sources : List String) : List MappingRow :=
  let rows := s.mappings.filter fun m => m.source ∈ sources
  rows.filter fun m => recency rows m = 1

/-- The last snapshot of a feed. -/
def snapshot? (s : Store) (feedId : Int) : Option SnapshotRow :=
  latest? (·.createdAt) (·.id) (s.snapshots.filter fun r => r.feedId = feedId)

/-! ## Changing rows -/

/-- Changes the feed with an id. -/
def editFeed (s : Store) (id : Int) (edit : FeedRow → FeedRow) : Store :=
  { s with feeds := s.feeds.map fun f => if f.id = id then edit f else f }

/-- Changes the subscription with an id. -/
def editSubscription (s : Store) (id : Int) (edit : SubscriptionRow → SubscriptionRow) : Store :=
  { s with subscriptions := s.subscriptions.map fun r => if r.id = id then edit r else r }

/-- Changes the snapshot with an id. -/
def editSnapshot (s : Store) (id : Int) (edit : SnapshotRow → SnapshotRow) : Store :=
  { s with snapshots := s.snapshots.map fun r => if r.id = id then edit r else r }

/-- Changes the mapping with an id. -/
def editMapping (s : Store) (id : Int) (edit : MappingRow → MappingRow) : Store :=
  { s with mappings := s.mappings.map fun m => if m.id = id then edit m else m }

end Store

end Syndication
