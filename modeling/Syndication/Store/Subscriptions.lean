import Syndication.Store.Feeds
import Syndication.Subscription.Sync
/-!
# Subscribing and syncing

The operations on a user's subscriptions, and binding a pending subscription to the feed that its
address has been found to lead to.
-/

namespace Syndication.Store

open Operation

/-! ## Reading -/

/-- The values of subscriptions' rows. -/
def loadAll (detail : Bool) (rows : List (SubscriptionRow × Option FeedRow)) :
    Operation (List Subscription) :=
  loaded (rows.mapM (SubscriptionRow.load detail))

/-- The subscription with an id, if it belongs to the owner given. -/
def findSubscription (id : Int) (owner : Option Int) (detail : Bool) :
    Operation Subscription := do
  match ← call (.findSubscription id owner) with
  | some row => loaded (SubscriptionRow.load detail row)
  | none => throw (.subscriptionNotFound id)

/-- A user's subscription. -/
def getSubscription (id user : Int) (detail : Bool) : Operation Subscription :=
  findSubscription id (some user) detail

/-- A user's subscriptions, those with given ids or all. -/
def listSubscriptions (user : Int) (ids : Option (List Int)) (detail showPending : Bool) :
    Operation (List Subscription) := do
  let rows ← call (.listSubscriptions user ids showPending)
  loadAll detail rows

/-! ## Subscribing -/

/-- Subscribes a user to an address. -/
def subscribe (url : String) (user : Int) : Operation Subscription := do
  let feed ← match ← findTarget url with
    | some target => findFeedAt target false
    | none => pure none
  let row ← match feed with
    | some feed => do
      let held ← loadAll false (← call (.subscriptionsTo user [feed.id]))
      unless held.isEmpty do throw (.duplicateSubscription user feed.id)
      pure (Planned.bound user feed.id url)
    | none => pure (Planned.pending user url)
  let time ← now
  match ← call (.insertRow row time.stamp) with
  | some (.new id) => getSubscription id user false
  | some (.existing _ feed) => throw (.duplicateSubscription user feed)
  | none => throw .noSuchFeed

/-- Inserts planned rows in chunks. -/
def insertPlanned (rows : List Planned) (size : Nat) (time : Instant) :
    Operation (List Inserted) := do
  match ← call (.insertBatch rows size time.stamp) with
  | .ok outcomes => pure outcomes
  | .error 0 => throw .noSuchFeed
  | .error committed => throw (.partialBatch committed)

/-- The subscription that a planned row has become, with the feed it was planned for. -/
def inserted (feeds : List Feed) (time : Instant) (row : Planned) (id : Int) : Subscription where
  id := id
  user := row.user
  feedId := row.feedId
  status := row.status
  url := row.url
  title := none
  storyOffset := 0
  createdAt := time
  updatedAt := time
  feed := row.feedId.bind fun feed => feeds.find? fun f => f.id = feed

/-- The subscriptions that have come of planned rows, and the ids of those that were there. -/
def sortOutcomes (feeds : List Feed) (time : Instant) :
    List (Planned × Inserted) → List Subscription × List Int
  | [] => ([], [])
  | (row, outcome) :: rest =>
    let (created, raced) := sortOutcomes feeds time rest
    match outcome with
    | .new id => (inserted feeds time row id :: created, raced)
    | .existing id _ => (created, id :: raced)

/-- Subscriptions in the order of their addresses, then of their ids. -/
def addressOrder (a b : Subscription) : Bool :=
  a.url < b.url || (a.url = b.url && a.id ≤ b.id)

/-- Of neighbours with one id the first. -/
def dropRepeated : List Subscription → List Subscription
  | [] => []
  | s :: rest =>
    match dropRepeated rest with
    | [] => [s]
    | next :: others => if s.id = next.id then s :: others else s :: next :: others

/-- Subscribes a user to every address of a list, with as many look-ups for a long list as for a
short one. The answer holds the new subscriptions and those the user had to the feeds asked for. -/
def subscribeAll (urls : List String) (user : Int) (size : Nat) :
    Operation (List Subscription) := do
  if urls.isEmpty then return []
  let targets ← findTargets urls
  let rows ← call (.findFeedsAt (targets.map (·.2)).eraseDups)
  let feeds ← loaded (rows.mapM (FeedRow.load false))
  let held ← loadAll false (← call (.subscriptionsTo user (feeds.map (·.id))))
  let plan := Planned.list user (fun url => targets.lookup url)
    (fun url => (feeds.find? fun f => f.url = url).map (·.id)) (held.filterMap (·.feedId)) urls
  let time ← now
  let outcomes ← insertPlanned plan size time
  let (created, raced) := sortOutcomes feeds time (plan.zip outcomes)
  let winners ← if raced.isEmpty then pure [] else listSubscriptions user (some raced) false true
  pure (dropRepeated ((held ++ created ++ winners).mergeSort addressOrder))

/-- Deletes a user's subscription. -/
def unsubscribe (id user : Int) : Operation Unit := do
  unless ← call (.deleteSubscription id user) do throw (.subscriptionNotFound id)

/-! ## Syncing -/

/-- Loads the clocks of rows. -/
def loadClocks (rows : List (Int × String)) : Operation (List (Int × Instant)) :=
  loaded (rows.mapM fun (id, stamp) => do
    let t ← Stamp.load stamp
    pure (id, t))

/-- What a user's client has to refresh. -/
def sync (user : Int) (query : SyncQuery) : Operation SyncAnswer := do
  if query.hints.isEmpty then
    let all ← listSubscriptions user none query.detail query.showPending
    pure ⟨all.length, Sync.sortByRecency all⟩
  else
    let clocks ← loadClocks (← call (.clocks user query.showPending))
    let changed := Sync.changedIds clocks query.hints
    let stale ← if changed.isEmpty then pure []
      else listSubscriptions user (some changed) query.detail query.showPending
    pure ⟨clocks.length, Sync.sortByRecency stale⟩

/-! ## Offsets -/

/-- Sets the offset of a user's subscription, in at most so many attempts: an attempt counts for
nothing when the clock has moved between reading and writing it. -/
def setOffsetWithin (id user offset : Int) : (attempts : Nat) → Operation Subscription
  | 0 => throw (.contended id)
  | attempts + 1 => do
    let current ← getSubscription id user false
    let next ← tickAfter current.updatedAt
    if ← call (.swapOffset id user offset current.updatedAt.stamp next.stamp) then
      pure { current with storyOffset := offset, updatedAt := next }
    else setOffsetWithin id user offset attempts

/-- How often the clock of a subscription is read again. -/
def offsetAttempts : Nat := 5

/-- Sets how far a user has read. -/
def setOffset (id user offset : Int) : Operation Subscription :=
  setOffsetWithin id user offset offsetAttempts

/-! ## Resolving -/

/-- Binds a pending subscription to the feed at a target, which its address is recorded to lead to
and which is created if there is none. -/
def resolve (id : Int) (target : String) : Operation Subscription := do
  let subscription ← findSubscription id none false
  if subscription.isBound then throw (.alreadyBound id)
  let _ ← recordMapping subscription.url target
  let feed ← getOrCreateFeed target
  let next ← tickAfter subscription.updatedAt
  match ← call (.bind id feed.id feed.status next.stamp) with
  | .bound => getSubscription id subscription.user false
  | .stale => throw (.alreadyBound id)
  | .duplicate => throw (.duplicateSubscription subscription.user feed.id)

end Syndication.Store
