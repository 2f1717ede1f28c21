import Syndication.Record.Snapshot
import Syndication.Store.Crawl
import Syndication.Store.Insertion
/-!
# Calls

A call is one atomic step on a store: everything it reads and writes happens at once, and steps of
other operations come before or after it. `Call.run` is what a call does; every way to run
operations, one after another or interleaved, runs their calls by it.
-/

namespace Syndication

/-- One atomic step on a store. -/
inductive Call
  /-- Appends to the log of mappings. -/
  | addMapping (source target stamp : String)
  /-- The target of a source, as far as it has one. -/
  | findTarget (source : String)
  /-- The sources that have a target, with their targets. -/
  | findTargets (sources : List String)
  /-- The feed at an address, which is created if there is none. -/
  | ensureFeed (url stamp : String)
  | findFeed (id : Int)
  | findFeedAt (url : String)
  | findFeedsAt (urls : List String)
  /-- A transition of a feed. -/
  | moveFeed (id : Int) (transition : Transition)
  /-- Appends a snapshot, unless its feed does not exist. -/
  | addSnapshot (draft : Snapshot.Draft) (stamp : String)
  /-- The last snapshot of a feed. -/
  | lastSnapshot (feedId : Int)
  /-- A subscription, if it belongs to the owner given. -/
  | findSubscription (id : Int) (owner : Option Int)
  /-- A user's subscriptions, those with given ids or all, pending ones only if asked for. -/
  | listSubscriptions (user : Int) (ids : Option (List Int)) (showPending : Bool)
  /-- A user's subscriptions to given feeds. -/
  | subscriptionsTo (user : Int) (feeds : List Int)
  /-- The clocks of a user's subscriptions, pending ones only if asked for. -/
  | clocks (user : Int) (showPending : Bool)
  /-- Inserts one planned row. -/
  | insertRow (row : Planned) (stamp : String)
  /-- Inserts planned rows in chunks. -/
  | insertBatch (rows : List Planned) (size : Nat) (stamp : String)
  /-- Deletes a user's subscription. -/
  | deleteSubscription (id user : Int)
  /-- Sets the offset and the clock of a user's subscription whose clock is still `seen`. -/
  | swapOffset (id user offset : Int) (seen stamp : String)
  /-- Binds an unbound subscription to a feed. -/
  | bind (id feedId : Int) (status : Status) (stamp : String)

/-- The outcome of binding a subscription. -/
inductive Bound
  | bound
  /-- It is bound already, or it is gone. -/
  | stale
  /-- Its user holds another subscription to the feed. -/
  | duplicate
  deriving DecidableEq

namespace Call

/-- What a call answers. -/
abbrev Answer : Call → Type
  | addMapping .. => Int
  | findTarget _ => Option String
  | findTargets _ => List (String × String)
  | ensureFeed .. => FeedRow
  | findFeed _ => Option FeedRow
  | findFeedAt _ => Option FeedRow
  | findFeedsAt _ => List FeedRow
  | moveFeed .. => Moved
  | addSnapshot .. => Option Int
  | lastSnapshot _ => Option SnapshotRow
  | findSubscription .. => Option (SubscriptionRow × Option FeedRow)
  | listSubscriptions .. => List (SubscriptionRow × Option FeedRow)
  | subscriptionsTo .. => List (SubscriptionRow × Option FeedRow)
  | clocks .. => List (Int × String)
  | insertRow .. => Option Inserted
  | insertBatch .. => Store.BatchOutcome
  | deleteSubscription .. => Bool
  | swapOffset .. => Bool
  | bind .. => Bound

/-! ## What calls do -/

/-- Appends to the log of mappings. -/
def runAddMapping (source target stamp : String) (s : Store) : Int × Store :=
  let id := Store.nextId (s.mappings.map (·.id))
  (id, { s with mappings := s.mappings ++ [⟨id, source, target, stamp⟩] })

/-- The row of a feed that has just been created. -/
def newFeed (id : Int) (url stamp : String) : FeedRow where
  id := id
  url := url
  status := Status.pending.name
  profile := .empty
  createdAt := stamp
  updatedAt := stamp
  totalStories := 0
  encoding := none
  fingerprint := .empty
  checkedAt := none
  syncedAt := none

/-- The feed at an address, which is created if there is none. -/
def runEnsureFeed (url stamp : String) (s : Store) : FeedRow × Store :=
  match s.feedAt? url with
  | some row => (row, s)
  | none =>
    let row := newFeed (Store.nextId (s.feeds.map (·.id))) url stamp
    (row, { s with feeds := s.feeds ++ [row] })

/-- Feeds are found in the order of their addresses. -/
def runFindFeedsAt (urls : List String) (s : Store) : List FeedRow :=
  (s.feeds.filter fun f => f.url ∈ urls).mergeSort fun a b => a.url ≤ b.url

/-- Appends a snapshot, unless its feed does not exist. -/
def runAddSnapshot (d : Snapshot.Draft) (stamp : String) (s : Store) : Option Int × Store :=
  match s.feed? d.feedId with
  | none => (none, s)
  | some _ =>
    let id := Store.nextId (s.snapshots.map (·.id))
    let payload := d.payload
    let row : SnapshotRow :=
      { id
        feedId := d.feedId
        url := d.url
        encoding := d.encoding
        statusCode := d.statusCode
        headers := d.headers.encode
        isGzipped := payload.any (·.isGzipped)
        content := payload.map (·.bytes)
        fingerprint := d.fingerprint
        createdAt := stamp }
    (some id, { s with snapshots := s.snapshots ++ [row] })

/-- A subscription, if it belongs to the owner given. -/
def runFindSubscription (id : Int) (owner : Option Int) (s : Store) :
    Option (SubscriptionRow × Option FeedRow) :=
  ((s.subscription? id).filter fun r => owner.all fun user => r.user = user).map s.withFeed

/-- A user's subscriptions, those with given ids or all. -/
def runListSubscriptions (user : Int) (ids : Option (List Int)) (showPending : Bool)
    (s : Store) : List (SubscriptionRow × Option FeedRow) :=
  ((s.visible user showPending).filter fun r => ids.all fun ids => r.id ∈ ids).map s.withFeed

/-- A user's subscriptions to given feeds, in the order of the feeds' ids. -/
def runSubscriptionsTo (user : Int) (feeds : List Int) (s : Store) :
    List (SubscriptionRow × Option FeedRow) :=
  ((s.subscriptions.filter fun r => r.user = user && r.feedId.any fun f => f ∈ feeds).mergeSort
    fun a b => a.feedId.getD 0 ≤ b.feedId.getD 0).map s.withFeed

/-- Inserts one planned row. -/
def runInsertRow (row : Planned) (stamp : String) (s : Store) : Option Inserted × Store :=
  match Store.insertRow stamp s row with
  | some (outcome, s) => (some outcome, s)
  | none => (none, s)

/-- The row is the subscription with an id and belongs to a user. -/
def isOwned (id user : Int) (r : SubscriptionRow) : Bool := r.id = id && r.user = user

/-- Deletes a user's subscription. -/
def runDeleteSubscription (id user : Int) (s : Store) : Bool × Store :=
  (s.subscriptions.any (isOwned id user),
    { s with subscriptions := s.subscriptions.filter fun r => !isOwned id user r })

/-- Sets the offset and the clock of a user's subscription whose clock is still `seen`. -/
def runSwapOffset (id user offset : Int) (seen stamp : String) (s : Store) : Bool × Store :=
  let meets (r : SubscriptionRow) : Bool := isOwned id user r && r.updatedAt = seen
  (s.subscriptions.any meets,
    { s with
      subscriptions := s.subscriptions.map fun r =>
        if meets r then { r with storyOffset := offset, updatedAt := stamp } else r })

/-- Binds an unbound subscription to a feed. -/
def runBind (id feedId : Int) (status : Status) (stamp : String) (s : Store) : Bound × Store :=
  match s.subscription? id with
  | none => (.stale, s)
  | some r =>
    if r.feedId.isSome then (.stale, s)
    else if (s.holder? r.user feedId).isSome then (.duplicate, s)
    else
      (.bound, s.editSubscription id fun r =>
        { r with feedId := some feedId, status := status.name, updatedAt := stamp })

/-- What a call does to a store and what it answers. -/
def run : (c : Call) → Store → c.Answer × Store
  | addMapping source target stamp, s => runAddMapping source target stamp s
  | findTarget source, s => ((s.mapping? source).map (·.target), s)
  | findTargets sources, s => ((s.mappingsOf sources).map fun m => (m.source, m.target), s)
  | ensureFeed url stamp, s => runEnsureFeed url stamp s
  | findFeed id, s => (s.feed? id, s)
  | findFeedAt url, s => (s.feedAt? url, s)
  | findFeedsAt urls, s => (runFindFeedsAt urls s, s)
  | moveFeed id transition, s => s.moveFeed id transition
  | addSnapshot draft stamp, s => runAddSnapshot draft stamp s
  | lastSnapshot feedId, s => (s.snapshot? feedId, s)
  | findSubscription id owner, s => (runFindSubscription id owner s, s)
  | listSubscriptions user ids showPending, s => (runListSubscriptions user ids showPending s, s)
  | subscriptionsTo user feeds, s => (runSubscriptionsTo user feeds s, s)
  | clocks user showPending, s =>
    ((s.visible user showPending).map fun r => (r.id, r.updatedAt), s)
  | insertRow row stamp, s => runInsertRow row stamp s
  | insertBatch rows size stamp, s => s.insertBatch rows size stamp
  | deleteSubscription id user, s => runDeleteSubscription id user s
  | swapOffset id user offset seen stamp, s => runSwapOffset id user offset seen stamp s
  | bind id feedId status stamp, s => runBind id feedId status stamp s

end Call

end Syndication
