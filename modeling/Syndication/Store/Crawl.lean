import Syndication.Store.Error
import Syndication.Store.Tables
import Syndication.Time.Written
/-!
# Crawl transitions

A transition moves a feed into its next status, writes what the crawl brings, and makes the
subscriptions to the feed follow; all of it or nothing. Only the predecessors of the next status
admit it.
-/

namespace Syndication

/-- What a transition writes. -/
inductive Transition
  /-- A crawl starts. -/
  | begin (checkedAt : String)
  /-- A crawl has succeeded. If the payload has `changed` everything is overwritten, else only the
  encoding and what is known of the payload are refreshed. Clocks move to `now` or past it. -/
  | finish (update : Feed.Update) (changed : Bool) (updatedAt syncedAt : String) (now : Instant)
  /-- A crawl has failed. -/
  | fail (now : Instant)

/-- The status that a transition leads to. -/
def Transition.target : Transition → Status
  | .begin _ => .updating
  | .finish .. => .ready
  | .fail _ => .error

/-- The outcome of a transition. -/
inductive Moved
  /-- There is no such feed. -/
  | missing
  /-- The feed's status, given as it is stored, does not admit the transition. -/
  | refused (status : String)
  /-- The subscriptions could not follow. -/
  | failed (error : StoreError)
  | moved
  deriving DecidableEq

/-- A feed after the writes of a transition. -/
def FeedRow.apply (r : FeedRow) : Transition → FeedRow
  | .begin checkedAt => { r with status := Status.updating.name, checkedAt := some checkedAt }
  | .finish u true updatedAt syncedAt _ =>
    { r with
      status := Status.ready.name
      profile := u.profile
      encoding := u.encoding
      totalStories := u.totalStories
      fingerprint := u.fingerprint
      updatedAt
      syncedAt := some syncedAt }
  | .finish u false _ syncedAt _ =>
    { r with
      status := Status.ready.name
      encoding := u.encoding <|> r.encoding
      fingerprint := r.fingerprint.refresh u.fingerprint
      syncedAt := some syncedAt }
  | .fail _ => { r with status := Status.error.name }

/-- A subscription after its feed has moved into `status`. One that is there already keeps its
clock unless `force` is set. -/
def SubscriptionRow.follow (feedId : Int) (status : Status) (now : Instant) (force : Bool)
    (r : SubscriptionRow) : Except StoreError SubscriptionRow :=
  if r.feedId = some feedId ∧ (force ∨ r.status ≠ status.name) then
    match Stamp.decode r.updatedAt with
    | .error fault => .error (.badClock fault)
    | .ok previous =>
      match Instant.advance? previous now with
      | some t => .ok { r with status := status.name, updatedAt := t.stamp }
      | none => .error .clockOverflow
  else .ok r

namespace Store

/-- The subscriptions after a transition of a feed. -/
def followers (s : Store) (feedId : Int) : Transition → Except StoreError (List SubscriptionRow)
  | .begin _ => .ok s.subscriptions
  | .finish _ changed _ _ now =>
    s.subscriptions.mapM (SubscriptionRow.follow feedId .ready now changed)
  | .fail now => s.subscriptions.mapM (SubscriptionRow.follow feedId .error now false)

/-- One transition of a feed. -/
def moveFeed (s : Store) (id : Int) (t : Transition) : Moved × Store :=
  match s.feed? id with
  | none => (.missing, s)
  | some row =>
    if row.status ∈ t.target.predecessors.map Status.name then
      match s.followers id t with
      | .ok subscriptions => (.moved, { s.editFeed id (·.apply t) with subscriptions })
      | .error e => (.failed e, s)
    else (.refused row.status, s)

end Store

end Syndication
