import Syndication.Store.Subscriptions
/-!
# Requests

Everything that can be asked of a store, as data: a request with its arguments is an operation,
and what the operation gives is a reply.
-/

namespace Syndication

/-- What can be asked of a store. -/
inductive Request
  | recordMapping (source target : String)
  | recordMappingAt (source target : String) (time : Instant)
  | findTarget (source : String)
  | findTargets (sources : List String)
  | getOrCreateFeed (url : String)
  | getFeed (id : Int) (detail : Bool)
  | findFeedAt (url : String) (detail : Bool)
  | beginCrawl (id : Int)
  | finishCrawl (id : Int) (update : Feed.Update)
  | failCrawl (id : Int)
  | recordSnapshot (draft : Snapshot.Draft)
  | latestSnapshot (feedId : Int)
  | subscribe (url : String) (user : Int)
  | subscribeAll (urls : List String) (user : Int) (size : Nat)
  | getSubscription (id user : Int) (detail : Bool)
  | unsubscribe (id user : Int)
  | sync (user : Int) (query : SyncQuery)
  | setOffset (id user offset : Int)
  | resolve (id : Int) (target : String)
  | insertPlanned (rows : List Planned) (size : Nat) (time : Instant)

/-- What a request gives. -/
inductive Reply
  | nothing
  | mapping (mapping : Mapping)
  | target (target : Option String)
  | targets (targets : List (String × String))
  | feed (feed : Feed)
  | maybeFeed (feed : Option Feed)
  | snapshot (snapshot : Snapshot)
  | maybeSnapshot (snapshot : Option Snapshot)
  | subscription (subscription : Subscription)
  | subscriptions (subscriptions : List Subscription)
  | sync (answer : SyncAnswer)
  | inserted (outcomes : List Inserted)
  deriving DecidableEq

namespace Request

/-- The operation that a request stands for. -/
def operation : Request → Operation Reply
  | recordMapping source target => .mapping <$> Store.recordMapping source target
  | recordMappingAt source target time => .mapping <$> Store.recordMappingAt source target time
  | findTarget source => .target <$> Store.findTarget source
  | findTargets sources => .targets <$> Store.findTargets sources
  | getOrCreateFeed url => .feed <$> Store.getOrCreateFeed url
  | getFeed id detail => .maybeFeed <$> Store.getFeed id detail
  | findFeedAt url detail => .maybeFeed <$> Store.findFeedAt url detail
  | beginCrawl id => .feed <$> Store.beginCrawl id
  | finishCrawl id update => .feed <$> Store.finishCrawl id update
  | failCrawl id => .feed <$> Store.failCrawl id
  | recordSnapshot draft => .snapshot <$> Store.recordSnapshot draft
  | latestSnapshot feedId => .maybeSnapshot <$> Store.latestSnapshot feedId
  | subscribe url user => .subscription <$> Store.subscribe url user
  | subscribeAll urls user size => .subscriptions <$> Store.subscribeAll urls user size
  | getSubscription id user detail => .subscription <$> Store.getSubscription id user detail
  | unsubscribe id user => (fun _ => .nothing) <$> Store.unsubscribe id user
  | sync user query => .sync <$> Store.sync user query
  | setOffset id user offset => .subscription <$> Store.setOffset id user offset
  | resolve id target => .subscription <$> Store.resolve id target
  | insertPlanned rows size time => .inserted <$> Store.insertPlanned rows size time

end Request

end Syndication
