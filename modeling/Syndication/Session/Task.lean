import Syndication.Session.Failure
import Syndication.Store.Subscriptions
/-!
# Tasks

What a command does once its files have been read: operations on a store, and failures of its own.
The result is a value to show, or nothing.
-/

namespace Syndication

/-- Work on a store that may fail as a command does. -/
abbrev Task := ExceptT Failure Program

namespace Task

variable {α : Type}

/-- An operation on a store. -/
def ofOperation (op : Operation α) : Task α := ExceptT.adapt Failure.store op

/-- The user who gives the command. -/
def user (user : Option Int) : Task Int :=
  match user with
  | some user => pure user
  | none => throw .noUser

/-- Subscribes to an address. -/
def subscribe (acting : Option Int) (url : String) : Task Subscription := do
  let user ← user acting
  ofOperation (Store.subscribe url user)

/-- Subscribes to every address of a list. -/
def subscribeAll (acting : Option Int) (urls : List String) (size : Nat) :
    Task (List Subscription) := do
  let user ← user acting
  ofOperation (Store.subscribeAll urls user size)

/-- Shows what a user's client has to refresh. -/
def list (acting : Option Int) (query : SyncQuery) : Task SyncAnswer := do
  let user ← user acting
  ofOperation (Store.sync user query)

/-- Shows a subscription. -/
def get (acting : Option Int) (id : Int) (detail : Bool) : Task Subscription := do
  let user ← user acting
  ofOperation (Store.getSubscription id user detail)

/-- Deletes a subscription. -/
def unsubscribe (acting : Option Int) (id : Int) : Task Unit := do
  let user ← user acting
  ofOperation (Store.unsubscribe id user)

/-- Sets how far the user has read. -/
def setOffset (acting : Option Int) (id offset : Int) : Task Subscription := do
  let user ← user acting
  ofOperation (Store.setOffset id user offset)

/-- Shows the feed at an address. -/
def feed (url : String) (detail : Bool) : Task Feed := do
  match ← ofOperation (Store.findFeedAt url detail) with
  | some feed => pure feed
  | none => throw (.noFeedAt url)

/-- The fetch that a finished crawl has made. -/
def snapshotOf (compress : List UInt8 → List UInt8) (feedId : Int) (url : String)
    (body : List UInt8) (report : CrawlReport) : Snapshot.Draft where
  feedId := feedId
  url := url
  encoding := report.encoding
  statusCode := some 200
  etag := report.etag
  lastModified := report.lastModified
  headers := Headers.ofList []
  content := some body
  compress := compress

/-- What a finished crawl has brought. -/
def updateOf (body : List UInt8) (report : CrawlReport) : Feed.Update where
  profile := { Feed.Profile.empty with title := report.title, link := report.link }
  encoding := report.encoding
  totalStories := report.totalStories
  fingerprint := (Fingerprint.ofContent body).withValidators report.etag report.lastModified

/-- Records the fetch of a finished crawl and then, whether or not the feed is being crawled,
finishes the crawl. -/
def finishCrawl (compress : List UInt8 → List UInt8) (feedId : Int) (body : List UInt8)
    (report : CrawlReport) : Task Feed := do
  match ← ofOperation (Store.getFeed feedId false) with
  | none => throw (.noFeedWith feedId)
  | some feed => do
    let _ ← ofOperation (Store.recordSnapshot (snapshotOf compress feedId feed.url body report))
    ofOperation (Store.finishCrawl feedId (updateOf body report))

end Task

end Syndication
