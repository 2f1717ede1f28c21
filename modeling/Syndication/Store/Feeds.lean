import Syndication.Feed.Mapping
import Syndication.Store.Loading
import Syndication.Store.Program
/-!
# Resolving, crawling and recording

The operations that every user shares: the log of mappings, the feeds with their crawls, and the
snapshots.
-/

namespace Syndication.Store

open Operation

/-! ## Mappings -/

/-- Records at a given time that a source leads to a target. -/
def recordMappingAt (source target : String) (time : Instant) : Operation Mapping := do
  let id ← call (.addMapping source target time.stamp)
  loaded (MappingRow.load ⟨id, source, target, time.stamp⟩)

/-- Records that a source leads to a target. -/
def recordMapping (source target : String) : Operation Mapping := do
  let time ← now
  recordMappingAt source target time

/-- Where a source leads, if that is known. -/
def findTarget (source : String) : Operation (Option String) := call (.findTarget source)

/-- Where sources lead, those of which it is known. -/
def findTargets (sources : List String) : Operation (List (String × String)) :=
  call (.findTargets sources)

/-! ## Feeds -/

/-- The feed at a canonical address, created as pending if there is none. -/
def getOrCreateFeed (url : String) : Operation Feed := do
  let time ← now
  let row ← call (.ensureFeed url time.stamp)
  loaded (row.load true)

/-- The value of a feed's row, if there is a row. -/
def loadFeed (detail : Bool) : Option FeedRow → Operation (Option Feed)
  | some row => do
    let feed ← loaded (row.load detail)
    pure (some feed)
  | none => pure none

/-- The feed with an id. -/
def getFeed (id : Int) (detail : Bool) : Operation (Option Feed) := do
  let row ← call (.findFeed id)
  loadFeed detail row

/-- The feed at a canonical address. -/
def findFeedAt (url : String) (detail : Bool) : Operation (Option Feed) := do
  let row ← call (.findFeedAt url)
  loadFeed detail row

/-! ## Crawls -/

/-- Makes a transition and loads the feed after it. -/
def transit (id : Int) (t : Transition) : Operation Feed := do
  let outcome ← call (.moveFeed id t)
  match outcome with
  | .missing => throw (.feedNotFound id)
  | .failed e => throw e
  | .refused name =>
    let current ← loaded (Status.load name)
    throw (.invalidTransition id current t.target)
  | .moved =>
    match ← getFeed id true with
    | some feed => pure feed
    | none => throw (.feedNotFound id)

/-- A crawl of a feed starts. -/
def beginCrawl (id : Int) : Operation Feed := do
  let time ← now
  transit id (.begin time.stamp)

/-- A crawl has brought an update. Whether the payload has changed is decided by the fingerprint
that the feed has when it is loaded. -/
def finishCrawl (id : Int) (update : Feed.Update) : Operation Feed := do
  let some feed ← getFeed id true | throw (.feedNotFound id)
  let known := feed.detail.elim .empty (·.fingerprint)
  let changed := !update.fingerprint.agrees known
  let time ← now
  let updatedAt ← tickAfter feed.updatedAt
  transit id (.finish update changed updatedAt.stamp time.stamp time)

/-- A crawl has failed. -/
def failCrawl (id : Int) : Operation Feed := do
  let time ← now
  transit id (.fail time)

/-! ## Snapshots -/

/-- Records a fetch. -/
def recordSnapshot (draft : Snapshot.Draft) : Operation Snapshot := do
  let time ← now
  match ← call (.addSnapshot draft time.stamp) with
  | none => throw (.feedNotFound draft.feedId)
  | some id =>
    pure
      { id
        feedId := draft.feedId
        url := draft.url
        encoding := draft.encoding
        statusCode := draft.statusCode
        headers := draft.headers
        payload := draft.payload
        fingerprint := draft.fingerprint
        createdAt := time }

/-- The last snapshot of a feed. -/
def latestSnapshot (feedId : Int) : Operation (Option Snapshot) := do
  match ← call (.lastSnapshot feedId) with
  | some row => do
    let snapshot ← loaded row.load
    pure (some snapshot)
  | none => pure none

end Syndication.Store
