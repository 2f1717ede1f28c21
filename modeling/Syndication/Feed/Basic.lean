import Syndication.Feed.Fingerprint
import Syndication.Feed.Status
import Syndication.Time.Instant
/-!
# Feeds

A feed is the one record of a canonical address, shared by everyone who subscribes to it. What
describes it comes from its crawls.
-/

namespace Syndication

/-- The fields that describe a feed. -/
structure Feed.Profile where
  title : Option String
  link : Option String
  author : Option String
  icon : Option String
  description : Option String
  /-- The format of the feed. -/
  version : Option String
  deriving DecidableEq

/-- Nothing describes the feed yet. -/
def Feed.Profile.empty : Feed.Profile := ⟨none, none, none, none, none, none⟩

/-- The heavier fields, loaded only when asked for. -/
structure Feed.Detail where
  totalStories : Int
  encoding : Option String
  fingerprint : Fingerprint
  /-- The last attempt to crawl. -/
  checkedAt : Option Instant
  /-- The last crawl that succeeded. -/
  syncedAt : Option Instant
  deriving DecidableEq

/-- A feed. -/
structure Feed where
  id : Int
  url : String
  status : Status
  profile : Feed.Profile
  createdAt : Instant
  /-- When the descriptive fields last changed. -/
  updatedAt : Instant
  detail : Option Feed.Detail
  deriving DecidableEq

/-- The feed can be read. -/
def Feed.isReady (f : Feed) : Bool := f.status = .ready

/-- What a successful crawl brings. -/
structure Feed.Update where
  profile : Feed.Profile
  encoding : Option String
  totalStories : Int
  fingerprint : Fingerprint

end Syndication
