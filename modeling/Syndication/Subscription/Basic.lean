import Syndication.Feed.Basic
/-!
# Subscriptions

A user's request for an address. Until the address has been resolved the subscription is pending
and bound to no feed; the feed it is bound to is shown with it but belongs to nobody.
-/

namespace Syndication

/-- A user's subscription. -/
structure Subscription where
  id : Int
  user : Int
  /-- The feed it is bound to. -/
  feedId : Option Int
  status : Status
  /-- The address as the user entered it. -/
  url : String
  /-- The user's own title for the feed. -/
  title : Option String
  storyOffset : Int
  createdAt : Instant
  /-- The clock by which clients see that something has changed. -/
  updatedAt : Instant
  feed : Option Feed
  deriving DecidableEq

namespace Subscription

/-- The feed can be read. -/
def isReady (s : Subscription) : Bool := s.status = .ready

/-- The address has been resolved. -/
def isBound (s : Subscription) : Bool := s.feedId.isSome

/-- The user's title, else the feed's. -/
def displayTitle (s : Subscription) : Option String :=
  s.title <|> s.feed.bind fun f => f.profile.title

/-- How many stories the user has not read. -/
inductive Unread
  /-- The feed or its details have not been loaded. -/
  | unknown
  | count (n : Int)
  /-- The difference has no place in 64 bits. -/
  | overflow
  deriving DecidableEq

/-- The stories of the feed less those the user has read. -/
def unread (s : Subscription) : Unread :=
  match s.feed.bind (·.detail) with
  | some detail =>
    let n := detail.totalStories - s.storyOffset
    if -9223372036854775808 ≤ n ∧ n ≤ 9223372036854775807 then .count n else .overflow
  | none => .unknown

end Subscription

end Syndication
