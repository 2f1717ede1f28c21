import Syndication.Feed.Status
import Syndication.Time.Strict
/-!
# What can go wrong in a store

The causes for which an operation on a store stops, and the wording of each.
-/

namespace Syndication

/-- Why an operation on a store stops. -/
inductive StoreError
  /-- A status column holds no status. -/
  | unknownStatus (name : String)
  /-- A timestamp column cannot be read. -/
  | badStamp (fault : Stamp.Fault)
  /-- The clock of a subscription cannot be read while its feed changes. -/
  | badClock (fault : Stamp.Fault)
  /-- A headers column cannot be read. -/
  | badHeaders
  /-- A row to insert names a feed that does not exist. -/
  | noSuchFeed
  /-- A later part of a batch names a feed that does not exist. -/
  | partialBatch (committed : Nat)
  /-- The user holds a subscription to the feed. -/
  | duplicateSubscription (user feed : Int)
  /-- There is no such subscription, or it is somebody else's. -/
  | subscriptionNotFound (id : Int)
  | feedNotFound (id : Int)
  | invalidTransition (id : Int) (current next : Status)
  | alreadyBound (id : Int)
  /-- Others kept changing the subscription. -/
  | contended (id : Int)
  /-- A clock has come to the last instant there is. -/
  | clockOverflow
  deriving DecidableEq

namespace StoreError

/-- The wording of a failure inside the database. -/
def inDatabase (cause : String) : String := "Rusqlite(\"" ++ cause ++ "\")"

/-- The wording of a foreign key that names no row. -/
def foreignKey : String := inDatabase "FOREIGN KEY constraint failed"

/-- The wording of an error. -/
def message : StoreError → String
  | .unknownStatus name => "core error: " ++ Status.unknownMessage name
  | .badStamp fault => "date/time parse error: " ++ fault.message
  | .badClock fault =>
    "database error: " ++
      inDatabase ("Conversion error from type Text at index: 1, " ++ fault.message)
  | .badHeaders => "json error: headers are no object of texts"
  | .noSuchFeed => "database error: " ++ foreignKey
  | .partialBatch committed =>
    "bulk insert failed after " ++ toString committed ++ " rows were committed: " ++ foreignKey
  | .duplicateSubscription user feed =>
    "user " ++ toString user ++ " is already subscribed to feed " ++ toString feed
  | .subscriptionNotFound id => "subscription not found: " ++ toString id
  | .feedNotFound id => "feed not found: " ++ toString id
  | .invalidTransition id current next =>
    "feed " ++ toString id ++ " cannot move from " ++ current.name ++ " to " ++ next.name
  | .alreadyBound id => "subscription " ++ toString id ++ " is already bound to a feed"
  | .contended id => "subscription " ++ toString id ++ " changed concurrently; retry"
  | .clockOverflow => "`DateTime + TimeDelta` overflowed"

end StoreError

end Syndication
