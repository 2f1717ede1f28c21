import Syndication.Subscription.Basic
/-!
# Differential sync

A client sends what it holds as hints: the ids of subscriptions with the clocks it has seen. It
has to refresh every subscription whose id it does not name and every one whose clock is strictly
later than the one it named last.
-/

namespace Syndication

/-- A subscription the client holds, with the clock it has seen. -/
structure Hint where
  id : Int
  seenAt : Instant
  deriving DecidableEq

/-- What a client asks for. -/
structure SyncQuery where
  /-- Without hints everything is returned. -/
  hints : List Hint
  detail : Bool
  showPending : Bool

/-- What a client gets: the size of the whole visible population, and what it has to refresh. -/
structure SyncAnswer where
  total : Nat
  subscriptions : List Subscription
  deriving DecidableEq

namespace Sync

/-- The clock a list of hints gives for an id: the last one counts. -/
def seen? (hints : List Hint) (id : Int) : Option Instant :=
  (hints.reverse.find? fun h => h.id = id).map (·.seenAt)

/-- The client does not hold the subscription as it is now. -/
def isStale (hints : List Hint) (id : Int) (updatedAt : Instant) : Bool :=
  match seen? hints id with
  | some seenAt => seenAt < updatedAt
  | none => true

/-- The ids to refresh, in the order of the current clocks. -/
def changedIds (current : List (Int × Instant)) (hints : List Hint) : List Int :=
  (current.filter fun (id, updatedAt) => isStale hints id updatedAt).map (·.1)

/-- One subscription may stand before another: its clock is later, or it is the same and its id is
not smaller. -/
def recentFirst (a b : Subscription) : Bool :=
  b.updatedAt < a.updatedAt || (a.updatedAt = b.updatedAt && b.id ≤ a.id)

/-- The most recently changed first; ids decide between equal clocks. -/
def sortByRecency (subscriptions : List Subscription) : List Subscription :=
  subscriptions.mergeSort recentFirst

end Sync

end Syndication
