import Syndication.Text.Quoted
/-!
# Crawl status

Where a feed stands in its crawls, and a subscription bound to it. A new feed is pending, a crawl
makes it updating, and the crawl's outcome makes it ready or puts it in error, from where the
next crawl may start.
-/

namespace Syndication

/-- Where a feed stands in its crawls. -/
inductive Status
  | pending
  | updating
  | ready
  | error
  deriving DecidableEq, Repr, Inhabited

namespace Status

/-- Every status. -/
def all : List Status := [.pending, .updating, .ready, .error]

/-- The name of a status, in stores and in records. -/
def name : Status → String
  | .pending => "pending"
  | .updating => "updating"
  | .ready => "ready"
  | .error => "error"

/-- The status with a name. -/
def ofName? (name : String) : Option Status := all.find? fun s => s.name = name

/-- What is said of a name that no status has. -/
def unknownMessage (name : String) : String := "unknown feed status: " ++ Text.quoted name

/-- The statuses a feed may be in before it moves into this one. -/
def predecessors : Status → List Status
  | .pending => []
  | .updating => [.pending, .ready, .error]
  | .ready => [.updating]
  | .error => [.updating]

/-- A feed may move from one status into another. -/
def CanBecome (s next : Status) : Prop := s ∈ next.predecessors

instance (s next : Status) : Decidable (s.CanBecome next) :=
  inferInstanceAs (Decidable (s ∈ next.predecessors))

end Status

end Syndication
