import Syndication.Store.Tables
import Syndication.Subscription.Plan
/-!
# Inserting subscriptions

A planned row is inserted unless its user already holds its feed; then it stands for the row that
holds it. A row that names a feed that does not exist cannot be inserted. Batches go in chunks:
a chunk is inserted as a whole or not at all, and the first chunk that cannot be inserted ends the
batch.
-/

namespace Syndication

/-- What has become of a planned row. -/
inductive Inserted
  | new (id : Int)
  /-- The user held the feed already. -/
  | existing (id feedId : Int)
  deriving DecidableEq

namespace Store

/-- A new subscription, whatever it names. -/
def addSubscription (s : Store) (row : Planned) (stamp : String) : Store :=
  let id := s.lastSubscriptionId + 1
  { s with
    subscriptions := s.subscriptions ++
      [⟨id, row.user, row.feedId, row.status.name, row.url, none, 0, stamp, stamp⟩]
    lastSubscriptionId := id }

/-- One planned row; none when its feed does not exist. -/
def insertRow (stamp : String) (s : Store) (row : Planned) : Option (Inserted × Store) :=
  match row.feedId with
  | none => some (.new (s.lastSubscriptionId + 1), s.addSubscription row stamp)
  | some feed =>
    match s.holder? row.user feed with
    | some held => some (.existing held.id feed, s)
    | none =>
      if (s.feed? feed).isSome then
        some (.new (s.lastSubscriptionId + 1), s.addSubscription row stamp)
      else none

/-- All rows of a chunk, or none of them. -/
def insertChunk (stamp : String) : Store → List Planned → Option (List Inserted × Store)
  | s, [] => some ([], s)
  | s, row :: rows => do
    let (outcome, s) ← insertRow stamp s row
    let (outcomes, s) ← insertChunk stamp s rows
    some (outcome :: outcomes, s)

/-- The outcome of a batch: one outcome per row, or how many rows had theirs before the chunk that
failed. -/
abbrev BatchOutcome := Except Nat (List Inserted)

/-- Rows in chunks of at most `size` rows, where zero counts as one, after rows with the outcomes
`done`. -/
def insertChunks (stamp : String) (size : Nat) (done : List Inserted) (s : Store) :
    List Planned → BatchOutcome × Store
  | [] => (.ok done, s)
  | row :: rows =>
    match insertChunk stamp s (row :: rows.take (size - 1)) with
    | some (outcomes, s) => insertChunks stamp size (done ++ outcomes) s (rows.drop (size - 1))
    | none => (.error done.length, s)
  termination_by rows => rows.length
  decreasing_by simp only [List.length_drop, List.length_cons]; omega

/-- A batch in chunks of at most `size` rows; zero counts as one. -/
def insertBatch (s : Store) (rows : List Planned) (size : Nat) (stamp : String) :
    BatchOutcome × Store :=
  insertChunks stamp size [] s rows

end Store

end Syndication
