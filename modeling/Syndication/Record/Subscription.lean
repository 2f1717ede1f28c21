import Syndication.Json.Reader
import Syndication.Record.Feed
import Syndication.Subscription.Sync
/-!
# Subscriptions, hints and sync answers as records

A subscription without a feed has no member for it. A list of hints is an array of their records.
-/

namespace Syndication

open Json

/-! ## Subscriptions -/

/-- A subscription as a record. -/
def Subscription.toJson (s : Subscription) : Json :=
  .object ([
    ("id", .int s.id),
    ("user_id", .int s.user),
    ("feed_id", nullable .int s.feedId),
    ("status", s.status.toJson),
    ("url", .text s.url),
    ("title", nullable .text s.title),
    ("story_offset", .int s.storyOffset),
    ("dt_created", s.createdAt.toJson),
    ("dt_updated", s.updatedAt.toJson)] ++ Record.ifSome "feed" Feed.toJson s.feed)

/-- A subscription from a record. -/
def Subscription.ofJson? (value : Json) : Option Subscription := do
  match ← fields? [
    ("id", .required),
    ("user_id", .required),
    ("feed_id", .nullable),
    ("status", .required),
    ("url", .required),
    ("title", .nullable),
    ("story_offset", .required),
    ("dt_created", .required),
    ("dt_updated", .required),
    ("feed", .omissible)] value with
  | [id, user, feedId, status, url, title, offset, created, updated, feed] =>
    some
      { id := ← present int64? id
        user := ← present int64? user
        feedId := ← optional int64? feedId
        status := ← present Status.ofJson? status
        url := ← present text? url
        title := ← optional text? title
        storyOffset := ← present int64? offset
        createdAt := ← present instant? created
        updatedAt := ← present instant? updated
        feed := ← optional Feed.ofJson? feed }
  | _ => none

/-! ## Hints -/

/-- A hint as a record. -/
def Hint.toJson (h : Hint) : Json :=
  .object [("id", .int h.id), ("dt_updated", h.seenAt.toJson)]

/-- A hint from a record. -/
def Hint.ofJson? (value : Json) : Option Hint := do
  match ← fields? [("id", .required), ("dt_updated", .required)] value with
  | [id, updated] => some { id := ← present int64? id, seenAt := ← present instant? updated }
  | _ => none

/-- The hints of an array. -/
def Hint.list? : Json → Option (List Hint) := Json.list? Hint.ofJson?

/-- The hints that a text holds. -/
def Hint.read? (text : String) : Option (List Hint) := do Hint.list? (← Json.parse? text)

/-! ## Sync answers -/

/-- A sync answer as a record. -/
def SyncAnswer.toJson (a : SyncAnswer) : Json :=
  .object [
    ("total", .int a.total),
    ("subscriptions", .arr (a.subscriptions.map Subscription.toJson))]

/-- A sync answer from a record. -/
def SyncAnswer.ofJson? (value : Json) : Option SyncAnswer := do
  match ← fields? [("total", .required), ("subscriptions", .required)] value with
  | [total, subscriptions] =>
    some
      { total := ← present nat64? total
        subscriptions := ← present (Json.list? Subscription.ofJson?) subscriptions }
  | _ => none

end Syndication
