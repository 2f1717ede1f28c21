import Mathlib
import Syndication.Proofs.Codec.Base64
import Syndication.Proofs.Json.Record
import Syndication.Proofs.Record.Headers
import Syndication.Proofs.Time.Written
import Syndication.Record.Snapshot
import Syndication.Record.Subscription
/-!
# Records read back

Every record is read from the value that it is written as (`ofJson?_toJson`), as long as its numbers
fit their widths (`Fits`); the payload of a snapshot, which is not written, is the one thing
missing (`Snapshot.withoutPayload`). What a record is written as is exact (`isExact_toJson`), so
its compact text stands for it.
-/

namespace Syndication

open Json

/-! ## Single values -/

theorem Instant.instant?_toJson (t : Instant) : instant? t.toJson = some t := by
  rw [instant?, Instant.toJson, text, text?, Option.bind_eq_bind, Option.bind_some,
    Instant.parse?_written]

theorem Instant.isExact_toJson (t : Instant) : t.toJson.IsExact := isExact_text _

theorem Status.ofJson?_toJson (s : Status) : Status.ofJson? s.toJson = some s := by
  cases s <;> rfl

theorem Status.isExact_toJson (s : Status) : s.toJson.IsExact := isExact_text _

namespace Record

theorem hash?_hashToJson (hash : List UInt8) : hash? (hashToJson hash) = some hash := by
  rw [hash?, hashToJson, text, text?, Option.bind_eq_bind, Option.bind_some, String.toList_ofList,
    Base64.decode?_encode]

theorem optional_hash (o : Option (List UInt8)) :
    optional hash? (some (nullable hashToJson o)) = some o :=
  optional_nullable (fun _ _ => by simp [hashToJson, text]) fun hash _ => hash?_hashToJson hash

theorem optional_instant (o : Option Instant) :
    optional instant? (some (nullable Instant.toJson o)) = some o :=
  optional_nullable (fun _ _ => by simp [Instant.toJson, text]) fun t _ => t.instant?_toJson

theorem isExact_hashToJson (hash : List UInt8) : (hashToJson hash).IsExact := isExact_text _

/-- A member that is there only with a value is exact with it. -/
theorem isExact_of_mem_ifSome {α : Type} {name : String} {toJson : α → Json} {o : Option α}
    (h : ∀ a ∈ o, (toJson a).IsExact) : ∀ m ∈ ifSome name toJson o, m.2.IsExact := by
  cases o with
  | none => simp [ifSome]
  | some a => simpa [ifSome] using h a rfl

end Record

/-! ## Fingerprints -/

/-- The length fits its width. -/
structure Fingerprint.Fits (f : Fingerprint) : Prop where
  length : ∀ n ∈ f.length, IsInt64 n

theorem Fingerprint.ofJson?_toJson {f : Fingerprint} (h : f.Fits) :
    Fingerprint.ofJson? f.toJson = some f := by
  refine (of_fields? [some (nullable .int f.length), some (nullable Record.hashToJson f.hash),
    some (nullable .text f.etag), some (nullable .text f.lastModified)] rfl).trans ?_
  simp [optional_int64 h.length, Record.optional_hash, optional_text]

theorem Fingerprint.isExact_toJson (f : Fingerprint) : f.toJson.IsExact := by
  simp [toJson, isExact_object, isExact_nullable isExact_int, isExact_nullable isExact_text,
    isExact_nullable Record.isExact_hashToJson]

/-! ## Feeds -/

/-- The numbers fit their widths. -/
structure Feed.Detail.Fits (d : Feed.Detail) : Prop where
  totalStories : IsInt64 d.totalStories
  fingerprint : d.fingerprint.Fits

theorem Feed.Detail.ofJson?_toJson {d : Feed.Detail} (h : d.Fits) :
    Feed.Detail.ofJson? d.toJson = some d := by
  refine (of_fields? [some (.int d.totalStories), some (nullable .text d.encoding),
    some (nullable .text d.fingerprint.etag), some (nullable .text d.fingerprint.lastModified),
    some (nullable .int d.fingerprint.length),
    some (nullable Record.hashToJson d.fingerprint.hash),
    some (nullable Instant.toJson d.checkedAt), some (nullable Instant.toJson d.syncedAt)]
    rfl).trans ?_
  simp [present, int64?_int h.totalStories, optional_int64 h.fingerprint.length,
    Record.optional_hash, Record.optional_instant, optional_text]

theorem Feed.Detail.isExact_toJson (d : Feed.Detail) : d.toJson.IsExact := by
  simp [toJson, isExact_object, isExact_int, isExact_nullable isExact_int,
    isExact_nullable isExact_text, isExact_nullable Record.isExact_hashToJson,
    isExact_nullable Instant.isExact_toJson]

/-- The numbers of the feed and of its details fit their widths. -/
structure Feed.Fits (f : Feed) : Prop where
  id : IsInt64 f.id
  detail : ∀ d ∈ f.detail, d.Fits

theorem Feed.ofJson?_toJson {f : Feed} (h : f.Fits) : Feed.ofJson? f.toJson = some f := by
  have hdetail : optional Feed.Detail.ofJson? (f.detail.map Feed.Detail.toJson) = some f.detail :=
    optional_map (fun _ _ => by simp [Feed.Detail.toJson, object]) fun d hd =>
      Feed.Detail.ofJson?_toJson (h.detail d hd)
  refine (of_fields? [some (.int f.id), some (.text f.url), some f.status.toJson,
    some (nullable .text f.profile.title), some (nullable .text f.profile.link),
    some (nullable .text f.profile.author), some (nullable .text f.profile.icon),
    some (nullable .text f.profile.description), some (nullable .text f.profile.version),
    some f.createdAt.toJson, some f.updatedAt.toJson, f.detail.map Feed.Detail.toJson]
    ?_).trans ?_
  · -- the last member is there or not
    obtain ⟨_, _, _, _, _, _, _ | _⟩ := f <;> rfl
  · simp [present, int64?_int h.id, text?_text, Status.ofJson?_toJson, Instant.instant?_toJson,
      optional_text, hdetail]

theorem Feed.isExact_toJson (f : Feed) : f.toJson.IsExact := by
  rw [toJson, isExact_object, List.forall_mem_append]
  constructor
  · simp [isExact_int, isExact_text, isExact_nullable isExact_text, Status.isExact_toJson,
      Instant.isExact_toJson]
  · exact Record.isExact_of_mem_ifSome fun d _ => d.isExact_toJson

/-! ## Mappings -/

/-- The id fits its width. -/
structure Mapping.Fits (m : Mapping) : Prop where
  id : IsInt64 m.id

theorem Mapping.ofJson?_toJson {m : Mapping} (h : m.Fits) : Mapping.ofJson? m.toJson = some m := by
  refine (of_fields? [some (.int m.id), some (.text m.source), some (.text m.target),
    some m.createdAt.toJson] rfl).trans ?_
  simp [present, int64?_int h.id, text?_text, Instant.instant?_toJson]

theorem Mapping.isExact_toJson (m : Mapping) : m.toJson.IsExact := by
  simp [toJson, isExact_object, isExact_int, isExact_text, Instant.isExact_toJson]

/-! ## Subscriptions -/

/-- The numbers of the subscription and of the feed shown with it fit their widths. -/
structure Subscription.Fits (s : Subscription) : Prop where
  id : IsInt64 s.id
  user : IsInt64 s.user
  feedId : ∀ n ∈ s.feedId, IsInt64 n
  storyOffset : IsInt64 s.storyOffset
  feed : ∀ f ∈ s.feed, f.Fits

theorem Subscription.ofJson?_toJson {s : Subscription} (h : s.Fits) :
    Subscription.ofJson? s.toJson = some s := by
  have hfeed : optional Feed.ofJson? (s.feed.map Feed.toJson) = some s.feed :=
    optional_map (fun _ _ => by simp [Feed.toJson, object]) fun f hf =>
      Feed.ofJson?_toJson (h.feed f hf)
  refine (of_fields? [some (.int s.id), some (.int s.user), some (nullable .int s.feedId),
    some s.status.toJson, some (.text s.url), some (nullable .text s.title),
    some (.int s.storyOffset), some s.createdAt.toJson, some s.updatedAt.toJson,
    s.feed.map Feed.toJson] ?_).trans ?_
  · -- the last member is there or not
    obtain ⟨_, _, _, _, _, _, _, _, _, _ | _⟩ := s <;> rfl
  · simp [present, int64?_int h.id, int64?_int h.user, optional_int64 h.feedId,
      int64?_int h.storyOffset, text?_text, Status.ofJson?_toJson, Instant.instant?_toJson,
      optional_text, hfeed]

theorem Subscription.isExact_toJson (s : Subscription) : s.toJson.IsExact := by
  rw [toJson, isExact_object, List.forall_mem_append]
  constructor
  · simp [isExact_int, isExact_text, isExact_nullable isExact_text, isExact_nullable isExact_int,
      Status.isExact_toJson, Instant.isExact_toJson]
  · exact Record.isExact_of_mem_ifSome fun f _ => f.isExact_toJson

/-! ## Hints -/

/-- The id fits its width. -/
structure Hint.Fits (h : Hint) : Prop where
  id : IsInt64 h.id

theorem Hint.ofJson?_toJson {hint : Hint} (h : hint.Fits) :
    Hint.ofJson? hint.toJson = some hint := by
  refine (of_fields? [some (.int hint.id), some hint.seenAt.toJson] rfl).trans ?_
  simp [present, int64?_int h.id, Instant.instant?_toJson]

theorem Hint.isExact_toJson (h : Hint) : h.toJson.IsExact := by
  simp [toJson, isExact_object, isExact_int, Instant.isExact_toJson]

/-! ## Sync answers -/

/-- The total and the numbers of every subscription fit their widths. -/
structure SyncAnswer.Fits (a : SyncAnswer) : Prop where
  total : a.total < 18446744073709551616
  subscriptions : ∀ s ∈ a.subscriptions, s.Fits

theorem SyncAnswer.ofJson?_toJson {a : SyncAnswer} (h : a.Fits) :
    SyncAnswer.ofJson? a.toJson = some a := by
  have hsubscriptions :
      list? Subscription.ofJson? (.arr (a.subscriptions.map Subscription.toJson)) =
        some a.subscriptions :=
    list?_map fun s hs => Subscription.ofJson?_toJson (h.subscriptions s hs)
  refine (of_fields? [some (.int a.total),
    some (.arr (a.subscriptions.map Subscription.toJson))] rfl).trans ?_
  simp [present, nat64?_int h.total, hsubscriptions]

theorem SyncAnswer.isExact_toJson (a : SyncAnswer) : a.toJson.IsExact := by
  have hsubscriptions : (Json.arr (a.subscriptions.map Subscription.toJson)).IsExact := by
    rw [IsExact, areExact_iff, List.forall_mem_map]
    exact fun s _ => s.isExact_toJson
  simp [toJson, isExact_object, isExact_int, hsubscriptions]

/-! ## Snapshots -/

/-- The numbers fit their widths. -/
structure Snapshot.Fits (s : Snapshot) : Prop where
  id : IsInt64 s.id
  feedId : IsInt64 s.feedId
  statusCode : ∀ n ∈ s.statusCode, IsInt32 n
  fingerprint : s.fingerprint.Fits

/-- The snapshot as its record has it. -/
def Snapshot.withoutPayload (s : Snapshot) : Snapshot := { s with payload := none }

theorem Snapshot.ofJson?_toJson {s : Snapshot} (h : s.Fits) :
    Snapshot.ofJson? s.toJson = some s.withoutPayload := by
  refine (of_fields? [some (.int s.id), some (.int s.feedId), some (.text s.url),
    some (nullable .text s.encoding), some (nullable .int s.statusCode),
    some (nullable .text s.fingerprint.etag), some (nullable .text s.fingerprint.lastModified),
    some s.headers.toJson, some (nullable .int s.fingerprint.length),
    some (nullable Record.hashToJson s.fingerprint.hash), some s.createdAt.toJson] rfl).trans ?_
  simp [withoutPayload, present, int64?_int h.id, int64?_int h.feedId,
    optional_int32 h.statusCode, optional_int64 h.fingerprint.length, text?_text, optional_text,
    Headers.ofJson?_toJson, Record.optional_hash, Instant.instant?_toJson]

theorem Snapshot.isExact_toJson (s : Snapshot) : s.toJson.IsExact := by
  simp [toJson, isExact_object, isExact_int, isExact_text, isExact_nullable isExact_int,
    isExact_nullable isExact_text, isExact_nullable Record.isExact_hashToJson,
    Headers.isExact_toJson, Instant.isExact_toJson]

end Syndication
