import Mathlib
import Syndication.Proofs.Record.Values
/-!
# Every kind of record reads back

The eight kinds of records (`Record.Kind`) as they are exchanged: a value is written as compact text
(`Record.Kind.write`) and read from it (`Record.Kind.read?`). Whatever its texts, headers, digests
and instants are, the value read is the value written (`Record.Kind.read?_write`), and a snapshot
comes without its payload.
-/

namespace Syndication.Record

/-- The kinds of records. -/
inductive Kind
  | fingerprint
  | detail
  | feed
  | mapping
  | subscription
  | hint
  | answer
  | snapshot

namespace Kind

/-- What a record of a kind holds. -/
def Value : Kind → Type
  | .fingerprint => Fingerprint
  | .detail => Feed.Detail
  | .feed => Feed
  | .mapping => Mapping
  | .subscription => Subscription
  | .hint => Hint
  | .answer => SyncAnswer
  | .snapshot => Snapshot

/-- The numbers of a value fit their widths. -/
def Fits : (kind : Kind) → kind.Value → Prop
  | .fingerprint => Fingerprint.Fits
  | .detail => Feed.Detail.Fits
  | .feed => Feed.Fits
  | .mapping => Mapping.Fits
  | .subscription => Subscription.Fits
  | .hint => Hint.Fits
  | .answer => SyncAnswer.Fits
  | .snapshot => Snapshot.Fits

/-- What the record has of a value: everything but the payload of a snapshot. -/
def kept : (kind : Kind) → kind.Value → kind.Value
  | .snapshot, s => Snapshot.withoutPayload s
  | .fingerprint, v => v
  | .detail, v => v
  | .feed, v => v
  | .mapping, v => v
  | .subscription, v => v
  | .hint, v => v
  | .answer, v => v

/-! ## Texts -/

/-- A value as a record. -/
def toJson : (kind : Kind) → kind.Value → Json
  | .fingerprint => Fingerprint.toJson
  | .detail => Feed.Detail.toJson
  | .feed => Feed.toJson
  | .mapping => Mapping.toJson
  | .subscription => Subscription.toJson
  | .hint => Hint.toJson
  | .answer => SyncAnswer.toJson
  | .snapshot => Snapshot.toJson

/-- A value from a record. -/
def ofJson? : (kind : Kind) → Json → Option kind.Value
  | .fingerprint => Fingerprint.ofJson?
  | .detail => Feed.Detail.ofJson?
  | .feed => Feed.ofJson?
  | .mapping => Mapping.ofJson?
  | .subscription => Subscription.ofJson?
  | .hint => Hint.ofJson?
  | .answer => SyncAnswer.ofJson?
  | .snapshot => Snapshot.ofJson?

/-- The text of a value. -/
def write (kind : Kind) (value : kind.Value) : String := (kind.toJson value).toCompact

/-- The value of a text. -/
def read? (kind : Kind) (text : String) : Option kind.Value := do kind.ofJson? (← Json.parse? text)

/-! ## Reading back -/

theorem ofJson?_toJson {kind : Kind} {value : kind.Value} (h : kind.Fits value) :
    kind.ofJson? (kind.toJson value) = some (kind.kept value) := by
  cases kind with
  | fingerprint => exact Fingerprint.ofJson?_toJson h
  | detail => exact Feed.Detail.ofJson?_toJson h
  | feed => exact Feed.ofJson?_toJson h
  | mapping => exact Mapping.ofJson?_toJson h
  | subscription => exact Subscription.ofJson?_toJson h
  | hint => exact Hint.ofJson?_toJson h
  | answer => exact SyncAnswer.ofJson?_toJson h
  | snapshot => exact Snapshot.ofJson?_toJson h

theorem isExact_toJson (kind : Kind) (value : kind.Value) : (kind.toJson value).IsExact := by
  cases kind with
  | fingerprint => exact Fingerprint.isExact_toJson value
  | detail => exact Feed.Detail.isExact_toJson value
  | feed => exact Feed.isExact_toJson value
  | mapping => exact Mapping.isExact_toJson value
  | subscription => exact Subscription.isExact_toJson value
  | hint => exact Hint.isExact_toJson value
  | answer => exact SyncAnswer.isExact_toJson value
  | snapshot => exact Snapshot.isExact_toJson value

/-- **Every record reads back** from its text. -/
theorem read?_write {kind : Kind} {value : kind.Value} (h : kind.Fits value) :
    kind.read? (kind.write value) = some (kind.kept value) := by
  rw [read?, write, Json.parse?_toCompact (kind.isExact_toJson value), Option.bind_eq_bind,
    Option.bind_some, ofJson?_toJson h]

end Kind

/-! ## At the limits -/

/-- A leap second at the first midnight there is. -/
def firstLeap : Instant :=
  ⟨Instant.firstDay, 59, 1999999999, by decide, by decide, by decide, by decide⟩

/-- The last millisecond there is. -/
def lastMilli : Instant :=
  ⟨Instant.lastDay, 86399, 999000000, by decide, by decide, by decide, by decide⟩

/-- The details of a feed at the limits. -/
def limitDetail : Feed.Detail where
  totalStories := Json.minInt64
  encoding := some "\u0000\"\\\u2028é𝄞"
  fingerprint := ⟨some Json.maxInt64, some [], none, some ""⟩
  checkedAt := some firstLeap
  syncedAt := none

/-- A feed at the limits. -/
def limitFeed : Feed where
  id := Json.maxInt64
  url := ""
  status := .updating
  profile := .empty
  createdAt := lastMilli
  updatedAt := firstLeap
  detail := some limitDetail

/-- A sync answer at the limits. -/
def limitAnswer : SyncAnswer where
  total := 18446744073709551615
  subscriptions := [⟨1, Json.minInt64, none, .ready, "\t", some "null", 0, lastMilli, .epoch,
    some limitFeed⟩, ⟨1, 0, some 7, .error, "", none, -1, .epoch, firstLeap, none⟩]

theorem read?_write_limitAnswer : SyncAnswer.Fits limitAnswer ∧
    Kind.read? .answer (Kind.write .answer limitAnswer) = some limitAnswer := by
  have hdetail : limitDetail.Fits := ⟨by decide, ⟨by decide⟩⟩
  have hfeed : limitFeed.Fits := ⟨by decide, fun _ h => Option.some.inj h ▸ hdetail⟩
  have hfits : limitAnswer.Fits :=
    ⟨by decide, List.forall_mem_cons.2 ⟨⟨by decide, by decide, by decide, by decide,
      fun _ h => Option.some.inj h ▸ hfeed⟩, List.forall_mem_singleton.2
        ⟨by decide, by decide, by decide, by decide, by simp⟩⟩⟩
  exact ⟨hfits, @Kind.read?_write .answer limitAnswer hfits⟩

end Syndication.Record
