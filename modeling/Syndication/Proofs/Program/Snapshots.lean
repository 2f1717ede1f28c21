import Syndication.Proofs.Feed.Payload
import Syndication.Proofs.Program.Requests
import Syndication.Proofs.Record.Headers
import Syndication.Proofs.Resolution.Latest
/-!
# The log of snapshots

Requests run one after another, each with its own readings of the clock. A `Collection` is the store
that they leave and what recording fetches has given on the way. No other request touches the
snapshots (`Request.snapshots_runOn`), so the table holds just the rows of what was given, in order
of their ids (`Collection.Sound`), and the last snapshot of a feed is read back as it was given,
field for field (`Collection.latestSnapshot_exact`). What compresses a payload is up to its draft;
only that the payload itself is given back needs a writer of gzip members there (`Snapshot.Keeps`).
-/

namespace Syndication

variable {α : Type}

/-! ## Requests that leave the snapshots -/

namespace Operation

/-- Makes no call that records a snapshot. -/
abbrev SparesSnapshots (op : Operation α) : Prop :=
  op.Makes (fun c => ∀ d stamp, c ≠ .addSnapshot d stamp) fun _ => True

theorem IsQuiet.sparesSnapshots {op : Operation α} (h : op.IsQuiet) : op.SparesSnapshots := by
  refine Makes.mono h fun c hc d stamp heq => ?_
  subst heq
  exact hc

theorem SparesSnapshots.bind {β : Type} {op : Operation α} {f : α → Operation β}
    (h : op.SparesSnapshots) (hf : ∀ a, (f a).SparesSnapshots) : (op >>= f).SparesSnapshots :=
  Makes.bind h fun a _ => hf a

end Operation

theorem Program.Ensures.snapshots_runOn {post : List Event → α → Prop} {p : Program α}
    {past : List Event}
    (hp : Ensures .recorded (fun _ c => ∀ d stamp, c ≠ .addSnapshot d stamp) post past p)
    (clock : Nat → Instant) (s : Store) : (p.runOn clock s).2.snapshots = s.snapshots := by
  induction p generalizing past s clock with
  | done a => rfl
  | call c next ih =>
    obtain ⟨added, hadded, hnew⟩ := c.snapshots_run s
    have hnone : added = [] := by
      refine List.eq_nil_iff_forall_not_mem.2 fun r hr => ?_
      obtain ⟨d, stamp, h, -⟩ := hnew r hr
      exact hp.1 d stamp h
    rw [hnone, List.append_nil] at hadded
    exact (ih _ (hp.2 _ _ rfl) clock _).trans hadded
  | clock next ih => exact ih _ (hp _ _ rfl) _ s

namespace Store

open Operation

theorem sparesSnapshots_recordMappingAt (source target : String) (time : Instant) :
    (recordMappingAt source target time).SparesSnapshots :=
  makes_call_bind (by simp) fun _ => makes_loaded _

theorem sparesSnapshots_recordMapping (source target : String) :
    (recordMapping source target).SparesSnapshots :=
  makes_now.bind fun time _ => sparesSnapshots_recordMappingAt source target time

theorem sparesSnapshots_transit (id : Int) (t : Transition) : (transit id t).SparesSnapshots := by
  refine makes_call_bind (by simp) fun outcome => ?_
  cases outcome with
  | missing => exact makes_throw
  | failed e => exact makes_throw
  | refused name => exact SparesSnapshots.bind (makes_loaded _) fun _ => makes_throw
  | moved =>
    refine (isQuiet_getFeed id true).sparesSnapshots.bind fun found => ?_
    cases found with
    | none => exact makes_throw
    | some feed => exact makes_pure True.intro

theorem sparesSnapshots_beginCrawl (id : Int) : (beginCrawl id).SparesSnapshots :=
  makes_now.bind fun _ _ => sparesSnapshots_transit id _

theorem sparesSnapshots_failCrawl (id : Int) : (failCrawl id).SparesSnapshots :=
  makes_now.bind fun _ _ => sparesSnapshots_transit id _

theorem sparesSnapshots_finishCrawl (id : Int) (update : Feed.Update) :
    (finishCrawl id update).SparesSnapshots := by
  refine (isQuiet_getFeed id true).sparesSnapshots.bind fun found => ?_
  cases found with
  | none => exact makes_throw
  | some feed =>
    exact makes_now.bind fun _ _ => (makes_tickAfter feed.updatedAt).bind fun _ _ =>
      sparesSnapshots_transit id _

theorem sparesSnapshots_resolve (id : Int) (target : String) :
    (resolve id target).SparesSnapshots := by
  refine (isQuiet_findSubscription id none false).sparesSnapshots.bind fun a => ?_
  split
  · exact makes_throw
  · refine (sparesSnapshots_recordMapping a.url target).bind fun _ => ?_
    refine (isQuiet_getOrCreateFeed target).sparesSnapshots.bind fun feed => ?_
    refine (makes_tickAfter a.updatedAt).bind fun next _ =>
      makes_call_bind (by simp) fun outcome => ?_
    cases outcome with
    | bound => exact (isQuiet_findSubscription id (some a.user) false).sparesSnapshots
    | stale => exact makes_throw
    | duplicate => exact makes_throw

theorem sparesSnapshots_insertPlanned (rows : List Planned) (size : Nat) (time : Instant) :
    (insertPlanned rows size time).SparesSnapshots := by
  refine makes_call_bind (by simp) fun outcome => ?_
  rcases outcome with (_ | committed) | outcomes
  · exact makes_throw
  · exact makes_throw
  · exact makes_pure True.intro

end Store

namespace Request

open Operation

/-- **Only recording a fetch touches the snapshots.** -/
theorem snapshots_runOn {request : Request} (h : ∀ d, request ≠ .recordSnapshot d)
    (clock : Nat → Instant) (s : Store) :
    (request.operation.runOn clock s).2.snapshots = s.snapshots := by
  have spared {β : Type} {op : Operation β} {g : β → Reply} (hop : op.SparesSnapshots)
      (heq : request.operation = g <$> op) :
      (request.operation.runOn clock s).2.snapshots = s.snapshots := by
    rw [heq, runOn_map]
    exact (hop []).snapshots_runOn clock s
  have quiet {β : Type} {op : Operation β} {g : β → Reply} (hop : op.IsQuiet)
      (heq : request.operation = g <$> op) :
      (request.operation.runOn clock s).2.snapshots = s.snapshots :=
    spared hop.sparesSnapshots heq
  cases request with
  | recordMapping source target =>
    exact spared (Store.sparesSnapshots_recordMapping source target) rfl
  | recordMappingAt source target time =>
    exact spared (Store.sparesSnapshots_recordMappingAt source target time) rfl
  | findTarget source => exact quiet (Store.isQuiet_findTarget source) rfl
  | findTargets sources => exact quiet (Store.isQuiet_findTargets sources) rfl
  | getOrCreateFeed url => exact quiet (Store.isQuiet_getOrCreateFeed url) rfl
  | getFeed id detail => exact quiet (Store.isQuiet_getFeed id detail) rfl
  | findFeedAt url detail => exact quiet (Store.isQuiet_findFeedAt url detail) rfl
  | beginCrawl id => exact spared (Store.sparesSnapshots_beginCrawl id) rfl
  | finishCrawl id update => exact spared (Store.sparesSnapshots_finishCrawl id update) rfl
  | failCrawl id => exact spared (Store.sparesSnapshots_failCrawl id) rfl
  | recordSnapshot d => exact absurd rfl (h d)
  | latestSnapshot feedId => exact quiet (Store.isQuiet_latestSnapshot feedId) rfl
  | subscribe url user => exact quiet (Store.isQuiet_subscribe url user) rfl
  | subscribeAll urls user size => exact quiet (Store.isQuiet_subscribeAll urls user size) rfl
  | getSubscription id user detail =>
    exact quiet (Store.isQuiet_findSubscription id (some user) detail) rfl
  | unsubscribe id user => exact quiet (Store.isQuiet_unsubscribe id user) rfl
  | sync user query => exact quiet (Store.isQuiet_sync user query) rfl
  | setOffset id user offset =>
    exact quiet (Store.isQuiet_setOffsetWithin id user offset Store.offsetAttempts) rfl
  | resolve id target => exact spared (Store.sparesSnapshots_resolve id target) rfl
  | insertPlanned rows size time =>
    exact spared (Store.sparesSnapshots_insertPlanned rows size time) rfl

end Request

/-! ## Rows of snapshots -/

namespace Snapshot

/-- The row that keeps a snapshot. -/
def row (sn : Snapshot) : SnapshotRow where
  id := sn.id
  feedId := sn.feedId
  url := sn.url
  encoding := sn.encoding
  statusCode := sn.statusCode
  headers := sn.headers.encode
  isGzipped := sn.isGzipped
  content := sn.payload.map (·.bytes)
  fingerprint := sn.fingerprint
  createdAt := sn.createdAt.stamp

/-- A row gives back the snapshot that it keeps. -/
theorem load_row {sn : Snapshot} (hwhole : sn.createdAt.IsWhole) (hyears : sn.createdAt.InYears) :
    sn.row.load = .ok sn := by
  have hheaders : Headers.load sn.headers.encode = .ok sn.headers := by
    rw [Headers.load, Headers.decode?_encode]
  have hcreated : Stamp.load sn.createdAt.stamp = .ok sn.createdAt := by
    rw [Stamp.load_eq_ok, Instant.decode_stamp hyears, Instant.truncate_eq_self hwhole]
  have hpayload : (sn.payload.map (·.bytes)).map (fun bytes => (⟨bytes, sn.isGzipped⟩ : Payload)) =
      sn.payload := by
    unfold isGzipped
    cases sn.payload with
    | none => rfl
    | some p => rfl
  refine bind_eq_ok.2 ⟨sn.headers, hheaders, bind_eq_ok.2 ⟨sn.createdAt, hcreated, ?_⟩⟩
  exact congrArg (fun payload => Except.ok { sn with payload }) hpayload

/-- One snapshot comes before another: by the time it was recorded, then by its id. -/
def Earlier (a b : Snapshot) : Prop :=
  a.createdAt < b.createdAt ∨ a.createdAt = b.createdAt ∧ a.id < b.id

/-- The snapshot that a draft is recorded as. -/
def Draft.recorded (d : Draft) (id : Int) (time : Instant) : Snapshot where
  id := id
  feedId := d.feedId
  url := d.url
  encoding := d.encoding
  statusCode := d.statusCode
  headers := d.headers
  payload := d.payload
  fingerprint := d.fingerprint
  createdAt := time

/-- A snapshot keeps the payload of its draft: what it gives back is the payload, whatever writes
the members, and it has the length and the digest of it, or none where there was none. -/
structure Keeps (sn : Snapshot) (d : Draft) : Prop where
  contents : Codec.Gzip.WritesMembers d.compress → sn.contents none = .ok d.content
  length : sn.fingerprint.length = d.content.map fun raw => (raw.length : Int)
  hash : sn.fingerprint.hash = d.content.map Sha256.digest

theorem Draft.keeps_recorded (d : Draft) (id : Int) (time : Instant) :
    (d.recorded id time).Keeps d := by
  unfold recorded
  cases hcontent : d.content with
  | none =>
    refine ⟨fun _ => ?_, ?_, ?_⟩
    · simp [contents, payload, hcontent]
    · simp [fingerprint, hcontent, Fingerprint.withValidators, Fingerprint.empty]
    · simp [fingerprint, hcontent, Fingerprint.withValidators, Fingerprint.empty]
  | some raw =>
    refine ⟨fun hcompress => ?_, ?_, ?_⟩
    · have hraw := (Payload.roundTrips_ofRawWith hcompress raw).contents_none
      simp [contents, payload, hcontent, hraw, Except.map]
    · simp [fingerprint, hcontent, Fingerprint.withValidators, Fingerprint.ofContent]
    · simp [fingerprint, hcontent, Fingerprint.withValidators, Fingerprint.ofContent]

end Snapshot

namespace Store

open Operation

/-- The id that a snapshot gets. -/
def nextSnapshotId (s : Store) : Int := nextId (s.snapshots.map (·.id))

theorem ensures_recordSnapshot {σ : Type} {w : Surroundings σ} {allowed : σ → Call → Prop} {x : σ}
    {d : Snapshot.Draft} {post : σ → Except StoreError Snapshot → Prop} :
    (recordSnapshot d).Ensures w allowed post x ↔ ∀ t y, w.reads x t y →
      allowed y (.addSnapshot d t.truncate.stamp) ∧
        ∀ id z, w.answers y (.addSnapshot d t.truncate.stamp) id z →
          post z (id.elim (.error (.feedNotFound d.feedId)) fun id =>
            .ok (d.recorded id t.truncate)) := by
  unfold recordSnapshot
  rw [ensures_bind, ensures_now]
  refine forall_congr' fun t => forall_congr' fun y => imp_congr_right fun _ => ?_
  rw [continues_ok, ensures_bind, ensures_call]
  refine and_congr_right fun _ => forall_congr' fun id => forall_congr' fun z =>
    imp_congr_right fun _ => ?_
  cases id with
  | none => rfl
  | some id => rfl

/-- The store with a draft recorded at a time. -/
def withSnapshot (s : Store) (d : Snapshot.Draft) (time : Instant) : Store :=
  { s with snapshots := s.snapshots ++ [(d.recorded s.nextSnapshotId time).row] }

theorem runAddSnapshot_of_some {s : Store} {d : Snapshot.Draft} {row : FeedRow}
    (h : s.feed? d.feedId = some row) (time : Instant) :
    Call.runAddSnapshot d time.stamp s = (some s.nextSnapshotId, s.withSnapshot d time) := by
  simp only [Call.runAddSnapshot, h]
  rfl

/-- What recording a fetch gives and leaves. -/
theorem runOn_recordSnapshot (s : Store) (d : Snapshot.Draft) (clock : Nat → Instant) :
    (recordSnapshot d).runOn clock s = (s.feed? d.feedId).elim
      (.error (.feedNotFound d.feedId), s) fun _ =>
        (.ok (d.recorded s.nextSnapshotId (clock 0).truncate),
          s.withSnapshot d (clock 0).truncate) := by
  refine Ensures.runOn_eq (ensures_recordSnapshot.2 ?_)
  rintro t _ ⟨rfl, rfl⟩
  refine ⟨True.intro, fun id z hcall => ?_⟩
  obtain ⟨hid, rfl⟩ := hcall
  change (Call.runAddSnapshot d (clock 0).truncate.stamp s).1 = id at hid
  change (_, (Call.runAddSnapshot d (clock 0).truncate.stamp s).2) = _
  cases hfeed : s.feed? d.feedId with
  | none =>
    obtain rfl : none = id := by simpa [Call.runAddSnapshot, hfeed] using hid
    simp [Call.runAddSnapshot, hfeed]
  | some row =>
    rw [runAddSnapshot_of_some hfeed] at hid ⊢
    obtain rfl : some s.nextSnapshotId = id := hid
    rfl

theorem runOn_latestSnapshot (s : Store) (feedId : Int) (clock : Nat → Instant) :
    (latestSnapshot feedId).runOn clock s =
      ((s.snapshot? feedId).elim (.ok none) fun r => r.load.map some, s) := by
  refine Ensures.runOn_eq (ensures_bind.2 (ensures_call.2 ⟨True.intro, ?_⟩))
  rintro found _ ⟨rfl, rfl⟩
  change Continues _ _ _ _ (s, clock) (.ok (s.snapshot? feedId))
  cases s.snapshot? feedId with
  | none => rfl
  | some r =>
    rw [continues_ok, ensures_bind, ensures_loaded]
    exact continues_pure.2 rfl

end Store

/-! ## Collections -/

/-- A request and what the clock shows it. -/
structure Turn where
  request : Request
  clock : Nat → Instant

/-- A store, and what recording fetches has given on the way to it, each with its draft. -/
structure Collection where
  store : Store
  taken : List (Snapshot.Draft × Snapshot)

/-- What a turn has recorded, by its reply. -/
def Turn.taken (turn : Turn) (reply : Except StoreError Reply) :
    List (Snapshot.Draft × Snapshot) :=
  match turn.request, reply with
  | .recordSnapshot d, .ok (.snapshot sn) => [(d, sn)]
  | _, _ => []

namespace Collection

/-- Before the first turn. -/
def start : Collection := ⟨.empty, []⟩

/-- After one more turn. -/
def after (c : Collection) (turn : Turn) : Collection :=
  let ended := turn.request.operation.runOn turn.clock c.store
  ⟨ended.2, c.taken ++ turn.taken ended.1⟩

/-- After turns one after another. -/
def play (turns : List Turn) : Collection := turns.foldl after start

/-- The table of snapshots holds the rows of what has been given, in order of their ids, and these
give back what has been given. -/
structure Sound (c : Collection) : Prop where
  rows : c.store.snapshots = c.taken.map (·.2.row)
  ordered : c.taken.Pairwise fun p q => p.2.id < q.2.id
  stamped : ∀ p ∈ c.taken, p.2.createdAt.IsWhole ∧ p.2.createdAt.InYears
  feedId : ∀ p ∈ c.taken, p.2.feedId = p.1.feedId
  keeps : ∀ p ∈ c.taken, p.2.Keeps p.1

theorem sound_start : start.Sound :=
  ⟨rfl, .nil, by simp [start], by simp [start], by simp [start]⟩

/-- A turn records what its draft demands at the time that it is shown first, or nothing. -/
theorem after_cases (c : Collection) (turn : Turn) :
    (c.after turn).store.snapshots = c.store.snapshots ∧ (c.after turn).taken = c.taken ∨
      ∃ d, turn.request = .recordSnapshot d ∧
        (c.after turn).store = c.store.withSnapshot d (turn.clock 0).truncate ∧
        (c.after turn).taken = c.taken ++
          [(d, d.recorded c.store.nextSnapshotId (turn.clock 0).truncate)] := by
  obtain ⟨request, clock⟩ := turn
  by_cases h : ∃ d, request = .recordSnapshot d
  · obtain ⟨d, rfl⟩ := h
    have hrun : (Request.recordSnapshot d).operation.runOn clock c.store =
        (((Store.recordSnapshot d).runOn clock c.store).1.map .snapshot,
          ((Store.recordSnapshot d).runOn clock c.store).2) := Operation.runOn_map ..
    rw [Store.runOn_recordSnapshot] at hrun
    cases hfeed : c.store.feed? d.feedId with
    | none =>
      rw [hfeed] at hrun
      refine .inl ⟨?_, ?_⟩
      · simp [after, hrun]
      · simp [after, hrun, Turn.taken, Except.map]
    | some row =>
      rw [hfeed] at hrun
      refine .inr ⟨d, rfl, ?_, ?_⟩
      · simp [after, hrun]
      · simp [after, hrun, Turn.taken, Except.map]
  · have hother : ∀ d, request ≠ .recordSnapshot d := fun d heq => h ⟨d, heq⟩
    refine .inl ⟨request.snapshots_runOn hother clock c.store, ?_⟩
    have hnone (reply : Except StoreError Reply) : Turn.taken ⟨request, clock⟩ reply = [] := by
      unfold Turn.taken
      split
      · next _ _ heq => exact absurd heq (hother _)
      · rfl
    simp [after, hnone]

theorem Sound.after {c : Collection} (h : c.Sound) {turn : Turn}
    (hyears : (turn.clock 0).InYears) : (c.after turn).Sound := by
  rcases c.after_cases turn with ⟨hrows, htaken⟩ | ⟨d, -, hstore, htaken⟩
  · exact ⟨by rw [hrows, htaken, h.rows], htaken ▸ h.ordered, htaken ▸ h.stamped, htaken ▸ h.feedId,
      htaken ▸ h.keeps⟩
  · have hnew {P : Snapshot.Draft × Snapshot → Prop} (hold : ∀ p ∈ c.taken, P p)
        (hlast : P (d, d.recorded c.store.nextSnapshotId (turn.clock 0).truncate)) :
        ∀ p ∈ (c.after turn).taken, P p := by
      rw [htaken]
      exact List.forall_mem_append.2 ⟨hold, by simpa using hlast⟩
    refine ⟨?_, ?_, hnew h.stamped ⟨Instant.isWhole_truncate _, hyears⟩, hnew h.feedId rfl,
      hnew h.keeps (d.keeps_recorded _ _)⟩
    · rw [hstore, htaken, Store.withSnapshot, h.rows, List.map_append]
      rfl
    · rw [htaken]
      refine List.pairwise_append.2 ⟨h.ordered, List.pairwise_singleton _ _, fun p hp q hq => ?_⟩
      obtain rfl := List.mem_singleton.1 hq
      refine Store.lt_nextId ?_
      rw [h.rows, List.map_map]
      exact List.mem_map_of_mem hp

theorem Sound.load {c : Collection} (h : c.Sound) {p : Snapshot.Draft × Snapshot}
    (hp : p ∈ c.taken) : p.2.row.load = .ok p.2 :=
  Snapshot.load_row (h.stamped p hp).1 (h.stamped p hp).2

/-- What has been given by the columns of its row: its stamp, then its id. -/
def rank (p : Snapshot.Draft × Snapshot) : String ×ₗ Int := toLex (p.2.createdAt.stamp, p.2.id)

/-- The order of the columns is the order in time. -/
theorem Sound.rank_lt {c : Collection} (h : c.Sound) {p q : Snapshot.Draft × Snapshot}
    (hp : p ∈ c.taken) (hq : q ∈ c.taken) : rank p < rank q ↔ p.2.Earlier q.2 := by
  obtain ⟨hpwhole, hpyears⟩ := h.stamped p hp
  obtain ⟨hqwhole, hqyears⟩ := h.stamped q hq
  have hlt : p.2.createdAt.stamp < q.2.createdAt.stamp ↔ p.2.createdAt < q.2.createdAt := by
    rw [Instant.stamp_lt_stamp hpyears hqyears, Instant.truncate_eq_self hpwhole,
      Instant.truncate_eq_self hqwhole]
  have heq : p.2.createdAt.stamp = q.2.createdAt.stamp ↔ p.2.createdAt = q.2.createdAt := by
    refine ⟨fun hstamps => ?_, congrArg Instant.stamp⟩
    rw [← Instant.truncate_eq_self hpwhole, Instant.truncate_eq_of_stamp_eq hstamps,
      Instant.truncate_eq_self hqwhole]
  rw [rank, rank, Prod.Lex.toLex_lt_toLex, hlt, heq]
  rfl

theorem Sound.eq_of_rank {c : Collection} (h : c.Sound) {p q : Snapshot.Draft × Snapshot}
    (hp : p ∈ c.taken) (hq : q ∈ c.taken) (hrank : rank p = rank q) : p = q := by
  have hid : p.2.id = q.2.id := congrArg (fun r => (ofLex r).2) hrank
  have hids : (c.taken.map fun p => p.2.id).Nodup :=
    List.pairwise_map.2 (h.ordered.imp fun hlt => Int.ne_of_lt hlt)
  exact List.inj_on_of_nodup_map hids hp hq hid

theorem argmax_map {β γ δ : Type} [LinearOrder δ] (f : β → γ) (g : γ → δ) (l : List β) :
    (l.map f).argmax g = (l.argmax fun b => g (f b)).map f := by
  induction l using List.reverseRecOn with
  | nil => rfl
  | append_singleton l b ih =>
    rw [List.map_append, List.map_singleton, List.argmax_concat, List.argmax_concat, ih]
    cases l.argmax fun b => g (f b) with
    | none => rfl
    | some c =>
      simp only [Option.map_some]
      split <;> rfl

/-- The last snapshot of a feed by the table is the one that has the greatest rank of what has been
given for it. -/
theorem Sound.snapshot?_eq {c : Collection} (h : c.Sound) (feedId : Int) :
    c.store.snapshot? feedId =
      ((c.taken.filter fun p => p.1.feedId = feedId).argmax rank).map (·.2.row) := by
  have hfilter : c.store.snapshots.filter (fun r => r.feedId = feedId) =
      (c.taken.filter fun p => p.1.feedId = feedId).map (·.2.row) := by
    rw [h.rows, List.filter_map]
    refine congrArg (List.map _) (List.filter_congr fun p hp => ?_)
    have hp : (p.2.row).feedId = p.1.feedId := h.feedId p hp
    simp [hp]
  rw [Store.snapshot?, Store.latest?_eq_argmax, hfilter, argmax_map]
  rfl

/-- What a look-up of the last snapshot gives. -/
theorem Sound.runOn_latestSnapshot {c : Collection} (h : c.Sound) (feedId : Int)
    (clock : Nat → Instant) : (Store.latestSnapshot feedId).runOn clock c.store =
      (.ok (((c.taken.filter fun p => p.1.feedId = feedId).argmax rank).map (·.2)), c.store) := by
  rw [Store.runOn_latestSnapshot, h.snapshot?_eq]
  cases hlast : (c.taken.filter fun p => p.1.feedId = feedId).argmax rank with
  | none => rfl
  | some p =>
    have hp : p ∈ c.taken := List.mem_of_mem_filter (List.argmax_mem hlast)
    simp only [Option.map_some, Option.elim_some, h.load hp]
    rfl

/-! ## Clocks that do not go back -/

/-- What the turns are shown first never goes back. -/
def Steady (turns : List Turn) : Prop := turns.Pairwise fun t u => t.clock 0 ≤ u.clock 0

theorem play_concat (turns : List Turn) (turn : Turn) :
    play (turns ++ [turn]) = (play turns).after turn := by
  simp [play]

theorem sound_play {turns : List Turn} (h : ∀ turn ∈ turns, ∀ n, (turn.clock n).InYears) :
    (play turns).Sound := by
  induction turns using List.reverseRecOn with
  | nil => exact sound_start
  | append_singleton turns turn ih =>
    rw [play_concat]
    exact (ih fun t ht => h t (List.mem_append_left _ ht)).after (h turn (by simp) 0)

/-- What has been given has been given to a turn for its draft, at the time that it was shown. -/
theorem exists_turn {turns : List Turn} {p : Snapshot.Draft × Snapshot}
    (hp : p ∈ (play turns).taken) :
    ∃ turn ∈ turns, turn.request = .recordSnapshot p.1 ∧
      p.2.createdAt = (turn.clock 0).truncate := by
  induction turns using List.reverseRecOn with
  | nil => cases hp
  | append_singleton turns turn ih =>
    have later (hp : p ∈ (play turns).taken) :
        ∃ t ∈ turns ++ [turn], t.request = .recordSnapshot p.1 ∧
          p.2.createdAt = (t.clock 0).truncate := by
      obtain ⟨t, ht, heq⟩ := ih hp
      exact ⟨t, List.mem_append_left _ ht, heq⟩
    rw [play_concat] at hp
    rcases (play turns).after_cases turn with ⟨-, htaken⟩ | ⟨d, hrequest, -, htaken⟩
    · exact later (htaken ▸ hp)
    · rw [htaken] at hp
      rcases List.mem_append.1 hp with hp | hp
      · exact later hp
      · obtain rfl := List.mem_singleton.1 hp
        exact ⟨turn, by simp, hrequest, rfl⟩

/-- With a clock that does not go back the snapshots are recorded in order of their times. -/
theorem pairwise_taken {turns : List Turn} (h : Steady turns) :
    (play turns).taken.Pairwise fun p q => p.2.createdAt ≤ q.2.createdAt := by
  induction turns using List.reverseRecOn with
  | nil => exact .nil
  | append_singleton turns turn ih =>
    obtain ⟨hturns, -, hlast⟩ := List.pairwise_append.1 h
    rw [play_concat]
    rcases (play turns).after_cases turn with ⟨-, htaken⟩ | ⟨d, -, -, htaken⟩
    · rw [htaken]
      exact ih hturns
    · rw [htaken]
      refine List.pairwise_append.2
        ⟨ih hturns, List.pairwise_singleton _ _, fun p hp q hq => ?_⟩
      obtain ⟨t, ht, -, heq⟩ := exists_turn hp
      obtain rfl := List.mem_singleton.1 hq
      rw [heq]
      exact Instant.truncate_mono (hlast t ht turn (by simp))

/-! ## The last snapshot -/

/-- **The log of snapshots gives back what was recorded.** After any requests one after another,
whatever times of the years 0 to 9999 the clock shows, a feed has a last snapshot if recording a
fetch of it has succeeded, and then it is, field for field, the one that was given for the greatest
time and, of those, the greatest id; with a clock that does not go back it is the last one given.
All that was given keeps the payload of its draft, whatever has compressed it. -/
theorem latestSnapshot_exact {turns : List Turn}
    (hyears : ∀ turn ∈ turns, ∀ n, (turn.clock n).InYears) (feedId : Int)
    (clock : Nat → Instant) :
    (∃ answer, (Store.latestSnapshot feedId).runOn clock (play turns).store =
        (.ok answer, (play turns).store) ∧
      (answer = none ↔ ∀ p ∈ (play turns).taken, p.1.feedId ≠ feedId) ∧
      (∀ sn, answer = some sn → ∃ d, (d, sn) ∈ (play turns).taken ∧ d.feedId = feedId ∧
        ∀ p ∈ (play turns).taken, p.1.feedId = feedId → p = (d, sn) ∨ p.2.Earlier sn) ∧
      (Steady turns → answer =
        ((play turns).taken.filter fun p => p.1.feedId = feedId).getLast?.map (·.2))) ∧
    ∀ p ∈ (play turns).taken, p.2.Keeps p.1 := by
  have hsound := sound_play hyears
  generalize hplay : play turns = c at hsound ⊢
  have hmem (p : Snapshot.Draft × Snapshot) :
      p ∈ c.taken.filter (fun p => p.1.feedId = feedId) ↔ p ∈ c.taken ∧ p.1.feedId = feedId := by
    simp
  refine ⟨⟨_, hsound.runOn_latestSnapshot feedId clock, ?_, fun sn hsn => ?_, fun hsteady => ?_⟩,
    hsound.keeps⟩
  · rw [Option.map_eq_none_iff, List.argmax_eq_none, List.filter_eq_nil_iff]
    simp
  · obtain ⟨p, hlast, rfl⟩ := Option.map_eq_some_iff.1 hsn
    obtain ⟨hp, hfeed⟩ := (hmem p).1 (List.argmax_mem hlast)
    refine ⟨p.1, hp, hfeed, fun q hq hqfeed => ?_⟩
    rcases (List.le_of_mem_argmax ((hmem q).2 ⟨hq, hqfeed⟩) hlast).eq_or_lt with heq | hlt
    · exact .inl (hsound.eq_of_rank hq hp heq)
    · exact .inr ((hsound.rank_lt hq hp).1 hlt)
  · have htimes : c.taken.Pairwise fun p q => p.2.createdAt ≤ q.2.createdAt :=
      hplay ▸ pairwise_taken hsteady
    have hranks : c.taken.Pairwise fun p q => rank p < rank q := by
      refine (htimes.and hsound.ordered).imp_of_mem fun {p q} hp hq hpq => ?_
      rw [hsound.rank_lt hp hq]
      by_cases hlt : p.2.createdAt < q.2.createdAt
      · exact .inl hlt
      · exact .inr ⟨Instant.le_antisymm hpq.1 hlt, hpq.2⟩
    rw [argmax_eq_getLast? (hranks.sublist List.filter_sublist)]

/-- A fetch that brought zeros, which are compressed. -/
def fetched : Snapshot.Draft where
  feedId := 1
  url := "http://a.com/rss.xml"
  encoding := none
  statusCode := some 200
  etag := none
  lastModified := none
  headers := .ofList [("ETag", "e")]
  content := some Payload.zeros
  compress := Payload.writeZeros

/-- A fetch that brought nothing. -/
def unfetched : Snapshot.Draft where
  feedId := 1
  url := "http://a.com/rss.xml"
  encoding := none
  statusCode := some 304
  etag := none
  lastModified := none
  headers := .empty
  content := none

/-- 1970-01-03T00:00:00Z. -/
def daysLater : Instant :=
  { Instant.epoch with day := 2, firstDay_le := by decide, le_lastDay := by decide }

/-- Two fetches of a feed are recorded while the clock goes back. -/
def goingBack : List Turn :=
  [⟨.getOrCreateFeed "http://a.com/rss.xml", fun _ => .epoch⟩,
    ⟨.recordSnapshot fetched, fun _ => daysLater⟩,
    ⟨.recordSnapshot unfetched, fun _ => .epoch⟩]

theorem latestSnapshot_exact_goingBack :
    (∀ turn ∈ goingBack, ∀ n, (turn.clock n).InYears) ∧ ∃ sn : Snapshot,
      (fetched, sn) ∈ (play goingBack).taken ∧
      (Store.latestSnapshot 1).runOn (fun _ => .epoch) (play goingBack).store =
        (.ok (some sn), (play goingBack).store) ∧ sn.id = 1 ∧ sn.Keeps fetched ∧
      sn.contents none = .ok (some Payload.zeros) := by
  have hyears : ∀ turn ∈ goingBack, ∀ n, (turn.clock n).InYears := by
    have hepoch : Instant.epoch.InYears := by decide +kernel
    have hlater : daysLater.InYears := by decide +kernel
    intro turn hturn n
    simp only [goingBack, List.mem_cons, List.not_mem_nil, or_false] at hturn
    rcases hturn with rfl | rfl | rfl
    · exact hepoch
    · exact hlater
    · exact hepoch
  have hfirst : ((Store.latestSnapshot 1).runOn (fun _ => .epoch) (play goingBack).store).1.map
      (·.map fun sn => (sn.id, sn.fingerprint.length)) = .ok (some (1, some 1024)) := by
    decide +kernel
  obtain ⟨⟨answer, hanswer, -, hlast, -⟩, hkeeps⟩ :=
    latestSnapshot_exact hyears 1 fun _ => .epoch
  rw [hanswer] at hfirst
  obtain ⟨sn, rfl, hsn⟩ := Option.map_eq_some_iff.1 (Except.ok.inj hfirst)
  obtain ⟨hid, hlength⟩ := Prod.mk.inj hsn
  obtain ⟨d, hmem, -, -⟩ := hlast sn rfl
  have hkept : sn.Keeps d := hkeeps _ hmem
  obtain ⟨turn, hturn, hrequest, -⟩ := exists_turn hmem
  obtain rfl : d = fetched := by
    simp only [goingBack, List.mem_cons, List.not_mem_nil, or_false] at hturn
    rcases hturn with rfl | rfl | rfl
    · cases hrequest
    · exact (Request.recordSnapshot.inj hrequest).symm
    · -- it has brought nothing, so nothing of this length
      obtain rfl : unfetched = d := Request.recordSnapshot.inj hrequest
      cases hlength.symm.trans hkept.length
  exact ⟨hyears, sn, hmem, hanswer, hid, hkept, hkept.contents Payload.isMember_writeZeros⟩

end Collection

end Syndication
