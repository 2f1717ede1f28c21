import Syndication.Proofs.Program.Recrawl
import Syndication.Proofs.Program.Snapshots
import Syndication.Proofs.Session.Tasks
/-!
# The command that finishes a crawl

The command records the fetch of a crawl and then, whether or not the feed is being crawled,
finishes the crawl: two operations that write the same payload down in different ways, one after
the other (`Task.runOn_finishCrawl`). On a feed that is being crawled both succeed and agree, and
the same payload once more shows nowhere; on any other feed only the fetch stays:
`Session.finishCrawl_agrees`. The host compresses the payload that is recorded, by any writer of
gzip members.
-/

namespace Syndication

/-! ## What is known of a payload -/

namespace Fingerprint

variable {known new : Fingerprint}

/-- All that is told of a payload is known. -/
structure Covers (known new : Fingerprint) : Prop where
  length : ∀ n, new.length = some n → known.length = some n
  hash : ∀ digest, new.hash = some digest → known.hash = some digest
  etag : ∀ tag, new.etag = some tag → known.etag = some tag
  lastModified : ∀ date, new.lastModified = some date → known.lastModified = some date

/-- What a crawl tells is known after it. -/
theorem covers_learn (old new : Fingerprint) : (old.learn new).Covers new := by
  unfold learn
  split
  · exact ⟨fun n h => by simp [refresh, h], fun d h => by simp [refresh, h],
      fun t h => by simp [refresh, h], fun d h => by simp [refresh, h]⟩
  · exact ⟨fun _ h => h, fun _ h => h, fun _ h => h, fun _ h => h⟩

/-- Of a payload whose length and digest are known, that payload is the same with any validators. -/
theorem agrees_of_content {raw : List UInt8} (hlength : known.length = some (raw.length : Int))
    (hhash : known.hash = some (Sha256.digest raw)) (etag lastModified : Option String) :
    ((ofContent raw).withValidators etag lastModified).agrees known = true := by
  simp [agrees, ofContent, withValidators, hlength, hhash]

end Fingerprint

/-- The row of a feed tells what a finished crawl has brought: the payload by its length and digest,
and whatever the report says of the fetch. -/
structure FeedRow.Tells (row : FeedRow) (body : List UInt8) (report : CrawlReport) : Prop where
  status : row.status = Status.ready.name
  length : row.fingerprint.length = some (body.length : Int)
  hash : row.fingerprint.hash = some (Sha256.digest body)
  etag : ∀ tag, report.etag = some tag → row.fingerprint.etag = some tag
  lastModified : ∀ date, report.lastModified = some date → row.fingerprint.lastModified = some date
  encoding : ∀ name, report.encoding = some name → row.encoding = some name

/-- A snapshot of a feed tells the same, and gives back the payload. -/
structure Snapshot.Tells (sn : Snapshot) (id : Int) (body : List UInt8) (report : CrawlReport) :
    Prop where
  feedId : sn.feedId = id
  contents : sn.contents none = .ok (some body)
  length : sn.fingerprint.length = some (body.length : Int)
  hash : sn.fingerprint.hash = some (Sha256.digest body)
  etag : sn.fingerprint.etag = report.etag
  lastModified : sn.fingerprint.lastModified = report.lastModified
  encoding : sn.encoding = report.encoding

variable {s : Store} {id : Int} {row : FeedRow} {compress : List UInt8 → List UInt8}
  {body : List UInt8} {report : CrawlReport} {clock : Nat → Instant}

theorem Snapshot.tells_recorded (hcompress : Codec.Gzip.WritesMembers compress) (id : Int)
    (url : String) (body : List UInt8) (report : CrawlReport) (number : Int) (time : Instant) :
    ((Task.snapshotOf compress id url body report).recorded number time).Tells id body report := by
  have hkeeps := (Task.snapshotOf compress id url body report).keeps_recorded number time
  exact ⟨rfl, hkeeps.contents hcompress, hkeeps.length, hkeeps.hash, rfl, rfl, rfl⟩

/-- A crawl that finishes leaves a row that tells what it has brought. -/
theorem FeedRow.tells_of_finishing {t₁ t₂ : Instant} {t : Transition}
    (ht : row.finishing (Task.updateOf body report) t₁ t₂ = some t) :
    (row.apply t).Tells body report := by
  have hknown := Fingerprint.covers_learn row.fingerprint (Task.updateOf body report).fingerprint
  rw [← fingerprint_of_finishing ht] at hknown
  have hencoding : ∀ name, report.encoding = some name →
      (row.apply t).encoding = some name := by
    intro name hname
    obtain ⟨f, next, -, -, rfl⟩ := finishing_eq_some.1 ht
    cases (Task.updateOf body report).fingerprint.agrees row.fingerprint with
    | false => exact hname
    | true => simp [apply, Task.updateOf, hname]
  exact ⟨by rw [status_apply, target_of_finishing ht], hknown.length _ rfl, hknown.hash _ rfl,
    fun _ h => hknown.etag _ h, fun _ h => hknown.lastModified _ h, hencoding⟩

/-! ## Recording a fetch -/

namespace Store

theorem Valid.withSnapshot (hs : s.Valid) {d : Snapshot.Draft} (hrow : s.feed? d.feedId = some row)
    (time : Instant) : (s.withSnapshot d time).Valid := by
  have hadded := hs.addSnapshot (d := d) (Stamp.isWritten_stamp time)
  rwa [runAddSnapshot_of_some hrow] at hadded

/-- A store whose snapshots another one holds as well has its other instants itself. -/
theorem InYears.withSnapshots {t : Store} (hy : s.InYears) (ht : t.InYears) :
    { s with snapshots := t.snapshots }.InYears := by
  intro u hu
  rcases mem_stamps.1 hu with hfeed | hsnapshot | hmapping | hsubscription
  · exact hy u (mem_stamps.2 (.inl hfeed))
  · exact ht u (mem_stamps.2 (.inr (.inl hsnapshot)))
  · exact hy u (mem_stamps.2 (.inr (.inr (.inl hmapping))))
  · exact hy u (mem_stamps.2 (.inr (.inr (.inr hsubscription))))

theorem snapshots_finishCrawl (s : Store) (id : Int) (update : Feed.Update)
    (clock : Nat → Instant) :
    ((finishCrawl id update).runOn clock s).2.snapshots = s.snapshots :=
  Program.Ensures.snapshots_runOn (sparesSnapshots_finishCrawl id update []) clock s

/-- A transition that the status of a feed does not admit ends with that, and nothing else. -/
theorem ensures_transit_of_refused {status : Status} {t : Transition}
    {post : Store × (Nat → Instant) → Except StoreError Feed → Prop}
    (hrow : s.feed? id = some row) (hstatus : row.status = status.name)
    (hno : status ∉ t.target.predecessors)
    (hpost : post (s, clock) (.error (.invalidTransition id status t.target))) :
    (transit id t).Ensures .timed (fun _ _ => True) post (s, clock) := by
  have hrefused : s.moveFeed id t = (.refused status.name, s) := by
    unfold moveFeed
    rw [hrow]
    dsimp only
    rw [if_neg, hstatus]
    rwa [hstatus, List.mem_map_of_injective fun _ _ => Status.name_injective]
  refine ensures_transit_iff.2 ⟨True.intro, fun outcome y hy => ?_⟩
  obtain ⟨houtcome, rfl⟩ := hy
  obtain rfl : .refused status.name = outcome := (congrArg Prod.fst hrefused).symm.trans houtcome
  have hleft : ((Call.moveFeed id t).run s).2 = s := congrArg Prod.snd hrefused
  dsimp only
  rw [hleft, Status.load_eq_ok.2 rfl]
  exact hpost

/-- A crawl that is not under way cannot finish. -/
theorem runOn_finishCrawl_of_refused (hs : s.Valid) (hy : s.InYears) (hrow : s.feed? id = some row)
    {status : Status} (hstatus : row.status = status.name) (hidle : status ≠ .updating)
    (update : Feed.Update) (clock : Nat → Instant) :
    (finishCrawl id update).runOn clock s = (.error (.invalidTransition id status .ready), s) := by
  obtain ⟨f, hload⟩ := hs.feed_loads hy true (mem_of_feed? hrow).1
  obtain ⟨t, ht⟩ :=
    FeedRow.exists_finishing (hs.written_feed hrow) hload update (clock 0) (clock 1)
  refine Operation.Ensures.runOn_eq
    (ensures_finishCrawl_timed (fun hnone => ?_) fun found u hfound hu => ?_)
  · rw [hrow, Option.bind_some, ht] at hnone
    cases hnone
  · obtain rfl := Option.some.inj (hrow.symm.trans hfound)
    have htarget := FeedRow.target_of_finishing hu
    refine ensures_transit_of_refused hrow hstatus ?_ (by rw [htarget])
    simpa [htarget, Status.predecessors] using hidle

end Store

/-! ## The two operations of the task -/

/-- The store with the fetch of a finished crawl recorded. -/
def Store.withFetch (s : Store) (compress : List UInt8 → List UInt8) (row : FeedRow)
    (body : List UInt8) (report : CrawlReport) (time : Instant) : Store :=
  s.withSnapshot (Task.snapshotOf compress row.id row.url body report) time

theorem Store.feed?_withFetch (s : Store) (compress : List UInt8 → List UInt8) (row : FeedRow)
    (body : List UInt8) (report : CrawlReport) (time : Instant) (id : Int) :
    (s.withFetch compress row body report time).feed? id = s.feed? id := rfl

/-- **The task records the fetch and then finishes the crawl** on what that has left. -/
theorem Task.runOn_finishCrawl {f : Feed} (hrow : s.feed? id = some row)
    (hload : row.load false = .ok f) {r : Except StoreError Feed} {s' : Store}
    (h : (Store.finishCrawl id (updateOf body report)).runOn (fun n => clock (n + 1))
      (s.withFetch compress row body report (clock 0).truncate) = (r, s')) :
    (finishCrawl compress id body report).runOn clock s = (r.mapError .store, s') := by
  obtain rfl : row.id = id := (Store.mem_of_feed? hrow).2
  refine Program.runOn_eq_iff.2 ?_
  refine ensures_ofOperation_bind.2 (Store.ensures_getFeed.2 ⟨True.intro, fun found y hy => ?_⟩)
  obtain ⟨hfound, rfl⟩ := hy
  obtain rfl : found = some row := hfound.symm.trans hrow
  rw [Option.elim_some, hload]
  dsimp only [Except.map]
  rw [(FeedRow.load_eq_ok.1 hload).url]
  refine ensures_ofOperation_bind.2 (Store.ensures_recordSnapshot.2 fun t y hy => ?_)
  obtain ⟨rfl, rfl⟩ := hy
  refine ⟨True.intro, fun number z hz => ?_⟩
  obtain ⟨hnumber, rfl⟩ := hz
  have hadded := Store.runAddSnapshot_of_some
    (d := snapshotOf compress row.id row.url body report) hrow (clock 0).truncate
  obtain rfl : number = some s.nextSnapshotId := hnumber.symm.trans (congrArg Prod.fst hadded)
  have hleft : ((Call.addSnapshot (snapshotOf compress row.id row.url body report)
      (clock 0).truncate.stamp).run ((Call.findFeed row.id).run s).2).2 =
      s.withFetch compress row body report (clock 0).truncate := congrArg Prod.snd hadded
  rw [Option.elim_some]
  dsimp only
  rw [hleft]
  exact Program.runOn_eq_iff.1 (runOn_ofOperation h)

namespace Store

/-- What the fetch has left is of the years if it is there in the end. -/
theorem Valid.withFetch (hs : s.Valid) (hy : s.InYears) (hrow : s.feed? id = some row)
    {time : Instant} {s' : Store} (hy' : s'.InYears)
    (hkept : s'.snapshots = (s.withFetch compress row body report time).snapshots) :
    (s.withFetch compress row body report time).Valid ∧
      (s.withFetch compress row body report time).InYears := by
  have hrow' : s.feed? row.id = some row := (mem_of_feed? hrow).2 ▸ hrow
  refine
    ⟨hs.withSnapshot (d := Task.snapshotOf compress row.id row.url body report) hrow' time, ?_⟩
  have hleft :
      s.withFetch compress row body report time = { s with snapshots := s'.snapshots } := by
    rw [hkept]
    rfl
  rw [hleft]
  exact hy.withSnapshots hy'

/-- The snapshot that is recorded can be read back, and it tells what has been fetched. -/
theorem exists_snapshot_withFetch (hcompress : Codec.Gzip.WritesMembers compress)
    {time : Instant} {s' : Store} (hy' : s'.InYears)
    (hkept : s'.snapshots = (s.withFetch compress row body report time.truncate).snapshots) :
    ∃ sn : Snapshot, s'.snapshots = s.snapshots ++ [sn.row] ∧ sn.row.load = .ok sn ∧
      sn.Tells row.id body report := by
  let sn := (Task.snapshotOf compress row.id row.url body report).recorded s.nextSnapshotId
    time.truncate
  have hsn : s'.snapshots = s.snapshots ++ [sn.row] := hkept
  have hyears : time.truncate.InYears := by
    refine hy' _ (mem_stamps.2 (.inr (.inl ⟨sn.row, ?_, rfl⟩)))
    rw [hsn]
    exact List.mem_append_right _ (List.mem_singleton_self _)
  exact ⟨sn, hsn, Snapshot.load_row time.isWhole_truncate hyears,
    Snapshot.tells_recorded hcompress row.id row.url body report s.nextSnapshotId time.truncate⟩

end Store

namespace Task

variable {r : Except Failure Feed} {s' : Store}

/-- Whatever becomes of the crawl, the fetch stays as it was recorded. -/
theorem finishCrawl_eq (hs : s.Valid) (hy : s.InYears) (hrow : s.feed? id = some row)
    (h : (finishCrawl compress id body report).runOn clock s = (r, s')) :
    ∃ r₀, (Store.finishCrawl id (updateOf body report)).runOn (fun n => clock (n + 1))
        (s.withFetch compress row body report (clock 0).truncate) = (r₀, s') ∧
      r = r₀.mapError .store ∧
      s'.snapshots = (s.withFetch compress row body report (clock 0).truncate).snapshots := by
  obtain ⟨f, hload⟩ := hs.feed_loads hy false (Store.mem_of_feed? hrow).1
  obtain ⟨rfl, rfl⟩ := Prod.mk.inj (h.symm.trans (runOn_finishCrawl hrow hload rfl))
  exact ⟨_, rfl, rfl, Store.snapshots_finishCrawl ..⟩

/-- On a feed that is being crawled the task succeeds. -/
theorem finishCrawl_of_updating (hs : s.Valid) (hy : s.InYears) (hrow : s.feed? id = some row)
    (hstatus : row.status = Status.updating.name)
    (h : (finishCrawl compress id body report).runOn clock s = (r, s')) (hy' : s'.InYears) :
    ∃ t, row.finishing (updateOf body report) (clock 1) (clock 2) = some t ∧
      ((s.withFetch compress row body report (clock 0).truncate).moveFeed id t).1 = .moved ∧
      s' = ((s.withFetch compress row body report (clock 0).truncate).moveFeed id t).2 ∧ s'.Valid ∧
      s'.feed? id = some (row.apply t) ∧ ∃ f, (row.apply t).load true = .ok f ∧ r = .ok f := by
  obtain ⟨r₀, hrun, rfl, hkept⟩ := finishCrawl_eq hs hy hrow h
  obtain ⟨hfetched, hyears⟩ := hs.withFetch hy hrow hy' hkept
  rw [← s.feed?_withFetch compress row body report (clock 0).truncate] at hrow
  obtain ⟨t, ht, hmoved, hleft⟩ := Store.finishCrawl_of_inYears hfetched hyears hrow hstatus
    (updateOf body report) fun n => clock (n + 1)
  obtain ⟨rfl, rfl⟩ := Prod.mk.inj (hleft.symm.trans hrun)
  have hvalid := hfetched.moveFeed id (FeedRow.proper_of_finishing ht)
  have hfeed := Store.feed?_moveFeed hrow hmoved
  obtain ⟨f, hf⟩ := hvalid.feed_loads hy' true (Store.mem_of_feed? hfeed).1
  exact ⟨t, ht, hmoved, rfl, hvalid, hfeed, f, hf, by rw [hf]; rfl⟩

/-- On any other feed the task fails, and only the fetch stays. -/
theorem finishCrawl_of_idle (hs : s.Valid) (hy : s.InYears) (hrow : s.feed? id = some row)
    (hidle : row.status ≠ Status.updating.name)
    (h : (finishCrawl compress id body report).runOn clock s = (r, s')) (hy' : s'.InYears) :
    s' = s.withFetch compress row body report (clock 0).truncate ∧ ∃ status : Status,
      row.status = status.name ∧ r = .error (.store (.invalidTransition id status .ready)) := by
  obtain ⟨r₀, hrun, rfl, hkept⟩ := finishCrawl_eq hs hy hrow h
  obtain ⟨hfetched, hyears⟩ := hs.withFetch hy hrow hy' hkept
  obtain ⟨status, hstatus⟩ := hs.feedStatus row (Store.mem_of_feed? hrow).1
  have hne : status ≠ .updating := fun heq => hidle (heq ▸ hstatus)
  obtain ⟨rfl, rfl⟩ := Prod.mk.inj
    ((Store.runOn_finishCrawl_of_refused hfetched hyears hrow hstatus hne _ _).symm.trans hrun)
  exact ⟨rfl, status, hstatus, rfl⟩

/-- A payload that is known, finished on a settled feed, shows nowhere. -/
theorem finishCrawl_of_settled (hs : s.Valid) (hy : s.InYears) (hrow : s.feed? id = some row)
    (hstatus : row.status = Status.updating.name) {known : Fingerprint}
    (hsettled : s.Settled id known)
    (hlength : row.fingerprint.length = some (body.length : Int))
    (hhash : row.fingerprint.hash = some (Sha256.digest body))
    (h : (finishCrawl compress id body report).runOn clock s = (r, s')) (hy' : s'.InYears) :
    (∃ f, r = .ok f) ∧ s.LooksSame id s' := by
  obtain ⟨t, ht, hmoved, rfl, -, -, f, -, rfl⟩ :=
    finishCrawl_of_updating hs hy hrow hstatus h hy'
  have hagrees : (updateOf body report).fingerprint.agrees row.fingerprint = true :=
    Fingerprint.agrees_of_content hlength hhash _ _
  have hkeeps : t.rewrites = false := by
    rw [FeedRow.rewrites_of_finishing ht, hagrees]
    rfl
  have hfollow : (s.withFetch compress row body report (clock 0).truncate).followers id t =
      .ok s.subscriptions := by
    obtain ⟨_, next, -, -, rfl⟩ := FeedRow.finishing_eq_some.1 ht
    rw [Store.followers, hagrees]
    exact hsettled.followers _
  rw [← s.feed?_withFetch compress row body report (clock 0).truncate] at hrow
  have hsame := Store.looksSame_of_moved hrow hmoved hkeeps hfollow
  exact ⟨⟨f, rfl⟩, hsame.feed, hsame.subscriptions⟩

/-- **The same payload once more shows nowhere**, with any other report. -/
theorem recrawl_looksSame (hs : s.Valid) (hy : s.InYears) (hrow : s.feed? id = some row)
    (hstatus : row.status = Status.updating.name)
    (h : (finishCrawl compress id body report).runOn clock s = (r, s')) (hy' : s'.InYears)
    {report' : CrawlReport} {clock₂ clock₃ : Nat → Instant} {r₂ : Except StoreError Feed}
    {r₃ : Except Failure Feed} {s₂ s₃ : Store} (hy₂ : s₂.InYears) (hy₃ : s₃.InYears)
    (h₂ : (Store.beginCrawl id).runOn clock₂ s' = (r₂, s₂))
    (h₃ : (finishCrawl compress id body report').runOn clock₃ s₂ = (r₃, s₃)) :
    (∃ f₂ f₃, r₂ = .ok f₂ ∧ r₃ = .ok f₃) ∧ s'.LooksSame id s₃ := by
  obtain ⟨t, ht, hmoved, hleft, hs', hrow', -⟩ := finishCrawl_of_updating hs hy hrow hstatus h hy'
  have htells := FeedRow.tells_of_finishing ht
  rw [← s.feed?_withFetch compress row body report (clock 0).truncate] at hrow
  have hsettled := Store.settled_of_moved hrow ht hmoved
  rw [← hleft] at hsettled
  obtain ⟨hsame, hsettled₂⟩ := hsettled.begin clock₂
  have hbegins := Store.moved_begin hrow' htells.status (clock₂ 0).truncate.stamp
  rw [Store.runOn_beginCrawl_of_moved hrow' hbegins] at h₂ hsame hsettled₂
  obtain ⟨rfl, rfl⟩ := Prod.mk.inj h₂
  have hs₂ := hs'.moveFeed id (t := .begin _) (Stamp.isWritten_stamp (clock₂ 0).truncate)
  have hrow₂ := Store.feed?_moveFeed hrow' hbegins
  obtain ⟨f₂, hf₂⟩ := hs₂.feed_loads hy₂ true (Store.mem_of_feed? hrow₂).1
  obtain ⟨⟨f₃, rfl⟩, hlooks⟩ :=
    finishCrawl_of_settled hs₂ hy₂ hrow₂ rfl hsettled₂ htells.length htells.hash h₃ hy₃
  exact ⟨⟨f₂, f₃, hf₂, rfl⟩, hsame.trans hlooks⟩

end Task

/-! ## The command -/

namespace Session

variable {x : System} {host : ClockHost} {path : String}

/-- **Finishing a crawl by a command keeps the feed and its snapshots in agreement.** In every state
that requests lead to, with any payload and any report, and whatever writes the gzip members, the
fetch is recorded exactly once, as the report tells it and so that it gives back the payload. If the
feed is being crawled then the command succeeds and leaves it ready and telling the same, whatever
was known of its payload before; when another crawl begins and brings the same payload, with any
other report, neither the feed nor a subscription looks different for it. If the feed is not being
crawled then the command fails for that reason and nothing but the fetch stays. All stores are of
the years 0 to 9999. -/
theorem finishCrawl_agrees (hx : x.Reachable) (hrow : x.store.feed? id = some row)
    (hticks : Ticks host) (hcompress : Codec.Gzip.WritesMembers host.compress)
    (hread : host.readFile path = pure (some body)) (user : Option Int) (size : Nat)
    (report : CrawlReport) (clock₁ : Nat → Instant) :
    ∃ result₁ s₁, Ends host user size (.finishCrawl id path report) clock₁ x.store result₁ s₁ ∧
      (x.store.InYears → s₁.InYears →
        (∃ sn : Snapshot, s₁.snapshots = x.store.snapshots ++ [sn.row] ∧ sn.row.load = .ok sn ∧
          sn.Tells id body report) ∧
        (row.status = Status.updating.name →
          (∃ f row₁, result₁ = .ok (some f.toJson) ∧ row₁.load true = .ok f ∧
            s₁.feed? id = some row₁ ∧ row₁.Tells body report) ∧
          ∀ report' clock₂ clock₃, ∃ result₂ s₂ result₃ s₃,
            Ends host user size (.beginCrawl id) clock₂ s₁ result₂ s₂ ∧
            Ends host user size (.finishCrawl id path report') clock₃ s₂ result₃ s₃ ∧
            (s₂.InYears → s₃.InYears →
              (∃ f₂ f₃ : Feed, result₂ = .ok (some f₂.toJson) ∧ result₃ = .ok (some f₃.toJson)) ∧
              s₁.LooksSame id s₃)) ∧
        (row.status ≠ Status.updating.name →
          s₁ = { x.store with snapshots := s₁.snapshots } ∧ ∃ status : Status,
            row.status = status.name ∧
              result₁ = .error (.store (.invalidTransition id status .ready)))) := by
  have hs := hx.sound.valid
  have htask := taskOf_finishCrawl hread user size id
  obtain ⟨r₁, s₁, hrun⟩ : ∃ r₁ s₁,
      (Task.finishCrawl host.compress id body report).runOn clock₁ x.store = (r₁, s₁) :=
    ⟨_, _, rfl⟩
  refine ⟨_, s₁, Ends.of_runOn hticks (htask report) hrun, fun hy hy₁ => ⟨?_, ?_, ?_⟩⟩
  · obtain ⟨-, -, -, hkept⟩ := Task.finishCrawl_eq hs hy hrow hrun
    obtain rfl : row.id = id := (Store.mem_of_feed? hrow).2
    exact Store.exists_snapshot_withFetch hcompress hy₁ hkept
  · refine fun hstatus => ⟨?_, fun report' clock₂ clock₃ => ?_⟩
    · obtain ⟨t, ht, -, -, -, hfeed, f, hload, rfl⟩ :=
        Task.finishCrawl_of_updating hs hy hrow hstatus hrun hy₁
      exact ⟨f, row.apply t, rfl, hload, hfeed, FeedRow.tells_of_finishing ht⟩
    · obtain ⟨r₂, s₂, hbegin⟩ : ∃ r₂ s₂, (Store.beginCrawl id).runOn clock₂ s₁ = (r₂, s₂) :=
        ⟨_, _, rfl⟩
      obtain ⟨r₃, s₃, hrun₃⟩ : ∃ r₃ s₃,
          (Task.finishCrawl host.compress id body report').runOn clock₃ s₂ = (r₃, s₃) :=
        ⟨_, _, rfl⟩
      refine ⟨_, s₂, _, s₃,
        Ends.of_runOn hticks rfl (Task.runOn_ofOperation hbegin),
        Ends.of_runOn hticks (htask report') hrun₃, fun hy₂ hy₃ => ?_⟩
      obtain ⟨⟨f₂, f₃, rfl, rfl⟩, hlooks⟩ :=
        Task.recrawl_looksSame hs hy hrow hstatus hrun hy₁ hy₂ hy₃ hbegin hrun₃
      exact ⟨⟨f₂, f₃, rfl, rfl⟩, hlooks⟩
  · intro hidle
    obtain ⟨rfl, status, hstatus, rfl⟩ := Task.finishCrawl_of_idle hs hy hrow hidle hrun hy₁
    exact ⟨rfl, status, hstatus, rfl⟩

/-- A host with a file of zeros, which it compresses, whose clock shows its times one after
another. -/
def zerosHost : ClockHost where
  environment := []
  readFile name := pure (if name = "a.xml" then some Payload.zeros else none)
  readInput := pure []
  openStore _ := pure (some .empty)
  saveStore _ _ := pure ()
  now clock := (clock 0, fun n => clock (n + 1))
  compress := Payload.writeZeros

/-- The store that the command leaves when it finishes the crawl of the first feed with zeros. -/
def finishZeros (report : CrawlReport) (s : Store) : Store :=
  ((Task.finishCrawl Payload.writeZeros 1 Payload.zeros report).runOn (fun _ => .epoch) s).2

/-- The store that is left when a crawl of the first feed begins. -/
def beginCrawl (s : Store) : Store := ((Store.beginCrawl 1).runOn (fun _ => .epoch) s).2

theorem ticks_zerosHost : Ticks zerosHost := fun _ => rfl

theorem ends_finishZeros (report : CrawlReport) (s : Store) : ∃ result,
    Ends zerosHost none 50 (.finishCrawl 1 "a.xml" report) (fun _ => .epoch) s result
      (finishZeros report s) :=
  ⟨_, Ends.of_runOn ticks_zerosHost (taskOf_finishCrawl rfl none 50 1 report) Prod.mk.eta.symm⟩

theorem ends_beginCrawl (s : Store) : ∃ result,
    Ends zerosHost none 50 (.beginCrawl 1) (fun _ => .epoch) s result (beginCrawl s) :=
  ⟨_, Ends.of_runOn ticks_zerosHost rfl (Task.runOn_ofOperation Prod.mk.eta.symm)⟩

/-- A report without a title. -/
def untitled : CrawlReport := ⟨none, none, none, none, none, 1⟩

/-- A report with a title. -/
def titled : CrawlReport := ⟨some "A", none, none, none, none, 2⟩

/-- A crawl has brought zeros. -/
def crawledOnce : Store := finishZeros untitled System.crawledStore

/-- Another crawl has begun. -/
def crawlingAgain : Store := beginCrawl crawledOnce

/-- The other crawl has brought the same zeros, with a title. -/
def crawledTwice : Store := finishZeros titled crawlingAgain

/-- A feed that is known by an entity tag and a length gets zeros, without its tag, and then the
same payload again, with another title. -/
theorem finishCrawl_agrees_crawlingAgain : ∃ x : System, ∃ result₁ result₂ result₃,
    x.Reachable ∧ x.store.feed? 1 = some System.crawledRow ∧ Ticks zerosHost ∧
    Codec.Gzip.WritesMembers zerosHost.compress ∧
    zerosHost.readFile "a.xml" = pure (some Payload.zeros) ∧
    Ends zerosHost none 50 (.finishCrawl 1 "a.xml" untitled) (fun _ => .epoch) x.store result₁
      crawledOnce ∧
    Ends zerosHost none 50 (.beginCrawl 1) (fun _ => .epoch) crawledOnce result₂ crawlingAgain ∧
    Ends zerosHost none 50 (.finishCrawl 1 "a.xml" titled) (fun _ => .epoch) crawlingAgain result₃
      crawledTwice ∧
    x.store.InYears ∧ crawledOnce.InYears ∧ crawlingAgain.InYears ∧ crawledTwice.InYears ∧
    (∃ sn : Snapshot, crawledOnce.snapshots = x.store.snapshots ++ [sn.row] ∧
      sn.contents none = .ok (some Payload.zeros)) ∧
    (∃ f : Feed, result₁ = .ok (some f.toJson)) ∧ crawledOnce.LooksSame 1 crawledTwice := by
  obtain ⟨x, hx, hstore⟩ := System.exists_crawledStore
  have hcompress : Codec.Gzip.WritesMembers zerosHost.compress := Payload.isMember_writeZeros
  have hread : zerosHost.readFile "a.xml" = pure (some Payload.zeros) := rfl
  have hrow : x.store.feed? 1 = some System.crawledRow := by
    rw [hstore]
    decide
  have hy : x.store.InYears := hstore ▸ Store.inYears_of_decode (by decide +kernel)
  have hy₁ : crawledOnce.InYears := Store.inYears_of_decode (by decide +kernel)
  have hy₂ : crawlingAgain.InYears := Store.inYears_of_decode (by decide +kernel)
  have hy₃ : crawledTwice.InYears := Store.inYears_of_decode (by decide +kernel)
  -- the stores that the law gives are the ones above, since a command ends in one way
  obtain ⟨_, hends₁⟩ : ∃ result, Ends zerosHost none 50 (.finishCrawl 1 "a.xml" untitled)
      (fun _ => .epoch) x.store result crawledOnce := by
    rw [hstore]
    exact ends_finishZeros untitled System.crawledStore
  obtain ⟨_, hends₂⟩ := ends_beginCrawl crawledOnce
  obtain ⟨_, hends₃⟩ := ends_finishZeros titled crawlingAgain
  obtain ⟨result₁, s₁, h₁, hlaw⟩ :=
    finishCrawl_agrees hx hrow ticks_zerosHost hcompress hread none 50 untitled fun _ => .epoch
  obtain ⟨-, rfl⟩ := hends₁.unique h₁
  obtain ⟨⟨sn, hsn, -, htells⟩, hcrawled, -⟩ := hlaw hy hy₁
  obtain ⟨⟨f, row₁, hf, -⟩, hagain⟩ := hcrawled rfl
  obtain ⟨result₂, s₂, result₃, s₃, h₂, h₃, hsame⟩ :=
    hagain titled (fun _ => .epoch) fun _ => .epoch
  obtain ⟨-, rfl⟩ := hends₂.unique h₂
  obtain ⟨-, rfl⟩ := hends₃.unique h₃
  exact ⟨x, result₁, result₂, result₃, hx, hrow, ticks_zerosHost, hcompress, hread, h₁, h₂, h₃, hy,
    hy₁, hy₂, hy₃, ⟨sn, hsn, htells.contents⟩, ⟨f, hf⟩, (hsame hy₂ hy₃).2⟩

end Session

end Syndication
