import Syndication.Proofs.Program.Recrawl
import Syndication.Proofs.Sync.Exact
/-!
# Which clients a crawl wakes

A transition of a feed moves the clocks of some subscriptions to it (`Transition.Wakes`) and leaves
every other subscription as it is (`SubscriptionRow.Follows`). A client whose hints were up to date
before (`Sync.UpToDate`) misses exactly those that it has moved, whatever time the clock shows: the
next sync lists the user's subscription to the feed if the crawl has woken it, and nothing else
(`System.crawl_wakes`).
-/

namespace Syndication

/-! ## Transitions -/

/-- A transition moves the clock of a subscription to its feed: a crawl ends, and it rewrites the
feed or the subscription is not in the status that it leads to yet. -/
def Transition.Wakes (t : Transition) (r : SubscriptionRow) : Prop :=
  t.target ≠ .updating ∧ (t.rewrites = true ∨ r.status ≠ t.target.name)

/-- What a transition of a feed makes of a subscription: one to the feed that it wakes gets the
status of the feed and a later clock, any other stays as it is. -/
def SubscriptionRow.Follows (id : Int) (t : Transition) (r r' : SubscriptionRow) : Prop :=
  (¬ (r.feedId = some id ∧ t.Wakes r) ∧ r' = r) ∨
    (r.feedId = some id ∧ t.Wakes r) ∧ Stamp.Before r.updatedAt r'.updatedAt ∧
      r' = { r with status := t.target.name, updatedAt := r'.updatedAt }

variable {s s' : Store} {id user : Int} {t : Transition} {r r' : SubscriptionRow}

theorem SubscriptionRow.follows_of_follow {now : Instant} (hr : Stamp.IsWritten r.updatedAt)
    (hnow : now.IsWhole) (hends : t.target ≠ .updating)
    (h : r.follow id t.target now t.rewrites = .ok r') : r.Follows id t r' := by
  by_cases hscope : r.feedId = some id ∧ (t.rewrites = true ∨ r.status ≠ t.target.name)
  · refine .inr ⟨⟨hscope.1, hends, hscope.2⟩, ?_⟩
    rcases follow_cases h with ⟨-, hkept⟩ | ⟨-, previous, u, hprevious, hu, rfl⟩
    · obtain ⟨hquiet, hstatus⟩ := hkept hscope.1
      exact absurd hscope.2 (by simp [hquiet, hstatus])
    · refine ⟨?_, rfl⟩
      rw [← (Stamp.Holds.of_decode hr hprevious).2]
      exact .of_advance? hnow hu
  · have hstays : r.follow id t.target now t.rewrites = .ok r := if_neg hscope
    exact .inl ⟨fun hwakes => hscope ⟨hwakes.1, hwakes.2.2⟩, Except.ok.inj (h.symm.trans hstays)⟩

namespace Store

/-- What a transition that moves a feed leaves of the subscriptions. -/
theorem Valid.follows (hs : s.Valid) (ht : t.Proper) (hmoved : s.moveFeed id t = (.moved, s')) :
    List.Forall₂ (SubscriptionRow.Follows id t) s.subscriptions s'.subscriptions := by
  rcases s.moveFeed_cases id t with ⟨hstays, -⟩ | ⟨row, rows, -, -, hrows, hleft⟩
  · exact absurd (congrArg Prod.fst hmoved) hstays
  · obtain rfl := congrArg Prod.snd (hleft.symm.trans hmoved)
    rcases followers_cases hrows with ⟨hbegins, rfl⟩ | ⟨hends, now, hnow, hrows⟩
    · exact List.forall₂_same.2 fun r _ => .inl ⟨fun h => h.2.1 hbegins, rfl⟩
    · have hwritten : ∀ r ∈ s.subscriptions, Stamp.IsWritten r.updatedAt :=
        fun r hr => hs.written_updatedAt hr
      refine ((List.forall₂_and_left _ _).2 ⟨hwritten, hrows⟩).imp fun r r' h => ?_
      exact r.follows_of_follow h.1 (hnow ht) hends h.2

end Store

/-! ## Requests -/

/-- A request of a crawl moves the clock of a subscription to the feed in `row`: the crawl brings
another payload than the known one, or it ends in another status than the subscription has. -/
def Request.Wakes (row : FeedRow) (r : SubscriptionRow) : Request → Prop
  | .finishCrawl _ update =>
    update.fingerprint.agrees row.fingerprint = false ∨ r.status ≠ Status.ready.name
  | .failCrawl _ => r.status ≠ Status.error.name
  | _ => False

namespace Store

open Operation

/-- What succeeds has moved a feed by one transition of a kind. -/
def MovedBy (s : Store) (id : Int) (kind : Transition → Prop) (y : Store × (Nat → Instant))
    (a : Except StoreError Feed) : Prop :=
  ∀ f, a = .ok f → ∃ t, kind t ∧ s.moveFeed id t = (.moved, y.1)

variable {kind : Transition → Prop} {clock : Nat → Instant}

theorem ensures_movedBy_transit (ht : kind t) :
    (transit id t).Ensures .timed (fun _ _ => True) (s.MovedBy id kind) (s, clock) := by
  refine ensures_transit_iff.2 ⟨True.intro, fun outcome y hy => ?_⟩
  obtain ⟨houtcome, rfl⟩ := hy
  change (s.moveFeed id t).1 = outcome at houtcome
  cases outcome with
  | missing => exact fun f hf => by cases hf
  | failed e => exact fun f hf => by cases hf
  | refused name =>
    intro f hf
    obtain ⟨_, -, hf⟩ := bind_eq_ok.1 hf
    cases hf
  | moved =>
    refine ⟨True.intro, fun found z hz f hf => ?_⟩
    obtain ⟨-, rfl⟩ := hz
    exact ⟨t, ht, Prod.ext houtcome rfl⟩

theorem ensures_movedBy_beginCrawl (h : ∀ time : Instant, kind (.begin time.stamp)) :
    (beginCrawl id).Ensures .timed (fun _ _ => True) (s.MovedBy id kind) (s, clock) := by
  refine ensures_bind.2 (ensures_now.2 fun time y hy => continues_ok.2 ?_)
  obtain ⟨-, rfl⟩ := hy
  exact ensures_movedBy_transit (h time.truncate)

theorem ensures_movedBy_failCrawl (h : ∀ time : Instant, kind (.fail time.truncate)) :
    (failCrawl id).Ensures .timed (fun _ _ => True) (s.MovedBy id kind) (s, clock) := by
  refine ensures_bind.2 (ensures_now.2 fun time y hy => continues_ok.2 ?_)
  obtain ⟨-, rfl⟩ := hy
  exact ensures_movedBy_transit (h time)

theorem ensures_movedBy_finishCrawl {update : Feed.Update} (h : ∀ row t₁ t₂ t,
    s.feed? id = some row → row.finishing update t₁ t₂ = some t → kind t) :
    (finishCrawl id update).Ensures .timed (fun _ _ => True) (s.MovedBy id kind) (s, clock) := by
  refine ensures_finishCrawl_timed (fun _ y e _ f hf => ?_) fun row t hrow ht => ?_
  · cases hf
  · exact ensures_movedBy_transit (h row _ _ t hrow ht)

end Store

/-- **A request of a crawl that succeeds has made one transition** of the feed, which wakes whom the
request wakes. -/
theorem Request.exists_moved {request : Request} {next : Status} {clock : Nat → Instant}
    {reply : Reply} (hcrawl : request.crawl? = some (id, next))
    (h : request.operation.runOn clock s = (.ok reply, s')) : ∃ row t, s.feed? id = some row ∧
      s.moveFeed id t = (.moved, s') ∧ t.Proper ∧ ∀ r, t.Wakes r ↔ request.Wakes row r := by
  let kind (t : Transition) : Prop :=
    t.Proper ∧ ∀ row, s.feed? id = some row → ∀ r, t.Wakes r ↔ request.Wakes row r
  have moved {op : Operation Feed} (heq : request.operation = .feed <$> op)
      (hop : op.Ensures .timed (fun _ _ => True) (s.MovedBy id kind) (s, clock)) :
      ∃ t, kind t ∧ s.moveFeed id t = (.moved, s') := by
    rw [heq, Operation.runOn_map] at h
    obtain ⟨hreply, rfl⟩ := Prod.mk.inj h
    obtain ⟨f, hf, -⟩ := map_eq_ok.1 hreply
    exact @Operation.Ensures.runOn_timed _ _
      (fun left a => ∀ f, a = .ok f → ∃ t, kind t ∧ s.moveFeed id t = (.moved, left)) _ _ _ hop f hf
  have hmoved : ∃ t, kind t ∧ s.moveFeed id t = (.moved, s') := by
    cases request with
    | beginCrawl k =>
      obtain ⟨rfl, -⟩ := Prod.mk.inj (Option.some.inj hcrawl)
      refine moved rfl (Store.ensures_movedBy_beginCrawl fun time =>
        ⟨Stamp.isWritten_stamp time, fun row _ r => ?_⟩)
      simp [Transition.Wakes, Transition.target, Wakes]
    | failCrawl k =>
      obtain ⟨rfl, -⟩ := Prod.mk.inj (Option.some.inj hcrawl)
      refine moved rfl (Store.ensures_movedBy_failCrawl fun time =>
        ⟨time.isWhole_truncate, fun row _ r => ?_⟩)
      simp [Transition.Wakes, Transition.target, Transition.rewrites, Wakes]
    | finishCrawl k update =>
      obtain ⟨rfl, -⟩ := Prod.mk.inj (Option.some.inj hcrawl)
      refine moved rfl (Store.ensures_movedBy_finishCrawl fun row t₁ t₂ t hrow ht =>
        ⟨FeedRow.proper_of_finishing ht, fun row' hrow' r => ?_⟩)
      obtain rfl := Option.some.inj (hrow.symm.trans hrow')
      simp [Transition.Wakes, FeedRow.target_of_finishing ht, FeedRow.rewrites_of_finishing ht,
        Wakes]
    | _ => cases hcrawl
  obtain ⟨t, ⟨hproper, hwakes⟩, hmoved⟩ := hmoved
  rcases s.moveFeed_cases id t with ⟨hstays, -⟩ | ⟨row, rows, hrow, -⟩
  · exact absurd (congrArg Prod.fst hmoved) hstays
  · exact ⟨row, t, hrow, hmoved, hproper, hwakes row hrow⟩

/-! ## Hints that are up to date -/

/-- The hints are of all subscriptions of a user, each with the clock that it has. -/
def Sync.UpToDate (s : Store) (user : Int) (hints : List Hint) : Prop :=
  ∀ h : Hint, h ∈ hints ↔ ∃ r ∈ s.subscriptions, r.user = user ∧ r.id = h.id ∧
    Stamp.decode r.updatedAt = .ok h.seenAt

theorem Sync.UpToDate.seen? {hints : List Hint} (h : UpToDate s user hints) (hs : s.Valid)
    (hr : r ∈ s.subscriptions) (huser : r.user = user) {t : Instant}
    (ht : Stamp.decode r.updatedAt = .ok t) : seen? hints r.id = some t := by
  have hmem : (⟨r.id, t⟩ : Hint) ∈ hints := (h _).2 ⟨r, hr, huser, rfl, ht⟩
  cases hseen : Sync.seen? hints r.id with
  | none => exact absurd rfl (seen?_eq_none.1 hseen _ hmem)
  | some u =>
    obtain ⟨earlier, last, later, rfl, hid, -, rfl⟩ := seen?_eq_some.1 hseen
    obtain ⟨r₀, hr₀, -, hid₀, hclock⟩ := (h last).1 (by simp)
    obtain rfl := hs.eq_of_id hr₀ hr (hid₀.trans hid)
    exact congrArg some (Except.ok.inj (hclock.symm.trans ht))

/-- **A client misses whom a transition has woken**, and nobody else. -/
theorem SubscriptionRow.Follows.isStale_iff (h : r.Follows id t r') (hs : s.Valid)
    (hy : s.InYears) {hints : List Hint} (hhints : Sync.UpToDate s user hints)
    (hr : r ∈ s.subscriptions) (huser : r.user = user) {u : Instant}
    (hu : Stamp.decode r'.updatedAt = .ok u) :
    Sync.isStale hints r.id u = true ↔ r.feedId = some id ∧ t.Wakes r := by
  have hstamp : r.updatedAt ∈ s.stamps :=
    Store.mem_stamps.2 (.inr (.inr (.inr ⟨r, hr, by simp [SubscriptionRow.stamps]⟩)))
  obtain ⟨seen, hseen⟩ := hy.decode hs hstamp
  rw [Sync.isStale, hhints.seen? hs hr huser hseen, decide_eq_true_iff]
  rcases h with ⟨hsleeps, rfl⟩ | ⟨hwakes, hbefore, -⟩
  · obtain rfl := Except.ok.inj (hseen.symm.trans hu)
    exact iff_of_false (Instant.lt_irrefl _) hsleeps
  · refine iff_of_true ?_ hwakes
    exact (Stamp.Before.iff_lt (.of_decode hbefore.left hseen) (.of_decode hbefore.right hu)).1
      hbefore

theorem SubscriptionRow.Follows.same (h : r.Follows id t r') :
    r'.id = r.id ∧ r'.user = r.user ∧ r'.feedId = r.feedId := by
  rcases h with ⟨-, rfl⟩ | ⟨-, -, heq⟩
  · exact ⟨rfl, rfl, rfl⟩
  · rw [heq]
    exact ⟨rfl, rfl, rfl⟩

/-! ## Answers -/

namespace SyncAnswer.IsExact

variable {query : SyncQuery} {hints : List Hint} {detail : Bool} {answer : SyncAnswer}

/-- Whatever an answer lists is what reading it alone gives. -/
theorem runOn_getSubscription (h : answer.IsExact s user query) (hs : s.Valid) {a : Subscription}
    (ha : a ∈ answer.subscriptions) (clock : Nat → Instant) :
    (Store.getSubscription a.id user query.detail).runOn clock s = (.ok a, s) := by
  obtain ⟨r, hr, hload, -⟩ := (h.mem a).1 ha
  obtain ⟨hmem, huser, -⟩ := Store.mem_visible.1 hr
  have hid : a.id = r.id := hload.id
  have hget := Store.runOn_getSubscription (hs.subscription?_eq_some.2 ⟨hmem, rfl⟩)
    query.detail clock
  rwa [SubscriptionRow.load_eq_ok.2 hload, huser, ← hid] at hget

/-- An answer to hints that were up to date lists whom a transition has woken since. -/
theorem mem_ids_iff (h : answer.IsExact s' user ⟨hints, detail, true⟩) (hs : s.Valid)
    (hy : s.InYears) (hs' : s'.Valid) (hy' : s'.InYears) (hhints : Sync.UpToDate s user hints)
    (hfollows : List.Forall₂ (SubscriptionRow.Follows id t) s.subscriptions s'.subscriptions)
    (k : Int) : k ∈ answer.subscriptions.map (·.id) ↔
      ∃ r ∈ s.subscriptions, r.id = k ∧ r.user = user ∧ r.feedId = some id ∧ t.Wakes r := by
  constructor
  · intro hk
    obtain ⟨a, ha, rfl⟩ := List.mem_map.1 hk
    obtain ⟨r', hr', hload, hstale⟩ := (h.mem a).1 ha
    obtain ⟨hmem, huser, -⟩ := Store.mem_visible.1 hr'
    obtain ⟨r, hr, hfollow⟩ := forall₂_right hfollows hmem
    obtain ⟨hid, hsame, -⟩ := hfollow.same
    have huser : r.user = user := hsame.symm.trans huser
    rw [hid, hfollow.isStale_iff hs hy hhints hr huser hload.updatedAt] at hstale
    exact ⟨r, hr, hid.symm.trans hload.id.symm, huser, hstale⟩
  · rintro ⟨r, hr, rfl, huser, hwakes⟩
    obtain ⟨r', hr', hfollow⟩ := forall₂_left hfollows hr
    obtain ⟨hid, hsame, -⟩ := hfollow.same
    obtain ⟨a, ha⟩ := hs'.subscription_loads hy' detail hr'
    have hload := SubscriptionRow.load_eq_ok.1 ha
    have hstale := (hfollow.isStale_iff hs hy hhints hr huser hload.updatedAt).2 hwakes
    have hvisible : r' ∈ s'.visible user true :=
      Store.mem_visible_iff.2 ⟨hr', by simp [SubscriptionRow.isVisible, hsame, huser]⟩
    refine List.mem_map.2 ⟨a, (h.mem a).2 ⟨r', hvisible, hload, ?_⟩, hload.id.trans hid⟩
    rwa [hid]

/-- It counts all subscriptions of the user. -/
theorem total_eq (h : answer.IsExact s' user ⟨hints, detail, true⟩)
    (hfollows : List.Forall₂ (SubscriptionRow.Follows id t) s.subscriptions s'.subscriptions) :
    answer.total = (s.subscriptions.filter (·.user = user)).length := by
  have hcount (rows : List SubscriptionRow) : (rows.filter (·.user = user)).length =
      (rows.map (·.user)).countP (· = user) := by
    rw [List.countP_map, List.countP_eq_length_filter]
    rfl
  have husers : s'.subscriptions.map (·.user) = s.subscriptions.map (·.user) :=
    map_eq_of_forall₂ (hfollows.imp fun r r' h => h.same.2.1)
  rw [h.total, Store.visible, List.length_mergeSort, hcount, ← husers, ← hcount]
  simp

/-- A user holds the feed at most once. -/
theorem length_le_one (h : answer.IsExact s' user query) (hs : s.Valid)
    (hmem : ∀ k ∈ answer.subscriptions.map (·.id), ∃ r ∈ s.subscriptions, r.id = k ∧
      r.user = user ∧ r.feedId = some id) : answer.subscriptions.length ≤ 1 := by
  have hids := h.ids
  rcases hlist : answer.subscriptions with _ | ⟨a, _ | ⟨b, rest⟩⟩
  · simp
  · simp
  · rw [hlist] at hids hmem
    obtain ⟨r, hr, hid, huser, hfeed⟩ := hmem a.id (by simp)
    obtain ⟨r', hr', hid', huser', hfeed'⟩ := hmem b.id (by simp)
    obtain rfl := hs.holders r hr r' hr' id (huser.trans huser'.symm) hfeed hfeed'
    have hne : a.id ≠ b.id := by
      intro heq
      simp [heq] at hids
    exact absurd (hid.symm.trans hid') hne

end SyncAnswer.IsExact

/-! ## The law -/

/-- What a crawl of a feed may leave different: the feed itself and the subscriptions to it. -/
structure Store.DiffersAt (id : Int) (s s' : Store) : Prop where
  feeds : List.Forall₂ (fun f f' => f.id ≠ id → f' = f) s.feeds s'.feeds
  subscriptions : List.Forall₂ (fun r r' => r.feedId ≠ some id → r' = r) s.subscriptions
    s'.subscriptions
  mappings : s'.mappings = s.mappings
  snapshots : s'.snapshots = s.snapshots

theorem Store.Valid.differsAt (hs : s.Valid) (ht : t.Proper)
    (hmoved : s.moveFeed id t = (.moved, s')) : Store.DiffersAt id s s' := by
  have hfollows := hs.follows ht hmoved
  rcases s.moveFeed_cases id t with ⟨hstays, -⟩ | ⟨row, rows, -, -, -, hleft⟩
  · exact absurd (congrArg Prod.fst hmoved) hstays
  · obtain rfl := congrArg Prod.snd (hleft.symm.trans hmoved)
    refine ⟨?_, hfollows.imp fun r r' h hfeed => ?_, rfl, rfl⟩
    · refine List.forall₂_map_right_iff.2 (List.forall₂_same.2 fun f _ hne => if_neg hne)
    · rcases h with ⟨-, heq⟩ | ⟨⟨hbound, -⟩, -⟩
      · exact heq
      · exact absurd hbound hfeed

namespace System

variable {x : System} {hints : List Hint}

/-- **A crawl wakes exactly the right clients.** In every state that requests lead to, a request of
a crawl runs undisturbed and succeeds, whatever times the clock shows. Then a sync with hints that
were up to date before it counts all subscriptions of the user and lists the one that is bound to
the feed, as it is read alone, if the request wakes it, and nothing else; and the request has left
everything but the feed and the subscriptions to it as it was. Both stores are of the years 0 to
9999. -/
theorem crawl_wakes (hx : x.Reachable) (hy : x.store.InYears) {request : Request} {next : Status}
    (hcrawl : request.crawl? = some (id, next)) {clock : Nat → Instant} {reply : Reply}
    (h : request.operation.runOn clock x.store = (.ok reply, s')) (hy' : s'.InYears)
    (hhints : Sync.UpToDate x.store user hints) (detail : Bool) (clock' : Nat → Instant) :
    (∃ row answer, x.store.feed? id = some row ∧
      (Store.sync user ⟨hints, detail, true⟩).runOn clock' s' = (.ok answer, s') ∧
      answer.total = (x.store.subscriptions.filter (·.user = user)).length ∧
      answer.subscriptions.length ≤ 1 ∧
      (∀ k, k ∈ answer.subscriptions.map (·.id) ↔ ∃ r ∈ x.store.subscriptions, r.id = k ∧
        r.user = user ∧ r.feedId = some id ∧ request.Wakes row r) ∧
      ∀ a ∈ answer.subscriptions,
        (Store.getSubscription a.id user detail).runOn clock' s' = (.ok a, s')) ∧
    Store.DiffersAt id x.store s' := by
  have hs := hx.sound.valid
  obtain ⟨row, t, hrow, hmoved, ht, hwakes⟩ := Request.exists_moved hcrawl h
  have hfollows := hs.follows ht hmoved
  have hs' : s'.Valid := by
    have hleft := hs.moveFeed id ht
    rwa [hmoved] at hleft
  obtain ⟨answer, hanswer, hexact⟩ := Store.exists_exact
    (Store.ensures_sync hs' user ⟨hints, detail, true⟩)
    (Store.makes_sync user ⟨hints, detail, true⟩) hy' clock'
  have hids := hexact.mem_ids_iff hs hy hs' hy' hhints hfollows
  have hheld : ∀ k ∈ answer.subscriptions.map (·.id), ∃ r ∈ x.store.subscriptions, r.id = k ∧
      r.user = user ∧ r.feedId = some id := by
    intro k hk
    obtain ⟨r, hr, hid, huser, hfeed, -⟩ := (hids k).1 hk
    exact ⟨r, hr, hid, huser, hfeed⟩
  refine ⟨⟨row, answer, hrow, hanswer, hexact.total_eq hfollows, hexact.length_le_one hs hheld,
    fun k => ?_, fun a ha => hexact.runOn_getSubscription hs' ha clock'⟩, hs.differsAt ht hmoved⟩
  rw [hids k]
  simp only [hwakes]

/-- One microsecond after 1970-01-01T00:00:00Z. -/
def microLater : Instant :=
  { Instant.epoch with nano := 1000, nano_lt := by decide }

/-- A payload that is not the known one wakes the one subscription to its feed, although that is
ready and the clock shows a time before its own. -/
theorem crawl_wakes_crawlingAgain : ∃ x : System, ∃ update : Feed.Update, ∃ reply s' answer,
    x.Reachable ∧ x.store.InYears ∧
    (Request.finishCrawl 1 update).crawl? = some (1, .ready) ∧
    (Request.finishCrawl 1 update).operation.runOn (fun _ => .epoch) x.store = (.ok reply, s') ∧
    s'.InYears ∧ Sync.UpToDate x.store 1 [⟨1, microLater⟩] ∧
    (Store.sync 1 ⟨[⟨1, microLater⟩], true, true⟩).runOn (fun _ => .epoch) s' =
      (.ok answer, s') ∧ 1 ∈ answer.subscriptions.map (·.id) := by
  obtain ⟨x, hx, hstore⟩ := exists_crawledStore
  let update : Feed.Update := ⟨.empty, none, 0, ⟨some 6, some [1], none, none⟩⟩
  let left := (Request.finishCrawl 1 update).operation.runOn (fun _ => .epoch) crawledStore
  have hy : x.store.InYears := hstore ▸ Store.inYears_of_decode (by decide +kernel)
  have hy' : left.2.InYears := Store.inYears_of_decode (by decide +kernel)
  have hsucceeds : left.1.toBool = true := by decide +kernel
  have hrun : (Request.finishCrawl 1 update).operation.runOn (fun _ => .epoch) x.store =
      (left.1, left.2) := hstore ▸ Prod.mk.eta.symm
  have hclock : Stamp.decode "1970-01-01T00:00:00.000001Z" = .ok microLater := by
    rw [show "1970-01-01T00:00:00.000001Z" = microLater.stamp by decide +kernel,
      Instant.decode_stamp (by decide)]
    rfl
  have hhints : Sync.UpToDate x.store 1 [⟨1, microLater⟩] := by
    rintro ⟨k, seen⟩
    simp only [hstore, crawledStore, List.mem_singleton, exists_eq_left, hclock, true_and,
      Hint.mk.injEq, Except.ok.injEq]
    exact and_congr eq_comm eq_comm
  cases hreply : left.1 with
  | error e =>
    rw [hreply] at hsucceeds
    cases hsucceeds
  | ok reply =>
    rw [hreply] at hrun
    obtain ⟨⟨row, answer, hrow, hanswer, -, -, hids, -⟩, -⟩ :=
      crawl_wakes hx hy rfl hrun hy' hhints true fun _ => .epoch
    refine ⟨x, update, reply, left.2, answer, hx, hy, rfl, hrun, hy', hhints, hanswer,
      (hids 1).2 ?_⟩
    obtain rfl : crawledRow = row := by
      rw [hstore] at hrow
      exact Option.some.inj hrow
    rw [hstore]
    exact ⟨_, List.mem_singleton_self _, rfl, rfl, rfl, .inl (by decide)⟩

end System

end Syndication
